import TemplateCompiler.Registry.Basic

/-!
# Interleaved lookups

Several threads use one registry. A lookup holds the lock only while it inspects the registry and
while it finishes, so the sections of different threads may follow each other in any order. Here
a thread is a stack of lookups that it has started, together with what it is about to do, and a
step lets one thread go on by one section.

## Main definitions

* `Registry.Activity`, `Registry.ThreadState` — what a thread is doing
* `Registry.Shared` — the registry and all threads
* `Registry.Shared.Step` — one section of one thread
* `Registry.Shared.Reachable` — what sections in any order lead to
-/
namespace TemplateCompiler.Registry

/-- A lookup under way and the nested types that it has yet to look up. -/
structure Lookup where
  definition : ComponentDefinition
  name : String
  pending : List String
  deriving DecidableEq, Repr

/-- What a thread is about to do. -/
inductive Activity where
  /-- Nothing, or go on with its innermost lookup. -/
  | working
  /-- Inspect the registry for a type. -/
  | asking (name : String)
  /-- Inspect it again once another thread has finished. -/
  | waiting (name : String)
  /-- Hand an answer to the lookup around it: whether the type was found. -/
  | answered (found : Bool)
  /-- Finish the innermost lookup. -/
  | finishing (succeeded : Bool)
  deriving DecidableEq, Repr

/-- A thread: its lookups under way, the innermost first, and what it is about to do. -/
structure ThreadState where
  lookups : List Lookup
  activity : Activity
  deriving DecidableEq, Repr

/-- A thread that has not begun. -/
def ThreadState.idle : ThreadState := ⟨[], .working⟩

/-- The registry and the threads that use it. -/
structure Shared where
  registry : Registry
  threads : ThreadId → ThreadState

namespace Shared

/-- Replace the state of one thread. -/
def set (s : Shared) (me : ThreadId) (t : ThreadState) : Shared :=
  { s with threads := fun other => if other = me then t else s.threads other }

/-- Wake every waiting thread, so that it inspects the registry again. -/
def wake (t : ThreadState) : ThreadState :=
  match t.activity with
  | .waiting name => { t with activity := .asking name }
  | _ => t

/-- All threads after a lookup has finished. -/
def notifyAll (s : Shared) : Shared := { s with threads := fun other => wake (s.threads other) }

/-- What a thread is about to do after an inspection. -/
def afterInspection (lookups : List Lookup) (name : String) : Inspection → ThreadState
  | .missing => ⟨lookups, .answered false⟩
  | .ready _ => ⟨lookups, .answered true⟩
  | .started d => ⟨⟨d, name, d.dependencies⟩ :: lookups, .working⟩
  | .wait => ⟨lookups, .waiting name⟩

/-- One section of the thread `me`. -/
inductive Step (s : Shared) (me : ThreadId) : Shared → Prop where
  /-- A thread without lookups begins a lookup. -/
  | call (name : String) (idle : s.threads me = .idle) :
      Step s me (s.set me ⟨[], .asking name⟩)
  /-- The inspection at the beginning of a lookup. -/
  | inspect (lookups : List Lookup) (name : String)
      (asking : s.threads me = ⟨lookups, .asking name⟩) :
      Step s me
        ({ s with registry := (s.registry.inspect me name).2 }.set me
          (afterInspection lookups name (s.registry.inspect me name).1))
  /-- A waiting thread may wake up at any time. -/
  | wakeUp (lookups : List Lookup) (name : String)
      (waiting : s.threads me = ⟨lookups, .waiting name⟩) :
      Step s me (s.set me ⟨lookups, .asking name⟩)
  /-- The next nested type of the innermost lookup is looked up. -/
  | descend (lookup : Lookup) (lookups : List Lookup) (name : String) (pending : List String)
      (working : s.threads me = ⟨lookup :: lookups, .working⟩)
      (next : lookup.pending = name :: pending) :
      Step s me (s.set me ⟨{ lookup with pending } :: lookups, .asking name⟩)
  /-- All nested types have been looked up, and the hook runs. -/
  | hook (lookup : Lookup) (lookups : List Lookup)
      (working : s.threads me = ⟨lookup :: lookups, .working⟩) (done : lookup.pending = []) :
      Step s me
        ({ s with registry := s.registry.runHook lookup.definition.typeName }.set me
          ⟨lookup :: lookups, .finishing true⟩)
  /-- A nested type was found. -/
  | resume (lookup : Lookup) (lookups : List Lookup)
      (answered : s.threads me = ⟨lookup :: lookups, .answered true⟩) :
      Step s me (s.set me ⟨lookup :: lookups, .working⟩)
  /-- A nested type was not found, so the lookup around it fails as well. -/
  | giveUp (lookup : Lookup) (lookups : List Lookup)
      (answered : s.threads me = ⟨lookup :: lookups, .answered false⟩) :
      Step s me (s.set me ⟨lookup :: lookups, .finishing false⟩)
  /-- The section at the end of a started lookup. -/
  | finish (lookup : Lookup) (lookups : List Lookup) (succeeded : Bool)
      (finishing : s.threads me = ⟨lookup :: lookups, .finishing succeeded⟩) :
      Step s me
        ({ s with registry := s.registry.finish lookup.name succeeded }.set me
          ⟨lookups, .answered succeeded⟩).notifyAll
  /-- The outermost lookup returns to its caller. -/
  | return_ (found : Bool) (answered : s.threads me = ⟨[], .answered found⟩) :
      Step s me (s.set me .idle)

/-- What sections in any order lead to, from a registry that no thread uses. -/
inductive Reachable (start : Registry) : Shared → Prop where
  | start : Reachable start ⟨start, fun _ => .idle⟩
  | step {s t : Shared} (me : ThreadId) : Reachable start s → Step s me t → Reachable start t

end Shared

end TemplateCompiler.Registry
