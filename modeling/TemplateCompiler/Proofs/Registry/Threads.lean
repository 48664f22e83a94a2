import Mathlib
import TemplateCompiler.Proofs.Registry.Runs
import TemplateCompiler.Registry.Interleaving

/-!
# Threads

The sections of lookups by different threads may follow each other in any order, and a thread gives
the lock back between the section that begins a lookup and the one that ends it. So other threads
see every state in between. What keeps them apart is the owner: only one thread has lookups under
way, the types that are being ensured are those on its stack, and the others wait for it. The owner
never waits.

## Main definitions

* `Registry.ensuring` — the types that are being ensured
* `ThreadState.frames`, `ThreadState.hooked` — what is under way in a thread
* `Shared.Stacked` — how registry and threads belong together
* `Shared.Waits` — for whom threads wait
* `Shared.Safe` — what any interleaving keeps to

## Main statements

* `Shared.Stacked.step`, `Shared.Waits.step` — one section of one thread
* `Shared.stacked_of_reachable` — any number of sections of any threads
* `Shared.exists_step` — a thread that does not wait can go on
* `Shared.safe_of_reachable` — first use by many threads is safe
-/
namespace TemplateCompiler.Registry

/-- The types that are being ensured. -/
def ensuring (r : Registry) : List String :=
  r.entries.keys.filter fun n =>
    match r.stage? n with
    | some (.ensuring _) => true
    | _ => false

theorem mem_ensuring {r : Registry} {n : String} :
    n ∈ r.ensuring ↔ ∃ thread, r.stage? n = some (.ensuring thread) := by
  rw [ensuring, List.mem_filter]
  constructor
  · rintro ⟨-, marked⟩
    split at marked
    · next thread stage => exact ⟨thread, stage⟩
    · cases marked
  · rintro ⟨thread, stage⟩
    obtain ⟨entry, found, -⟩ := Option.map_eq_some_iff.mp stage
    exact ⟨OrderedMap.mem_keys_iff.mpr (by simp [found]), by simp [stage]⟩

theorem nodup_ensuring (r : Registry) : r.ensuring.Nodup := r.entries.nodup_keys.filter _

/-- If a registry that no other thread owns has an owner, it is `me`. -/
theorem thread_eq_of_free {r : Registry} {me : ThreadId} {o : Owner}
    (free : ¬ r.ownedByOther me) (owned : r.owner = some o) : o.thread = me := by
  by_contra other
  exact free (ownedByOther_iff.mpr ⟨o, owned, other⟩)

/-- Who takes a type up owns the registry. -/
theorem thread_eq_of_claim {r : Registry} {me : ThreadId} {name : String} {o : Owner}
    (free : ¬ r.ownedByOther me) (owned : (r.claim me name).owner = some o) : o.thread = me := by
  rw [owner_claim] at owned
  obtain rfl := Option.some.inj owned
  cases before : r.owner with
  | none => rfl
  | some o => exact thread_eq_of_free (o := o) free before

/-- The types that a thread is at work on, the innermost first, with their definitions. -/
def ThreadState.frames (t : ThreadState) : List (String × ComponentDefinition) :=
  t.lookups.map fun lookup => (lookup.name, lookup.definition)

/-- The type for which the hook has run in a lookup that is not yet finished. -/
def ThreadState.hooked (t : ThreadState) : Option String :=
  match t.activity with
  | .finishing true => t.lookups.head?.map Lookup.name
  | _ => none

namespace Shared

/-- How registry and threads belong together. -/
structure Stacked (s : Shared) : Prop where
  /-- A thread with lookups under way owns the registry, as deeply as it has lookups. -/
  owner : ∀ t, (s.threads t).frames ≠ [] →
    s.registry.owner = some ⟨t, (s.threads t).frames.length⟩
  owned : ∀ o, s.registry.owner = some o → (s.threads o.thread).frames ≠ []
  /-- A type that is being ensured is on the stack of the thread that ensures it. -/
  marks : ∀ n t,
    s.registry.stage? n = some (.ensuring t) ↔ n ∈ (s.threads t).frames.map Prod.fst
  distinct : ∀ t, ((s.threads t).frames.map Prod.fst).Nodup
  known : ∀ t, ∀ frame ∈ (s.threads t).frames, s.registry.definition? frame.1 = some frame.2
  once : s.registry.log.Nodup
  /-- Between the hook and the end of its lookup a type is logged and not yet ensured. -/
  recorded : ∀ n,
    n ∈ s.registry.log ↔ s.registry.isEnsured n ∨ ∃ t, (s.threads t).hooked = some n

/-- Threads wait for others. -/
def Waits (s : Shared) : Prop :=
  ∀ t name, (s.threads t).activity = .waiting name → s.registry.ownedByOther t

section Views

variable (s : Shared) (me t : ThreadId) (state : ThreadState)

@[simp] theorem threads_set : (s.set me state).threads t = if t = me then state else s.threads t :=
  rfl

@[simp] theorem threads_notifyAll : s.notifyAll.threads t = wake (s.threads t) := rfl

@[simp] theorem frames_wake : (wake state).frames = state.frames := by
  unfold wake
  split <;> rfl

@[simp] theorem hooked_wake : (wake state).hooked = state.hooked := by
  unfold wake
  split
  · next waiting => simp [ThreadState.hooked, waiting]
  · rfl

/-- After a wake-up no thread waits. -/
theorem activity_wake_ne (name : String) : (wake state).activity ≠ .waiting name := by
  unfold wake
  split
  · simp
  · next not => exact not name

end Views

/-- A hook runs in a lookup that is under way. -/
theorem frames_ne_nil_of_hooked {state : ThreadState} {n : String}
    (hooked : state.hooked = some n) : state.frames ≠ [] := by
  unfold ThreadState.hooked at hooked
  split at hooked
  · intro none
    simp [List.map_eq_nil_iff.mp none] at hooked
  · cases hooked

namespace Stacked

variable {s s' : Shared} {me t u : ThreadId} {state : ThreadState} {lookups : List Lookup}
  {lookup : Lookup} {name : String} {d : ComponentDefinition}

/-- Only one thread has lookups under way. -/
theorem unique (h : Stacked s) (ht : (s.threads t).frames ≠ []) (hu : (s.threads u).frames ≠ []) :
    t = u := by
  have same := (h.owner t ht).symm.trans (h.owner u hu)
  simp only [Option.some.injEq, Owner.mk.injEq] at same
  exact same.1

/-- Where no other thread owns the registry, no other has lookups under way. -/
theorem frames_eq_nil (h : Stacked s) (free : ¬ s.registry.ownedByOther me) (ne : t ≠ me) :
    (s.threads t).frames = [] := by
  by_contra some
  exact free (ownedByOther_iff.mpr ⟨_, h.owner t some, ne⟩)

/-- The thread with lookups under way owns the registry. -/
theorem not_ownedByOther (h : Stacked s) (mine : (s.threads me).frames ≠ []) :
    ¬ s.registry.ownedByOther me := by
  intro other
  obtain ⟨o, owned, ne⟩ := ownedByOther_iff.mp other
  rw [h.owner me mine] at owned
  exact ne (Option.some.inj owned ▸ rfl)

/-- Steps that change neither stacks nor the registry. -/
theorem congr (h : Stacked s) (registry : s'.registry = s.registry)
    (frames : ∀ t, (s'.threads t).frames = (s.threads t).frames)
    (hooked : ∀ t, (s'.threads t).hooked = (s.threads t).hooked) : Stacked s' := by
  constructor
  · simpa only [registry, frames] using h.owner
  · simpa only [registry, frames] using h.owned
  · simpa only [registry, frames] using h.marks
  · simpa only [frames] using h.distinct
  · simpa only [registry, frames] using h.known
  · simpa only [registry] using h.once
  · simpa only [registry, hooked] using h.recorded

/-- A thread is about to do something else, with the same lookups under way. -/
theorem set (h : Stacked s) {before : ThreadState} (is : s.threads me = before)
    (frames : state.frames = before.frames) (hooked : state.hooked = before.hooked) :
    Stacked (s.set me state) := by
  subst is
  refine h.congr rfl (fun t => ?_) (fun t => ?_)
  · rw [threads_set]
    split
    · next same => rw [frames, same]
    · rfl
  · rw [threads_set]
    split
    · next same => rw [hooked, same]
    · rfl

/-- Waking threads changes no stack. -/
theorem notifyAll (h : Stacked s) : Stacked s.notifyAll :=
  h.congr rfl (fun _ => by simp) (fun _ => by simp)

section Free

-- at most the thread `me` has lookups under way, and it is the one that moves
variable (h : Stacked s) (free : ¬ s.registry.ownedByOther me)
  (moved : s'.threads = (s.set me state).threads)
include h free

theorem hooked_eq_none (ne : t ≠ me) : (s.threads t).hooked = none := by
  by_contra some
  obtain ⟨n, hooked⟩ := Option.ne_none_iff_exists'.mp some
  exact frames_ne_nil_of_hooked hooked (h.frames_eq_nil free ne)

theorem recorded_of_free (n : String) :
    n ∈ s.registry.log ↔ s.registry.isEnsured n ∨ (s.threads me).hooked = some n := by
  rw [h.recorded]
  refine or_congr_right ⟨?_, fun hooked => ⟨me, hooked⟩⟩
  rintro ⟨t, hooked⟩
  by_cases same : t = me
  · exact same ▸ hooked
  · simp [h.hooked_eq_none free same] at hooked

include moved

theorem frames_of_moved (t : ThreadId) :
    (s'.threads t).frames = if t = me then state.frames else [] := by
  rw [moved, threads_set]
  split
  · rfl
  · next ne => exact h.frames_eq_nil free ne

theorem exists_hooked_of_moved (n : String) :
    (∃ t, (s'.threads t).hooked = some n) ↔ state.hooked = some n := by
  rw [moved]
  constructor
  · rintro ⟨t, hooked⟩
    rw [threads_set] at hooked
    split at hooked
    · exact hooked
    · next ne => simp [h.hooked_eq_none free ne] at hooked
  · intro hooked
    exact ⟨me, by simpa using hooked⟩

end Free

/-- A lookup is taken up. -/
theorem start (h : Stacked s) (asking : s.threads me = ⟨lookups, .asking name⟩)
    (known : s.registry.definition? name = some d)
    (stage : s.registry.stage? name = some .registered) (free : ¬ s.registry.ownedByOther me)
    (registry : s'.registry = s.registry.claim me name)
    (moved : s'.threads = (s.set me ⟨⟨d, name, d.dependencies⟩ :: lookups, .working⟩).threads) :
    Stacked s' := by
  have frames : ∀ t, (s'.threads t).frames =
      if t = me then (name, d) :: (s.threads me).frames else [] := by
    intro t
    rw [h.frames_of_moved free moved, asking]
    rfl
  have unmarked : name ∉ (s.threads me).frames.map Prod.fst := by
    rw [← h.marks, stage]
    simp
  refine ⟨?owner, ?owned, ?marks, ?distinct, ?known, ?once, ?recorded⟩
  case owner =>
    intro t some
    rw [frames] at some ⊢
    split at some
    · next same =>
      subst same
      rw [if_pos rfl, registry, owner_claim]
      cases owned : s.registry.owner with
      | none =>
        have nothing : (s.threads t).frames = [] := by
          by_contra some
          simp [h.owner t some] at owned
        simp [nothing]
      | some o =>
        have mine : o.thread = t := thread_eq_of_free free owned
        have same := h.owner t (mine ▸ h.owned o owned)
        rw [owned] at same
        obtain rfl := Option.some.inj same
        simp
    · exact absurd rfl some
  case owned =>
    intro o owned
    rw [registry] at owned
    rw [frames, if_pos (thread_eq_of_claim free owned)]
    exact List.cons_ne_nil _ _
  case marks =>
    intro n t
    rw [registry, stage?_claim, frames]
    by_cases own : n = name
    · subst own
      by_cases same : t = me
      · simp [stage, same]
      · simp [stage, same, Ne.symm same]
    · rw [if_neg own, h.marks]
      by_cases same : t = me
      · simp [same, own]
      · simp [same, h.frames_eq_nil free same]
  case distinct =>
    intro t
    rw [frames]
    split
    · exact List.nodup_cons.mpr ⟨unmarked, h.distinct me⟩
    · exact List.nodup_nil
  case known =>
    intro t frame mem
    rw [frames] at mem
    rw [registry, definition?_claim]
    split at mem
    · rcases List.mem_cons.mp mem with rfl | mem
      · exact known
      · exact h.known me frame mem
    · cases mem
  case once => simpa [registry] using h.once
  case recorded =>
    intro n
    rw [registry, log_claim, isEnsured_claim stage, h.exists_hooked_of_moved free moved,
      h.recorded_of_free free, asking]
    simp [ThreadState.hooked]

/-- The hook runs for the innermost lookup. -/
theorem hook (h : Stacked s) (working : s.threads me = ⟨lookup :: lookups, .working⟩)
    (registry : s'.registry = s.registry.runHook lookup.definition.typeName)
    (moved : s'.threads = (s.set me ⟨lookup :: lookups, .finishing true⟩).threads) :
    Stacked s' := by
  have frames : ∀ t, (s'.threads t).frames = (s.threads t).frames := by
    intro t
    rw [moved, threads_set]
    split
    · next same =>
      rw [same, working]
      rfl
    · rfl
  have mem : (lookup.name, lookup.definition) ∈ (s.threads me).frames := by
    simp [ThreadState.frames, working]
  have free := h.not_ownedByOther (List.ne_nil_of_mem mem)
  have named : lookup.definition.typeName = lookup.name :=
    typeName_of_definition? (h.known me _ mem)
  have marked : s.registry.stage? lookup.name = some (.ensuring me) :=
    (h.marks _ _).mpr (List.mem_map_of_mem mem)
  have new : lookup.name ∉ s.registry.log := by
    rw [h.recorded_of_free free, isEnsured_iff, marked, working]
    rintro (ensured | hooked)
    · cases ensured
    · cases hooked
  refine ⟨?owner, ?owned, ?marks, ?distinct, ?known, ?once, ?recorded⟩
  case owner => simpa only [registry, frames, owner_runHook] using h.owner
  case owned => simpa only [registry, frames, owner_runHook] using h.owned
  case marks => simpa only [registry, frames, stage?_runHook] using h.marks
  case distinct => simpa only [frames] using h.distinct
  case known => simpa only [registry, frames, definition?_runHook] using h.known
  case once =>
    rw [registry, log_runHook, named, List.nodup_append']
    exact ⟨h.once, List.nodup_singleton _, by simpa using new⟩
  case recorded =>
    intro n
    rw [registry, log_runHook, named, List.mem_append, h.recorded_of_free free, working,
      h.exists_hooked_of_moved free moved]
    simp [ThreadState.hooked, isEnsured_congr (stage?_runHook s.registry _ n), eq_comm (a := n)]

/-- The innermost lookup ends. -/
theorem finish {succeeded : Bool} (h : Stacked s)
    (finishing : s.threads me = ⟨lookup :: lookups, .finishing succeeded⟩)
    (registry : s'.registry = s.registry.finish lookup.name succeeded)
    (moved : s'.threads = (s.set me ⟨lookups, .answered succeeded⟩).threads) :
    Stacked s' := by
  have stack : (s.threads me).frames = (lookup.name, lookup.definition) ::
      (⟨lookups, .answered succeeded⟩ : ThreadState).frames := by
    rw [finishing]
    rfl
  have free := h.not_ownedByOther (by simp [stack] : (s.threads me).frames ≠ [])
  have owner := h.owner me (by simp [stack])
  have distinct := h.distinct me
  have marked : s.registry.stage? lookup.name = Option.some (.ensuring me) :=
    (h.marks _ _).mpr (by simp [stack])
  have frames := h.frames_of_moved free moved
  have known := h.known me
  have marks := fun n => h.marks n me
  rw [stack] at owner distinct known
  simp only [stack] at marks
  rw [List.map_cons, List.nodup_cons] at distinct
  generalize (⟨lookups, .answered succeeded⟩ : ThreadState).frames = rest at *
  refine ⟨?owner, ?owned, ?marks, ?distinct, ?known, ?once, ?recorded⟩
  case owner =>
    intro t some
    rw [frames] at some ⊢
    split at some
    · next same =>
      have positive : 0 < rest.length := List.length_pos_iff.mpr some
      simp [registry, owner_finish, owner, same, positive]
    · exact absurd rfl some
  case owned =>
    intro o owned
    rw [registry, owner_finish, owner, Option.bind_some] at owned
    split at owned
    · next deeper =>
      obtain rfl := Option.some.inj owned
      rw [frames, if_pos rfl]
      exact List.length_pos_iff.mp (by simpa using deeper)
    · cases owned
  case marks =>
    intro n t
    rw [registry, stage?_finish, frames]
    by_cases own : n = lookup.name
    · cases succeeded <;> simp_all
    · rw [if_neg own]
      by_cases same : t = me
      · simp [same, marks, own]
      · simp [same, h.marks, h.frames_eq_nil free same]
  case distinct =>
    intro t
    rw [frames]
    split
    · exact distinct.2
    · exact List.nodup_nil
  case known =>
    intro t frame mem
    rw [frames] at mem
    rw [registry, definition?_finish]
    split at mem
    · exact known frame (List.mem_cons_of_mem _ mem)
    · cases mem
  case once => simpa [registry] using h.once
  case recorded =>
    intro n
    rw [registry, log_finish, h.recorded_of_free free, finishing,
      h.exists_hooked_of_moved free moved, isEnsured_iff, isEnsured_iff, stage?_finish]
    cases succeeded <;> by_cases own : n = lookup.name <;>
      simp [own, marked, ThreadState.hooked, eq_comm]

/-- **Every section keeps registry and threads together.** -/
theorem step (h : Stacked s) (next : Step s me s') : Stacked s' := by
  cases next with
  | call name idle => exact h.set idle rfl rfl
  | inspect lookups name asking =>
    have found := inspects s.registry me name
    generalize s.registry.inspect me name = outcome at found ⊢
    cases found with
    | missing absent => exact h.set asking rfl rfl
    | ready d known stage => exact h.set asking rfl rfl
    | started d known stage free => exact h.start asking known stage (by simp [free]) rfl rfl
    | wait busy => exact h.set asking rfl rfl
  | wakeUp lookups name waiting => exact h.set waiting rfl rfl
  | descend lookup lookups name pending working next => exact h.set working rfl rfl
  | hook lookup lookups working done => exact h.hook working rfl rfl
  | resume lookup lookups answered => exact h.set answered rfl rfl
  | giveUp lookup lookups answered => exact h.set answered rfl rfl
  | finish lookup lookups succeeded finishing =>
    refine notifyAll ?_
    exact h.finish finishing rfl rfl
  | return_ found answered => exact h.set answered rfl rfl

/-- Who ensures a type has lookups under way. -/
theorem frames_ne_nil_of_ensuring (h : Stacked s) {n : String}
    (marked : s.registry.stage? n = some (.ensuring t)) : (s.threads t).frames ≠ [] := by
  intro none
  have mem := (h.marks n t).mp marked
  simp [none] at mem

/-- The owner is as deep in lookups as there are types that are being ensured. -/
theorem depth_eq (h : Stacked s) {o : Owner} (owned : s.registry.owner = some o) :
    o.depth = s.registry.ensuring.length := by
  have mine := h.owned o owned
  have same := h.owner o.thread mine
  rw [owned] at same
  have members : ∀ n, n ∈ s.registry.ensuring ↔ n ∈ (s.threads o.thread).frames.map Prod.fst := by
    intro n
    rw [mem_ensuring]
    constructor
    · rintro ⟨t, marked⟩
      rw [← h.unique (h.frames_ne_nil_of_ensuring marked) mine]
      exact (h.marks n t).mp marked
    · exact fun mem => ⟨_, (h.marks n _).mpr mem⟩
  have perm := (List.perm_ext_iff_of_nodup (nodup_ensuring _) (h.distinct o.thread)).mpr members
  rw [perm.length_eq, List.length_map]
  exact congrArg Owner.depth (Option.some.inj same)

/-- The owner is at work on a type. -/
theorem ensuring_ne_nil (h : Stacked s) {o : Owner} (owned : s.registry.owner = some o) :
    s.registry.ensuring ≠ [] := by
  obtain ⟨frame, mem⟩ := List.exists_mem_of_ne_nil _ (h.owned o owned)
  exact List.ne_nil_of_mem
    (mem_ensuring.mpr ⟨_, (h.marks frame.1 _).mpr (List.mem_map_of_mem mem)⟩)

/-- The owner ensures all types that are being ensured. -/
theorem owner_of_ensuring (h : Stacked s) {n : String}
    (marked : s.registry.stage? n = some (.ensuring t)) :
    ∃ o, s.registry.owner = some o ∧ o.thread = t :=
  ⟨_, h.owner t (h.frames_ne_nil_of_ensuring marked), rfl⟩

end Stacked

/-! ## Waiting -/

namespace Waits

variable {s s' : Shared} {me : ThreadId} {state : ThreadState}

/-- A section that changes the activity of one thread. -/
theorem set (h : Waits s)
    (still : ∀ name, state.activity = .waiting name → s.registry.ownedByOther me) :
    Waits (s.set me state) := by
  intro t name waiting
  rw [threads_set] at waiting
  split at waiting
  · next same => exact same ▸ still name waiting
  · exact h t name waiting

/-- **Every section keeps threads waiting for others.** -/
theorem step (h : Waits s) (stacked : Stacked s) (next : Step s me s') : Waits s' := by
  cases next with
  | call name idle => exact h.set nofun
  | inspect lookups name asking =>
    have found := inspects s.registry me name
    generalize s.registry.inspect me name = outcome at found ⊢
    cases found with
    | missing absent => exact h.set nofun
    | ready d known stage => exact h.set nofun
    | started d known stage free =>
      intro t other waiting
      rw [threads_set] at waiting
      split at waiting
      · cases waiting
      · next ne =>
        have owned := owner_claim s.registry name me
        refine ownedByOther_iff.mpr ⟨_, owned, ?_⟩
        rw [thread_eq_of_claim (by simp [free]) owned]
        exact Ne.symm ne
    | wait busy =>
      refine h.set fun _ _ => ?_
      rcases busy with ⟨thread, other, marked⟩ | ⟨-, other⟩
      · obtain ⟨o, owned, rfl⟩ := stacked.owner_of_ensuring marked
        exact ownedByOther_iff.mpr ⟨o, owned, other⟩
      · exact other
  | wakeUp lookups name waiting => exact h.set nofun
  | descend lookup lookups name pending working next => exact h.set nofun
  | hook lookup lookups working done => exact h.set nofun
  | resume lookup lookups answered => exact h.set nofun
  | giveUp lookup lookups answered => exact h.set nofun
  | finish lookup lookups succeeded finishing =>
    exact fun t name waiting => absurd waiting (activity_wake_ne _ name)
  | return_ found answered => exact h.set nofun

end Waits

/-- A thread with lookups under way goes on unless it waits. -/
theorem exists_step {s : Shared} {me : ThreadId} (busy : (s.threads me).frames ≠ [])
    (awake : ∀ name, (s.threads me).activity ≠ .waiting name) : ∃ s', Step s me s' := by
  obtain ⟨lookup, lookups, activity, state⟩ :
      ∃ lookup lookups activity, s.threads me = ⟨lookup :: lookups, activity⟩ := by
    obtain ⟨lookup, lookups, more⟩ :=
      List.exists_cons_of_ne_nil fun none => busy (List.map_eq_nil_iff.mpr none)
    exact ⟨lookup, lookups, _, by rw [← more]⟩
  cases activity with
  | working =>
    cases pending : lookup.pending with
    | nil => exact ⟨_, .hook lookup lookups state pending⟩
    | cons name rest => exact ⟨_, .descend lookup lookups name rest state pending⟩
  | asking name => exact ⟨_, .inspect _ name state⟩
  | waiting name => exact absurd (congrArg ThreadState.activity state) (awake name)
  | answered found =>
    cases found with
    | true => exact ⟨_, .resume lookup lookups state⟩
    | false => exact ⟨_, .giveUp lookup lookups state⟩
  | finishing succeeded => exact ⟨_, .finish lookup lookups succeeded state⟩

/-! ## Any number of sections -/

/-- Registry and threads belong together, and threads wait for others, before the first section. -/
theorem stacked_start {start : Registry} (coherent : start.Coherent) :
    Stacked ⟨start, fun _ => .idle⟩ where
  owner _ some := absurd rfl some
  owned o owned := by simp [coherent.rest.1] at owned
  marks n t := ⟨fun marked => absurd marked (coherent.rest.2 n t), nofun⟩
  distinct _ := List.nodup_nil
  known _ _ := nofun
  once := coherent.once
  recorded n := by simp [coherent.recorded, ThreadState.hooked, ThreadState.idle]

/-- **Any sections of any threads keep registry and threads together.** -/
theorem stacked_of_reachable {start : Registry} (coherent : start.Coherent) {s : Shared}
    (reachable : Reachable start s) : Stacked s ∧ Waits s := by
  induction reachable with
  | start => exact ⟨stacked_start coherent, fun _ _ => nofun⟩
  | step me _ next ih => exact ⟨ih.1.step next, ih.2.step ih.1 next⟩

/-- What any interleaving keeps to. -/
structure Safe (s : Shared) : Prop where
  /-- All types that are being ensured carry one thread, the owner. -/
  oneThread : ∀ n t, s.registry.stage? n = some (.ensuring t) →
    ∃ o, s.registry.owner = some o ∧ o.thread = t
  depth : ∀ o, s.registry.owner = some o → o.depth = s.registry.ensuring.length
  free : s.registry.owner = none ↔ s.registry.ensuring = []
  /-- The hook has run at most once for each type. -/
  once : s.registry.log.Nodup
  /-- Who waits does so for another thread, which does not wait and can go on. -/
  progress : ∀ t name, (s.threads t).activity = .waiting name →
    ∃ o, s.registry.owner = some o ∧ o.thread ≠ t ∧
      (∀ other, (s.threads o.thread).activity ≠ .waiting other) ∧ ∃ s', Step s o.thread s'

theorem Stacked.safe {s : Shared} (h : Stacked s) (waits : Waits s) : Safe s where
  oneThread _ _ := h.owner_of_ensuring
  depth _ := h.depth_eq
  free := by
    constructor
    · intro none
      refine List.eq_nil_iff_forall_not_mem.mpr fun n mem => ?_
      obtain ⟨t, marked⟩ := mem_ensuring.mp mem
      obtain ⟨o, owned, -⟩ := h.owner_of_ensuring marked
      simp [none] at owned
    · intro nothing
      by_contra some
      obtain ⟨o, owned⟩ := Option.ne_none_iff_exists'.mp some
      exact h.ensuring_ne_nil owned nothing
  once := h.once
  progress t name waiting := by
    obtain ⟨o, owned, other⟩ := ownedByOther_iff.mp (waits t name waiting)
    have busy := h.owned o owned
    have awake : ∀ other, (s.threads o.thread).activity ≠ .waiting other :=
      fun other waiting => h.not_ownedByOther busy (waits _ other waiting)
    exact ⟨o, owned, other, awake, exists_step busy awake⟩

/-- **First use by many threads is safe**, whatever has been put in and looked up before, and in
whichever order the threads go on. -/
theorem safe_of_reachable (operations : List Operation) {s : Shared}
    (reachable : Reachable (run empty operations) s) : Safe s := by
  obtain ⟨stacked, waits⟩ := stacked_of_reachable (coherent_empty.run operations) reachable
  exact stacked.safe waits

/-- A type that nests itself: one thread ensures it, and another has come to wait for it. -/
theorem waiting_thread_safe :
    let start := run empty [.register (.of { name := "A", components := ["A"] } none)]
    ∃ s, Reachable start s ∧ (s.threads 1).activity = .waiting "A" ∧ Safe s := by
  intro start
  have s₀ : Reachable start ⟨start, fun _ => .idle⟩ := .start
  have s₁ := s₀.step 0 (.call "A" rfl)
  have s₂ := s₁.step 0 (.inspect [] "A" rfl)
  have s₃ := s₂.step 1 (.call "A" rfl)
  have s₄ := s₃.step 1 (.inspect [] "A" rfl)
  exact ⟨_, s₄, by decide, safe_of_reachable _ s₄⟩

end Shared

end TemplateCompiler.Registry
