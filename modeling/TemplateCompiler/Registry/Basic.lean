import TemplateCompiler.Component.Definition

/-!
# The registry

The registry holds the definitions of component types by name. The first lookup of a type ensures
it: the types nested in it are looked up before, and a hook runs once for each type that becomes
ensured. Types may nest each other in a circle, so a lookup that meets a type which is being
ensured takes it as it is. When a nested type is not registered the lookup fails and the types on
the way to it go back to where they were; those that were ensured before the failure stay so.

Threads take turns. The one that ensures types owns the registry until its outermost lookup is
done, and others wait. What happens between taking and releasing the registry's lock is one
section: `inspect` begins a lookup and `finish` ends one.

## Main definitions

* `RegistryError` — why a lookup or a registration fails
* `Registry` — definitions, directives, owner and the log of the hook
* `Registry.register?`, `Registry.registerDirective?`
* `Registry.inspect`, `Registry.finish` — the sections of a lookup
* `Registry.get` — a lookup from beginning to end
-/
namespace TemplateCompiler

/-- Why a lookup or a registration fails. -/
inductive RegistryError where
  | notRegistered (typeName : String)
  | duplicate (typeName : String)
  | directiveNotRegistered (name : String)
  | duplicateDirective (name : String)
  deriving DecidableEq, Repr

/-- The wording of an error. -/
def RegistryError.message : RegistryError → String
  | notRegistered name =>
    "no definition registered for component type " ++ name ++ "; was its template compiled?"
  | duplicate name => "component type " ++ name ++ " is already registered"
  | directiveNotRegistered name => "no directive registered under " ++ name
  | duplicateDirective name => "directive " ++ name ++ " is already registered"

/-- A thread, by its number. -/
abbrev ThreadId := Nat

/-- How far a registered type has come. -/
inductive Stage where
  | registered
  /-- The types nested in it are being looked up by a thread. -/
  | ensuring (thread : ThreadId)
  | ensured
  deriving DecidableEq, Repr

/-- A registered type. -/
structure Registry.Entry where
  definition : ComponentDefinition
  stage : Stage
  deriving DecidableEq, Repr

/-- The thread that ensures types, and how many of its lookups are under way. -/
structure Registry.Owner where
  thread : ThreadId
  depth : Nat
  deriving DecidableEq, Repr

/-- Every definition is stored under the name of its type. -/
def Registry.Named (entries : OrderedMap Registry.Entry) : Prop :=
  ∀ name entry, entries.get? name = some entry → entry.definition.typeName = name

/-- An entry under its own name keeps it so. -/
theorem Registry.Named.insert {entries : OrderedMap Registry.Entry} (named : Named entries)
    {name : String} {entry : Registry.Entry} (own : entry.definition.typeName = name) :
    Named (entries.insert name entry) := by
  intro other found eq
  rw [OrderedMap.get?_insert] at eq
  split at eq
  · next same =>
    obtain rfl := Option.some.inj eq
    rw [own, same]
  · exact named other found eq

/-- The definitions of component types and directives. -/
structure Registry where
  entries : OrderedMap Registry.Entry
  directives : OrderedMap DirectiveDefinition
  owner : Option Registry.Owner
  /-- The types for which the hook has run, in order. -/
  log : List String
  named : Registry.Named entries

namespace Registry

/-- The registry that holds nothing. -/
def empty : Registry := ⟨.empty, .empty, none, [], fun _ _ => nofun⟩

instance : Inhabited Registry := ⟨empty⟩
instance : EmptyCollection Registry := ⟨empty⟩

/-- Whether a type is registered. -/
def contains (r : Registry) (name : String) : Bool := r.entries.contains name

/-- How far a type has come. -/
def stage? (r : Registry) (name : String) : Option Stage := (r.entries.get? name).map Entry.stage

/-- Whether a type is ensured. -/
def isEnsured (r : Registry) (name : String) : Bool := r.stage? name == some .ensured

/-- The definition that is registered for a type. -/
def definition? (r : Registry) (name : String) : Option ComponentDefinition :=
  (r.entries.get? name).map Entry.definition

/-- Whether no lookup is under way. -/
def AtRest (r : Registry) : Prop :=
  r.owner = none ∧ ∀ name thread, r.stage? name ≠ some (.ensuring thread)

/-- Register a definition under its type's name. -/
def register? (r : Registry) (d : ComponentDefinition) : Except RegistryError Registry :=
  if r.contains d.typeName then .error (.duplicate d.typeName)
  else .ok { r with
    entries := r.entries.insert d.typeName ⟨d, .registered⟩
    named := r.named.insert rfl }

/-- Register a directive under its name. -/
def registerDirective? (r : Registry) (d : DirectiveDefinition) : Except RegistryError Registry :=
  if r.directives.contains d.name then .error (.duplicateDirective d.name)
  else .ok { r with directives := r.directives.insert d.name d }

/-- Look a directive up. -/
def getDirective (r : Registry) (name : String) : Except RegistryError DirectiveDefinition :=
  match r.directives.get? name with
  | some d => .ok d
  | none => .error (.directiveNotRegistered name)

/-! ## Sections of a lookup -/

/-- Record how far a type has come. -/
def setStage (r : Registry) (name : String) (stage : Stage) : Registry :=
  match found : r.entries.get? name with
  | some entry =>
    { r with
      entries := r.entries.insert name { entry with stage }
      named := r.named.insert (r.named name entry found) }
  | none => r

/-- One more lookup of a thread is under way. A registry that is owned stays with its owner. -/
def enter (r : Registry) (me : ThreadId) : Registry :=
  match r.owner with
  | some o => { r with owner := some { o with depth := o.depth + 1 } }
  | none => { r with owner := some ⟨me, 1⟩ }

/-- One lookup less is under way. -/
def leave (r : Registry) : Registry :=
  match r.owner with
  | some o => { r with owner := if 1 < o.depth then some { o with depth := o.depth - 1 } else none }
  | none => r

/-- Take a type up: the thread `me` ensures it from now on. -/
def claim (r : Registry) (me : ThreadId) (name : String) : Registry :=
  (r.setStage name (.ensuring me)).enter me

/-- What a thread finds when it begins a lookup. -/
inductive Inspection where
  /-- The type is not registered. -/
  | missing
  /-- The definition can be handed out as it is. -/
  | ready (definition : ComponentDefinition)
  /-- The type is now being ensured by the thread. -/
  | started (definition : ComponentDefinition)
  /-- Another thread is at work. -/
  | wait
  deriving DecidableEq, Repr

/-- Whether a thread other than `me` owns the registry. -/
def ownedByOther (r : Registry) (me : ThreadId) : Bool := r.owner.any fun o => o.thread != me

/-- Begin a lookup. -/
def inspect (r : Registry) (me : ThreadId) (name : String) : Inspection × Registry :=
  match r.entries.get? name with
  | none => (.missing, r)
  | some entry =>
    match entry.stage with
    | .ensured => (.ready entry.definition, r)
    | .ensuring thread => if thread = me then (.ready entry.definition, r) else (.wait, r)
    | .registered =>
      if r.ownedByOther me then (.wait, r)
      else (.started entry.definition, r.claim me name)

/-- End a lookup that was started. Where it failed the type goes back to being registered. -/
def finish (r : Registry) (name : String) (succeeded : Bool) : Registry :=
  (r.setStage name (if succeeded then .ensured else .registered)).leave

/-- Run the hook for a type. -/
def runHook (r : Registry) (name : String) : Registry := { r with log := r.log ++ [name] }

/-! ## What the sections change -/

theorem stage?_eq_none_iff {r : Registry} {name : String} :
    r.stage? name = none ↔ r.definition? name = none := by
  simp [stage?, definition?]

theorem contains_iff {r : Registry} {name : String} : r.contains name ↔ r.stage? name ≠ none := by
  simp [contains, OrderedMap.contains, stage?, Option.isSome_iff_ne_none]

theorem isEnsured_iff {r : Registry} {name : String} :
    r.isEnsured name ↔ r.stage? name = some .ensured := by
  simp [isEnsured]

theorem isEnsured_congr {r s : Registry} {name : String} (same : s.stage? name = r.stage? name) :
    s.isEnsured name = r.isEnsured name := by
  rw [isEnsured, isEnsured, same]

/-- A type is found under its own name. -/
theorem typeName_of_definition? {r : Registry} {name : String} {d : ComponentDefinition}
    (known : r.definition? name = some d) : d.typeName = name := by
  obtain ⟨entry, found, rfl⟩ := Option.map_eq_some_iff.mp known
  exact r.named name entry found

theorem get?_setStage (r : Registry) (name other : String) (stage : Stage) :
    (r.setStage name stage).entries.get? other =
      if other = name then (r.entries.get? name).map fun entry => { entry with stage }
      else r.entries.get? other := by
  unfold setStage
  split
  · next found => simp only [OrderedMap.get?_insert, found, Option.map_some]
  · next absent =>
    split
    · next same => rw [same, absent, Option.map_none]
    · rfl

section Views

variable (r : Registry) (name other : String) (stage : Stage) (me : ThreadId) (succeeded : Bool)

theorem stage?_setStage :
    (r.setStage name stage).stage? other =
      if other = name then (r.stage? name).map fun _ => stage else r.stage? other := by
  simp only [stage?, get?_setStage]
  split <;> simp [Function.comp_def]

@[simp] theorem definition?_setStage :
    (r.setStage name stage).definition? other = r.definition? other := by
  simp only [definition?, get?_setStage]
  split
  · next same => simp [same, Function.comp_def]
  · rfl

@[simp] theorem owner_setStage : (r.setStage name stage).owner = r.owner := by
  unfold setStage
  split <;> rfl

@[simp] theorem log_setStage : (r.setStage name stage).log = r.log := by
  unfold setStage
  split <;> rfl

@[simp] theorem directives_setStage : (r.setStage name stage).directives = r.directives := by
  unfold setStage
  split <;> rfl

@[simp] theorem entries_enter : (r.enter me).entries = r.entries := by
  unfold enter
  split <;> rfl

@[simp] theorem log_enter : (r.enter me).log = r.log := by
  unfold enter
  split <;> rfl

@[simp] theorem directives_enter : (r.enter me).directives = r.directives := by
  unfold enter
  split <;> rfl

theorem owner_enter :
    (r.enter me).owner =
      some ((r.owner.map fun o => { o with depth := o.depth + 1 }).getD ⟨me, 1⟩) := by
  cases owner : r.owner <;> simp [enter, owner]

@[simp] theorem entries_leave : r.leave.entries = r.entries := by
  unfold leave
  split <;> rfl

@[simp] theorem log_leave : r.leave.log = r.log := by
  unfold leave
  split <;> rfl

@[simp] theorem directives_leave : r.leave.directives = r.directives := by
  unfold leave
  split <;> rfl

theorem owner_leave :
    r.leave.owner =
      r.owner.bind fun o => if 1 < o.depth then some { o with depth := o.depth - 1 } else none := by
  cases owner : r.owner <;> simp [leave, owner]

@[simp] theorem stage?_runHook : (r.runHook name).stage? other = r.stage? other := rfl

@[simp] theorem definition?_runHook : (r.runHook name).definition? other = r.definition? other :=
  rfl

@[simp] theorem owner_runHook : (r.runHook name).owner = r.owner := rfl

@[simp] theorem log_runHook : (r.runHook name).log = r.log ++ [name] := rfl

@[simp] theorem directives_runHook : (r.runHook name).directives = r.directives := rfl

theorem stage?_claim :
    (r.claim me name).stage? other =
      if other = name then (r.stage? name).map fun _ => .ensuring me else r.stage? other := by
  rw [← stage?_setStage]
  simp [claim, stage?]

@[simp] theorem definition?_claim : (r.claim me name).definition? other = r.definition? other := by
  rw [← definition?_setStage r name other (.ensuring me)]
  simp only [claim, definition?, entries_enter]

@[simp] theorem log_claim : (r.claim me name).log = r.log := by simp [claim]

@[simp] theorem directives_claim : (r.claim me name).directives = r.directives := by simp [claim]

theorem stage?_finish :
    (r.finish name succeeded).stage? other =
      if other = name then (r.stage? name).map fun _ => if succeeded then .ensured else .registered
      else r.stage? other := by
  rw [← stage?_setStage]
  simp [finish, stage?]

@[simp] theorem definition?_finish :
    (r.finish name succeeded).definition? other = r.definition? other := by
  rw [← definition?_setStage r name other (if succeeded then .ensured else .registered)]
  simp only [finish, definition?, entries_leave]

@[simp] theorem log_finish : (r.finish name succeeded).log = r.log := by simp [finish]

@[simp] theorem directives_finish : (r.finish name succeeded).directives = r.directives := by
  simp [finish]

theorem owner_claim :
    (r.claim me name).owner =
      some ((r.owner.map fun o => { o with depth := o.depth + 1 }).getD ⟨me, 1⟩) := by
  rw [claim, owner_enter, owner_setStage]

theorem owner_finish :
    (r.finish name succeeded).owner =
      r.owner.bind fun o => if 1 < o.depth then some { o with depth := o.depth - 1 } else none := by
  rw [finish, owner_leave, owner_setStage]

end Views

/-- A type that is taken up is no more ensured than before. -/
theorem isEnsured_claim {r : Registry} {me : ThreadId} {name : String}
    (stage : r.stage? name = some .registered) (n : String) :
    (r.claim me name).isEnsured n ↔ r.isEnsured n := by
  rw [isEnsured_iff, isEnsured_iff, stage?_claim]
  split
  · next same => simp [same, stage]
  · rfl

theorem ownedByOther_iff {r : Registry} {me : ThreadId} :
    r.ownedByOther me ↔ ∃ o, r.owner = some o ∧ o.thread ≠ me := by
  cases owner : r.owner <;> simp [ownedByOther, owner]

/-- What a thread may find when it begins a lookup, and why. -/
inductive Inspects (r : Registry) (me : ThreadId) (name : String) : Inspection × Registry → Prop
  | missing (absent : r.stage? name = none) : Inspects r me name (.missing, r)
  | ready (d : ComponentDefinition) (known : r.definition? name = some d)
      (stage : r.stage? name = some .ensured ∨ r.stage? name = some (.ensuring me)) :
      Inspects r me name (.ready d, r)
  | started (d : ComponentDefinition) (known : r.definition? name = some d)
      (stage : r.stage? name = some .registered) (free : r.ownedByOther me = false) :
      Inspects r me name (.started d, r.claim me name)
  | wait (busy : (∃ thread, thread ≠ me ∧ r.stage? name = some (.ensuring thread)) ∨
        r.stage? name = some .registered ∧ r.ownedByOther me = true) :
      Inspects r me name (.wait, r)

/-- **Every inspection has one of four outcomes.** -/
theorem inspects (r : Registry) (me : ThreadId) (name : String) :
    Inspects r me name (r.inspect me name) := by
  unfold inspect
  split
  · next absent => exact .missing (by simp [stage?, absent])
  · next entry found =>
    have stage : r.stage? name = some entry.stage := by simp [stage?, found]
    have known : r.definition? name = some entry.definition := by simp [definition?, found]
    split
    · next ensured => exact .ready _ known (.inl (ensured ▸ stage))
    · next thread ensuring =>
      split
      · next own => exact .ready _ known (.inr (own ▸ ensuring ▸ stage))
      · next other => exact .wait (.inl ⟨thread, other, ensuring ▸ stage⟩)
    · next registered =>
      split
      · next busy => exact .wait (.inr ⟨registered ▸ stage, busy⟩)
      · next free =>
        exact .started _ known (registered ▸ stage) (Bool.not_eq_true _ ▸ free)

/-! ## Whole lookups -/

/-- Look up several types one after the other, up to the first failure. -/
def getEach (get : Registry → String → Except RegistryError ComponentDefinition × Registry)
    (r : Registry) : List String → Except RegistryError Unit × Registry
  | [] => (.ok (), r)
  | name :: rest =>
    match get r name with
    | (.ok _, r) => getEach get r rest
    | (.error e, r) => (.error e, r)

/-- A lookup by one thread. Every level of nesting starts with one more type, so the number of types
bounds the fuel that is needed. Nobody else is at work, so there is nothing to wait for. -/
def getWith (me : ThreadId) : (fuel : Nat) → Registry → String →
    Except RegistryError ComponentDefinition × Registry
  | 0, r, name => (.error (.notRegistered name), r)
  | fuel + 1, r, name =>
    match r.inspect me name with
    | (.missing, r) | (.wait, r) => (.error (.notRegistered name), r)
    | (.ready d, r) => (.ok d, r)
    | (.started d, r) =>
      match getEach (getWith me fuel) r d.dependencies with
      | (.ok (), r) => (.ok d, (r.runHook d.typeName).finish name true)
      | (.error e, r) => (.error e, r.finish name false)

/-- The thread of sequential use. -/
def mainThread : ThreadId := 0

/-- Look a type up. -/
def get (r : Registry) (name : String) : Except RegistryError ComponentDefinition × Registry :=
  getWith mainThread (r.entries.size + 1) r name

end Registry

end TemplateCompiler
