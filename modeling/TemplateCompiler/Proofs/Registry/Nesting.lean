import Mathlib
import TemplateCompiler.Registry.Basic

/-!
# Nested types

The definitions in a registry say which types nest which others. The graph that they make is
arbitrary: types may nest each other in a circle or nest themselves, and a type that is nested
need not be registered. Only registered types have nested types, so every type on a circle is
registered.

## Main definitions

* `Registry.Nests`, `Registry.Reaches` — one step along the graph, any number of steps
* `Registry.Needs` — what a lookup comes to: no step leaves a type that is ensured
* `Registry.OnCycle`, `Registry.Acyclic` — circles
* `Registry.ofDefinitions` — the registry that holds given definitions

## Main statements

* `Registry.exists_exit` — a path that leaves a set of types has a step that does
* `Registry.acyclic_of_rank` — a graph whose steps go down has no circles
-/
namespace TemplateCompiler.Registry

/-- The type `x` is registered and nests `y`. -/
def Nests (r : Registry) (x y : String) : Prop :=
  ∃ d, r.definition? x = some d ∧ y ∈ d.dependencies

/-- One comes from `x` to `y` by going to nested types. -/
def Reaches (r : Registry) : String → String → Prop := Relation.ReflTransGen r.Nests

/-- A step from a type that is not yet ensured to one that it nests. -/
def Opens (r : Registry) (x y : String) : Prop := r.Nests x y ∧ ¬ r.isEnsured x

/-- A lookup of `x` comes to `y` unless it fails before. -/
def Needs (r : Registry) : String → String → Prop := Relation.ReflTransGen r.Opens

/-- The type nests itself, possibly through others. -/
def OnCycle (r : Registry) (x : String) : Prop := Relation.TransGen r.Nests x x

/-- No type nests itself, not even through others. -/
def Acyclic (r : Registry) : Prop := ∀ x, ¬ r.OnCycle x

variable {r s : Registry} {x y m : String}

/-- What is known of nested types stays known with more definitions. -/
theorem Nests.mono (kept : ∀ n d, r.definition? n = some d → s.definition? n = some d)
    (nests : r.Nests x y) : s.Nests x y := by
  obtain ⟨d, known, mem⟩ := nests
  exact ⟨d, kept x d known, mem⟩

theorem Reaches.mono (kept : ∀ n d, r.definition? n = some d → s.definition? n = some d)
    (reaches : r.Reaches x y) : s.Reaches x y :=
  Relation.ReflTransGen.mono (fun _ _ => Nests.mono kept) _ _ reaches

/-- More definitions break no circle. -/
theorem OnCycle.mono (kept : ∀ n d, r.definition? n = some d → s.definition? n = some d)
    (cycle : r.OnCycle x) : s.OnCycle x :=
  Relation.TransGen.mono (fun _ _ => Nests.mono kept) _ _ cycle

theorem nests_congr (same : ∀ n, s.definition? n = r.definition? n) :
    s.Nests x y ↔ r.Nests x y := by
  simp only [Nests, same]

theorem reaches_congr (same : ∀ n, s.definition? n = r.definition? n) :
    s.Reaches x y ↔ r.Reaches x y :=
  ⟨Reaches.mono fun n _ known => same n ▸ known, Reaches.mono fun n _ known => same n ▸ known⟩

theorem Reaches.of_nests (nests : r.Nests x y) : r.Reaches x y :=
  Relation.ReflTransGen.single nests

/-- A step and a way back make a circle. -/
theorem onCycle_of_nests (nests : r.Nests x y) (back : r.Reaches y x) : r.OnCycle x :=
  Relation.TransGen.head' nests back

/-- Where more types are ensured, lookups come to fewer types. -/
theorem Needs.anti (same : ∀ n, s.definition? n = r.definition? n)
    (ensured : ∀ n, r.isEnsured n → s.isEnsured n) (needs : s.Needs x y) : r.Needs x y := by
  refine Relation.ReflTransGen.mono ?_ _ _ needs
  intro a b opens
  exact ⟨(nests_congr same).mp opens.1, fun h => opens.2 (ensured a h)⟩

theorem Needs.reaches (needs : r.Needs x y) : r.Reaches x y :=
  Relation.ReflTransGen.mono (fun _ _ opens => opens.1) _ _ needs

/-- A lookup of an ensured type comes to nothing else. -/
theorem eq_of_needs_of_isEnsured (needs : r.Needs x y) (ensured : r.isEnsured x) : y = x := by
  rcases Relation.ReflTransGen.cases_head needs with same | ⟨z, opens, -⟩
  · exact same.symm
  · exact absurd ensured opens.2

/-- **A path that leaves a set of types has a step that does.** -/
theorem exists_exit {P : String → Prop} (reaches : r.Reaches x m) (inside : P x)
    (outside : ¬ P m) :
    ∃ u v, r.Reaches x u ∧ P u ∧ r.Nests u v ∧ ¬ P v ∧ r.Reaches v m := by
  induction reaches using Relation.ReflTransGen.head_induction_on with
  | refl => exact absurd inside outside
  | @head a b nests rest ih =>
    by_cases stay : P b
    · obtain ⟨u, v, reaches, found⟩ := ih stay
      exact ⟨u, v, .head nests reaches, found⟩
    · exact ⟨a, b, .refl, inside, nests, stay, rest⟩

/-- **A graph whose steps go down has no circles.** -/
theorem acyclic_of_rank (rank : String → Nat)
    (down : ∀ entry ∈ r.entries.entries, ∀ y ∈ entry.2.definition.dependencies,
      rank y < rank entry.1) : r.Acyclic := by
  have step : ∀ x y, r.Nests x y → rank y < rank x := by
    rintro x y ⟨d, known, mem⟩
    obtain ⟨entry, found, rfl⟩ := Option.map_eq_some_iff.mp known
    exact down (x, entry) (mem_of_lookupEntry found) y mem
  have lower : ∀ x y, Relation.TransGen r.Nests x y → rank y < rank x := by
    intro x y path
    induction path with
    | single nests => exact step _ _ nests
    | tail _ nests ih => exact (step _ _ nests).trans ih
  exact fun x cycle => lt_irrefl _ (lower x x cycle)

/-! ## Registries of definitions -/

/-- The registry after a definition was put in. Where its type is registered nothing changes. -/
def withDefinition (r : Registry) (d : ComponentDefinition) : Registry :=
  match r.register? d with
  | .ok after => after
  | .error _ => r

/-- The registry that holds definitions, the first one for each type. -/
def ofDefinitions (definitions : List ComponentDefinition) : Registry :=
  definitions.foldl withDefinition empty

section WithDefinition

variable (r : Registry) (d : ComponentDefinition) (n : String)

theorem get?_withDefinition :
    (r.withDefinition d).entries.get? n =
      if n = d.typeName ∧ r.stage? n = none then some ⟨d, .registered⟩ else r.entries.get? n := by
  have absent : r.entries.get? d.typeName = none ↔ r.stage? d.typeName = none := by simp [stage?]
  unfold withDefinition register?
  by_cases registered : r.contains d.typeName
  · rw [if_pos registered]
    rw [contains_iff] at registered
    rw [if_neg]
    rintro ⟨rfl, absent⟩
    exact registered absent
  · rw [if_neg registered]
    rw [contains_iff, not_not] at registered
    rw [OrderedMap.get?_insert]
    by_cases own : n = d.typeName
    · rw [if_pos own, if_pos ⟨own, own ▸ registered⟩]
    · rw [if_neg own, if_neg fun new => own new.1]

theorem stage?_withDefinition :
    (r.withDefinition d).stage? n =
      if n = d.typeName ∧ r.stage? n = none then some .registered else r.stage? n := by
  rw [stage?, get?_withDefinition]
  split <;> rfl

theorem definition?_withDefinition :
    (r.withDefinition d).definition? n =
      if n = d.typeName ∧ r.stage? n = none then some d else r.definition? n := by
  rw [definition?, get?_withDefinition]
  split <;> rfl

@[simp] theorem owner_withDefinition : (r.withDefinition d).owner = r.owner := by
  unfold withDefinition register?
  split_ifs <;> rfl

@[simp] theorem log_withDefinition : (r.withDefinition d).log = r.log := by
  unfold withDefinition register?
  split_ifs <;> rfl

/-- A type that is put in is not ensured by that. -/
@[simp] theorem isEnsured_withDefinition : (r.withDefinition d).isEnsured n = r.isEnsured n := by
  rw [isEnsured, isEnsured, stage?_withDefinition]
  split
  · next new => simp [new.2]
  · rfl

/-- Definitions that are there stay. -/
theorem definition?_withDefinition_of_some {known : ComponentDefinition}
    (old : r.definition? n = some known) : (r.withDefinition d).definition? n = some known := by
  rw [definition?_withDefinition, if_neg, old]
  rintro ⟨-, absent⟩
  rw [stage?_eq_none_iff, old] at absent
  cases absent

end WithDefinition

theorem AtRest.withDefinition {r : Registry} (rest : r.AtRest) (d : ComponentDefinition) :
    (r.withDefinition d).AtRest := by
  refine ⟨by rw [owner_withDefinition, rest.1], ?_⟩
  intro n thread
  rw [stage?_withDefinition]
  split
  · simp
  · exact rest.2 n thread

/-- What holds without definitions and is kept by putting one in holds of any definitions. -/
theorem ofDefinitions_induction {P : Registry → Prop} (none : P empty)
    (more : ∀ r d, P r → P (r.withDefinition d)) (definitions : List ComponentDefinition) :
    P (ofDefinitions definitions) := by
  unfold ofDefinitions
  generalize empty = start at none ⊢
  induction definitions generalizing start with
  | nil => exact none
  | cons d rest ih => exact ih _ (more start d none)

theorem atRest_ofDefinitions (definitions : List ComponentDefinition) :
    (ofDefinitions definitions).AtRest :=
  ofDefinitions_induction ⟨rfl, fun _ _ => nofun⟩ (fun _ d rest => rest.withDefinition d)
    definitions

end TemplateCompiler.Registry
