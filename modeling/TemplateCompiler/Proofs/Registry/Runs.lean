import Mathlib
import TemplateCompiler.Assembly.Assemble
import TemplateCompiler.Proofs.Registry.Lookup

/-!
# Runs

A run performs operations on a registry one after the other: definitions and directives are put
in, types are looked up, components are assembled. Operations may fail, and the run goes on with
what they leave behind. However it goes, the log of the hook lists the ensured types, each once,
and nothing that was ensured or defined is ever taken back. A type may be logged before a type
that it nests, but only where the two lie on a circle.

## Main definitions

* `Registry.Operation`, `Registry.perform`, `Registry.run` — operations, one of them, any number
* `Registry.Coherent` — what holds between operations
* `Registry.Extends` — nothing is taken back
* `Registry.Chronicled` — what the log says

## Main statements

* `Registry.Coherent.perform`, `Registry.extends_perform` — one operation
* `Registry.coherent_run` — any number of them
* `Registry.chronicled_run` — the log of every run
-/
namespace TemplateCompiler.Registry

open scoped List

/-- What a program may ask of a registry. -/
inductive Operation where
  | register (definition : ComponentDefinition)
  | registerDirective (directive : DirectiveDefinition)
  | get (name : String)
  | assemble (definition : ComponentDefinition) (i : Instance)

/-- The registry after an operation, whether or not it has failed. -/
def perform (r : Registry) : Operation → Registry
  | .register d => r.withDefinition d
  | .registerDirective d =>
    match r.registerDirective? d with
    | .ok after => after
    | .error _ => r
  | .get name => (r.get name).2
  | .assemble d i => (TemplateCompiler.assemble d i r).2

/-- The registry after operations, one after the other. -/
def run (r : Registry) (operations : List Operation) : Registry := operations.foldl perform r

/-! ## Operations as stretches of lookups -/

section Lookups

variable {r : Registry}

/-- A lookup is a stretch of lookups. -/
theorem exists_advance_get (rest : r.AtRest) (name : String) :
    ∃ fresh, Advance r [name] (r.get name).2 fresh := by
  have resolves := (get_spec rest name).2
  generalize r.get name = outcome at resolves
  obtain ⟨answer, after⟩ := outcome
  cases answer with
  | ok d =>
    obtain ⟨-, fresh, completed⟩ := resolves
    exact ⟨fresh, completed.toAdvance⟩
  | error e =>
    obtain ⟨missing, fresh, -, failed, -⟩ := resolves
    exact ⟨fresh, failed.toAdvance⟩

theorem exists_advance_nestedComponents (rest : r.AtRest)
    (bound : OrderedMap ComponentDefinition) (names : List String) :
    ∃ fresh, Advance r names (Assembly.nestedComponents r bound names).2 fresh := by
  induction names generalizing r bound with
  | nil => exact ⟨[], .refl r []⟩
  | cons name others ih =>
    obtain ⟨fresh, adv⟩ := exists_advance_get rest name
    unfold Assembly.nestedComponents
    split
    · next nested mid found =>
      rw [found] at adv
      obtain ⟨later, advLater⟩ := ih (rest.advance adv) (bound.insert (tagName name) nested)
      exact ⟨fresh ++ later, adv.trans advLater⟩
    · next e mid found =>
      rw [found] at adv
      exact ⟨fresh, adv.mono (by simp)⟩

/-- Assembling a component looks up what it nests, and does nothing else to the registry. -/
theorem exists_advance_assemble (rest : r.AtRest) (d : ComponentDefinition) (i : Instance) :
    ∃ fresh, Advance r d.dependencies (TemplateCompiler.assemble d i r).2 fresh := by
  obtain ⟨fresh, adv⟩ := exists_advance_nestedComponents rest .empty d.dependencies
  unfold TemplateCompiler.assemble
  split
  · exact ⟨[], .refl r _⟩
  · split
    · next found => exact ⟨fresh, by rwa [found] at adv⟩
    · next found =>
      rw [found] at adv
      split <;> exact ⟨fresh, adv⟩

end Lookups

/-! ## Nothing is taken back -/

/-- What is known of a registry is still so at a later point. -/
structure Extends (r later : Registry) : Prop where
  log : r.log <+: later.log
  kept : ∀ n, r.isEnsured n → later.isEnsured n
  definitions : ∀ n d, r.definition? n = some d → later.definition? n = some d

namespace Extends

variable {r mid later : Registry}

theorem refl (r : Registry) : Extends r r := ⟨List.prefix_rfl, fun _ => id, fun _ _ => id⟩

theorem trans (first : Extends r mid) (second : Extends mid later) : Extends r later where
  log := first.log.trans second.log
  kept n ensured := second.kept n (first.kept n ensured)
  definitions n d known := second.definitions n d (first.definitions n d known)

theorem of_advance {names fresh : List String} (adv : Advance r names later fresh) :
    Extends r later where
  log := adv.log ▸ List.prefix_append _ _
  kept _ ensured := adv.isEnsured_iff.mpr (.inl ensured)
  definitions n _ known := (adv.definitions n).trans known

end Extends

/-- **No operation takes anything back.** -/
theorem extends_perform {r : Registry} (rest : r.AtRest) (op : Operation) :
    Extends r (r.perform op) := by
  cases op with
  | register d =>
    exact
      { log := by simp [perform]
        kept := fun n => by simp [perform]
        definitions := fun n _ known => definition?_withDefinition_of_some r d n known }
  | registerDirective d =>
    simp only [perform, registerDirective?]
    split_ifs
    · exact .refl r
    · exact ⟨List.prefix_rfl, fun _ => id, fun _ _ => id⟩
  | get name =>
    obtain ⟨fresh, adv⟩ := exists_advance_get rest name
    exact .of_advance adv
  | assemble d i =>
    obtain ⟨fresh, adv⟩ := exists_advance_assemble rest d i
    exact .of_advance adv

/-! ## Between operations -/

/-- What holds between operations. -/
structure Coherent (r : Registry) : Prop where
  rest : r.AtRest
  once : r.log.Nodup
  recorded : ∀ n, n ∈ r.log ↔ r.isEnsured n
  /-- A nested type is logged before the type that nests it, unless one comes back from it. -/
  order : ∀ x, r.isEnsured x → ∀ y, r.Nests x y → [y, x] <+ r.log ∨ r.Reaches y x

theorem coherent_empty : Coherent empty where
  rest := ⟨rfl, fun _ _ => nofun⟩
  once := List.nodup_nil
  recorded _ := ⟨nofun, nofun⟩
  order _ := nofun

namespace Coherent

variable {r after : Registry}

/-- What is nested in an ensured type does not change when a definition is put in. -/
theorem nests_of_nests_withDefinition {d : ComponentDefinition} {x y : String}
    (ensured : r.isEnsured x) (nests : (r.withDefinition d).Nests x y) : r.Nests x y := by
  obtain ⟨d', known, mem⟩ := nests
  rw [definition?_withDefinition, if_neg] at known
  · exact ⟨d', known, mem⟩
  · rintro ⟨-, absent⟩
    rw [isEnsured_iff, absent] at ensured
    cases ensured

theorem withDefinition (h : Coherent r) (d : ComponentDefinition) :
    Coherent (r.withDefinition d) where
  rest := h.rest.withDefinition d
  once := by simpa using h.once
  recorded n := by simpa using h.recorded n
  order x ensured y nests := by
    rw [isEnsured_withDefinition] at ensured
    rw [log_withDefinition]
    refine (h.order x ensured y (nests_of_nests_withDefinition ensured nests)).imp_right ?_
    exact Reaches.mono fun n _ => definition?_withDefinition_of_some r d n

theorem advance (h : Coherent r) {names fresh : List String}
    (adv : Advance r names after fresh) : Coherent after where
  rest := h.rest.advance adv
  once := by
    rw [adv.log, List.nodup_append']
    refine ⟨h.once, adv.nodup, ?_⟩
    intro n old new
    exact adv.not_isEnsured new ((h.recorded n).mp old)
  recorded n := by rw [adv.log, List.mem_append, adv.isEnsured_iff, h.recorded]
  order x ensured y nests := by
    rw [nests_congr adv.definitions] at nests
    rw [reaches_congr adv.definitions, adv.log]
    rcases adv.isEnsured_iff.mp ensured with old | new
    · exact (h.order x old y nests).imp_left fun before =>
        before.trans (List.sublist_append_left _ _)
    · rcases adv.order x new y nests with known | before | back
      · have before : [y] ++ [x] <+ r.log ++ fresh :=
          (List.singleton_sublist.mpr ((h.recorded y).mpr known)).append
            (List.singleton_sublist.mpr new)
        exact .inl before
      · exact .inl (before.trans (List.sublist_append_right _ _))
      · exact .inr back

/-- **Every operation keeps a registry coherent.** -/
theorem perform (h : Coherent r) (op : Operation) : Coherent (r.perform op) := by
  cases op with
  | register d => exact h.withDefinition d
  | registerDirective d =>
    simp only [Registry.perform, registerDirective?]
    split_ifs <;> exact ⟨h.rest, h.once, h.recorded, h.order⟩
  | get name =>
    obtain ⟨fresh, adv⟩ := exists_advance_get h.rest name
    exact h.advance adv
  | assemble d i =>
    obtain ⟨fresh, adv⟩ := exists_advance_assemble h.rest d i
    exact h.advance adv

theorem run (h : Coherent r) (operations : List Operation) : Coherent (r.run operations) := by
  induction operations generalizing r with
  | nil => exact h
  | cons op rest ih => exact ih (h.perform op)

end Coherent

/-- **No run takes anything back.** -/
theorem extends_run {r : Registry} (h : Coherent r) (operations : List Operation) :
    Extends r (r.run operations) := by
  induction operations generalizing r with
  | nil => exact .refl r
  | cons op rest ih => exact (extends_perform h.rest op).trans (ih (h.perform op))

/-! ## The log -/

/-- In a list without repetitions, what comes before something comes before all behind it. -/
theorem sublist_pair_trans {α : Type} {a b c : α} {l : List α} (nodup : l.Nodup)
    (first : [a, b] <+ l) (second : [b, c] <+ l) : [a, c] <+ l := by
  induction l with
  | nil => cases first
  | cons head tail ih =>
    have distinct := List.nodup_cons.mp nodup
    have behind : b ∈ tail → [b, c] <+ tail := by
      intro mem
      cases second with
      | cons _ rest => exact rest
      | cons_cons _ rest => exact absurd mem distinct.1
    cases first with
    | cons _ rest =>
      exact (ih distinct.2 rest (behind (rest.subset (by simp)))).cons head
    | cons_cons _ rest =>
      have mem := List.singleton_sublist.mp rest
      have behindAll : c ∈ tail := (behind mem).subset (by simp)
      exact (List.singleton_sublist.mpr behindAll).cons_cons a

/-- What the log says at one point of a run, and what is still so at a later one. -/
structure Chronicled (r later : Registry) : Prop extends Extends r later where
  once : r.log.Nodup
  recorded : ∀ n, n ∈ r.log ↔ r.isEnsured n
  /-- Without circles, all that an ensured type nests is ensured and logged before it. -/
  nestedFirst : r.Acyclic → ∀ x y, r.isEnsured x → Relation.TransGen r.Nests x y →
    r.isEnsured y ∧ [y, x] <+ r.log

/-- Without circles, all that an ensured type nests is logged before it. -/
theorem Coherent.nestedFirst {r : Registry} (h : Coherent r) (acyclic : r.Acyclic)
    {x y : String} (ensured : r.isEnsured x) (path : Relation.TransGen r.Nests x y) :
    r.isEnsured y ∧ [y, x] <+ r.log := by
  have step : ∀ a b, r.isEnsured a → r.Nests a b → r.isEnsured b ∧ [b, a] <+ r.log := by
    intro a b ensured nests
    rcases h.order a ensured b nests with before | back
    · exact ⟨(h.recorded b).mp (before.subset List.mem_cons_self), before⟩
    · exact absurd (onCycle_of_nests nests back) (acyclic a)
  induction path with
  | single nests => exact step _ _ ensured nests
  | tail _ nests ih =>
    obtain ⟨known, before⟩ := step _ _ ih.1 nests
    exact ⟨known, sublist_pair_trans h.once before ih.2⟩

/-- **At every point of every run the log lists the ensured types, each once**, and where there are
no circles nested types come first. -/
theorem chronicled_run (operations more : List Operation) :
    Chronicled (run empty operations) (run empty (operations ++ more)) := by
  have coherent := coherent_empty.run operations
  have split : run empty (operations ++ more) = (run empty operations).run more :=
    List.foldl_append
  rw [split]
  exact
    { extends_run coherent more with
      once := coherent.once
      recorded := coherent.recorded
      nestedFirst := fun acyclic _ _ ensured path => coherent.nestedFirst acyclic ensured path }

/-- A lookup that fails, a late definition and another lookup: there are no circles, and the nested
type is logged first. -/
theorem late_definition_chronicled :
    let r := run empty [.register (.of { name := "A", components := ["B"] } none), .get "A",
      .register (.of { name := "B" } none), .get "A"]
    r.Acyclic ∧ r.log = ["B", "A"] ∧ r.isEnsured "B" ∧ Chronicled r (r.perform (.get "B")) := by
  refine ⟨?_, by decide, by decide, chronicled_run _ [.get "B"]⟩
  exact acyclic_of_rank (fun n => if n = "A" then 1 else 0) (by decide)

end TemplateCompiler.Registry
