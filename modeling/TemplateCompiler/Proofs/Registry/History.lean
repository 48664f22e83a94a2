import Mathlib
import TemplateCompiler.Proofs.Registry.Runs

/-!
# Lookups after other lookups

A lookup that fails leaves types ensured that were done before it came to the missing one. Off
circles this changes nothing for later lookups, for all that such a type nests is ensured too. On
a circle it does: a type may be done while a type around it, which it nests in turn, is given up,
and from then on it is handed out although not all that it nests can be found. No later answer
depends on earlier lookups in any other way.

## Main definitions

* `Registry.afterLookups` — the registry after lookups of given names
* `Registry.Finds` — a lookup succeeds
* `Registry.LeftByFailure` — ensured by a lookup that failed

## Main statements

* `Registry.finds_iff_complete` — when a lookup succeeds
* `Registry.onCycle_of_exit` — where a lookup ensures a type and not what it nests
* `Registry.exists_left` — why an ensured type may nest what cannot be found
* `Registry.finds_after_lookups` — how far answers depend on earlier lookups
* `Registry.earlier_failure_decides` — that they do
-/
namespace TemplateCompiler.Registry

open scoped List

/-- The registry after lookups of given names. -/
def afterLookups (r : Registry) (names : List String) : Registry := r.run (names.map .get)

/-- A lookup succeeds. -/
def Finds (r : Registry) (name : String) : Prop := ∃ d, (r.get name).1 = .ok d

/-- One of the lookups failed and left the type ensured, which it had not been before. -/
def LeftByFailure (r : Registry) (history : List String) (x : String) : Prop :=
  ∃ earlier name, earlier ++ [name] <+: history ∧
    ¬ (r.afterLookups earlier).Finds name ∧
    ¬ (r.afterLookups earlier).isEnsured x ∧ (r.afterLookups (earlier ++ [name])).isEnsured x

theorem afterLookups_concat (r : Registry) (names : List String) (name : String) :
    r.afterLookups (names ++ [name]) = ((r.afterLookups names).get name).2 := by
  simp [afterLookups, run, perform, List.foldl_append]

variable {r s : Registry} {name : String}

/-- **A lookup succeeds if and only if all that it comes to is registered.** -/
theorem finds_iff_complete (rest : s.AtRest) : s.Finds name ↔ s.Complete name := by
  have resolves := (get_spec rest name).2
  unfold Finds
  generalize s.get name = outcome at resolves
  obtain ⟨answer, after⟩ := outcome
  cases answer with
  | ok d =>
    obtain ⟨-, fresh, completed⟩ := resolves
    exact iff_of_true ⟨d, rfl⟩ (completed.complete rest)
  | error e =>
    obtain ⟨missing, fresh, -, failed, -⟩ := resolves
    exact iff_of_false nofun failed.not_complete

/-- **A type is ensured before what it nests only on a circle, and only by a lookup that fails.** -/
theorem onCycle_of_exit (rest : s.AtRest) {u v : String} (new : (s.get name).2.isEnsured u)
    (old : ¬ s.isEnsured u) (nests : s.Nests u v) (out : ¬ (s.get name).2.isEnsured v) :
    ¬ s.Finds name ∧ s.OnCycle u := by
  have resolves := (get_spec rest name).2
  unfold Finds
  generalize s.get name = outcome at resolves new out
  obtain ⟨answer, after⟩ := outcome
  cases answer with
  | ok d =>
    obtain ⟨-, fresh, completed⟩ := resolves
    have mem : u ∈ fresh := (completed.isEnsured_iff.mp new).resolve_left old
    have still := rest.advance completed.toAdvance
    exact absurd (still.isEnsured_of_visited (completed.closed u mem v nests)) out
  | error e =>
    obtain ⟨missing, fresh, -, failed, -⟩ := resolves
    have mem : u ∈ fresh := (failed.isEnsured_iff.mp new).resolve_left old
    refine ⟨nofun, ?_⟩
    rcases failed.order u mem v nests with known | before | back
    · exact absurd (failed.isEnsured_iff.mpr (.inl known)) out
    · exact absurd (failed.isEnsured_iff.mpr (.inr (before.subset List.mem_cons_self))) out
    · exact onCycle_of_nests nests back

section Fixed

variable (coherent : r.Coherent)
include coherent

theorem atRest_afterLookups (names : List String) : (r.afterLookups names).AtRest :=
  (coherent.run _).rest

/-- Lookups change no definition. -/
theorem definition?_afterLookups (names : List String) (n : String) :
    (r.afterLookups names).definition? n = r.definition? n := by
  induction names using List.reverseRecOn with
  | nil => rfl
  | append_singleton names name ih =>
    obtain ⟨fresh, adv⟩ := exists_advance_get (atRest_afterLookups coherent names) name
    rw [afterLookups_concat, adv.definitions, ih]

theorem contains_afterLookups (names : List String) (n : String) :
    (r.afterLookups names).contains n ↔ r.contains n := by
  simp only [contains_iff, ne_eq, stage?_eq_none_iff, definition?_afterLookups coherent]

/-- **An ensured type from which one comes to a type that is not registered leads to a circle on
which an earlier lookup has failed.** -/
theorem exists_left (untouched : ∀ n, ¬ r.isEnsured n) (history : List String) {x m : String}
    (ensured : (r.afterLookups history).isEnsured x) (reaches : r.Reaches x m)
    (absent : ¬ r.contains m) :
    ∃ y, r.Reaches x y ∧ r.OnCycle y ∧ r.LeftByFailure history y := by
  induction history using List.reverseRecOn generalizing x with
  | nil => exact absurd ensured (untouched x)
  | append_singleton history name ih =>
    have rest := atRest_afterLookups coherent history
    have same := definition?_afterLookups coherent history
    have longer : ∀ y, r.LeftByFailure history y → r.LeftByFailure (history ++ [name]) y := by
      rintro y ⟨earlier, failing, part, left⟩
      exact ⟨earlier, failing, part.trans (List.prefix_append _ _), left⟩
    have notEnsured : ¬ (r.afterLookups (history ++ [name])).isEnsured m := by
      intro now
      refine absent ((contains_afterLookups coherent (history ++ [name]) m).mp ?_)
      rw [contains_iff, isEnsured_iff.mp now]
      simp
    -- on the way to the missing type one leaves the ensured types somewhere
    obtain ⟨u, v, toU, now, nests, out, fromV⟩ :=
      exists_exit (P := fun n => (r.afterLookups (history ++ [name])).isEnsured n) reaches ensured
        notEnsured
    by_cases old : (r.afterLookups history).isEnsured u
    · obtain ⟨y, toY, cycle, left⟩ := ih old (.head nests fromV)
      exact ⟨y, toU.trans toY, cycle, longer y left⟩
    · have found := now
      rw [afterLookups_concat] at found out
      obtain ⟨fails, cycle⟩ := onCycle_of_exit rest found old ((nests_congr same).mpr nests) out
      exact ⟨u, toU, cycle.mono fun n _ known => same n ▸ known, history, name, List.prefix_rfl,
        fails, old, now⟩

/-- A lookup that succeeds although one comes to a type that is not registered meets a circle on
which an earlier lookup has failed. -/
theorem exists_left_of_finds (untouched : ∀ n, ¬ r.isEnsured n) {history : List String}
    {m : String} (finds : (r.afterLookups history).Finds name) (reaches : r.Reaches name m)
    (absent : ¬ r.contains m) :
    ∃ y, r.Reaches name y ∧ r.OnCycle y ∧ r.LeftByFailure history y := by
  have same := definition?_afterLookups coherent history
  have complete := (finds_iff_complete (atRest_afterLookups coherent history)).mp finds
  have unneeded : ¬ (r.afterLookups history).Needs name m := by
    intro needs
    exact absent ((contains_afterLookups coherent history m).mp (complete m needs))
  obtain ⟨u, v, toU, needs, nests, stops, fromV⟩ := exists_exit reaches .refl unneeded
  have ensured : (r.afterLookups history).isEnsured u := by
    by_contra open_
    exact stops (needs.tail ⟨(nests_congr same).mpr nests, open_⟩)
  obtain ⟨y, toY, left⟩ :=
    exists_left coherent untouched history ensured (.head nests fromV) absent
  exact ⟨y, toU.trans toY, left⟩

end Fixed

/-! ## Fixed definitions -/

theorem coherent_ofDefinitions (definitions : List ComponentDefinition) :
    (ofDefinitions definitions).Coherent :=
  ofDefinitions_induction coherent_empty (fun _ d h => h.withDefinition d) definitions

/-- Types are not ensured by being put in. -/
theorem not_isEnsured_ofDefinitions (definitions : List ComponentDefinition) (n : String) :
    ¬ (ofDefinitions definitions).isEnsured n :=
  ofDefinitions_induction (P := fun r => ¬ r.isEnsured n) nofun (fun r d h => by simpa using h)
    definitions

/-- **How far answers depend on earlier lookups.** Where all that a type nests is registered, every
lookup of it succeeds. Where something is missing every lookup of it fails, unless one comes from
the type to a circle on which an earlier lookup has failed. -/
theorem finds_after_lookups (definitions : List ComponentDefinition) (history : List String)
    (name : String) :
    let r := ofDefinitions definitions
    ((∀ n, r.Reaches name n → r.contains n) → (r.afterLookups history).Finds name) ∧
      ((∀ x, r.Reaches name x → r.OnCycle x → ¬ r.LeftByFailure history x) →
        ((r.afterLookups history).Finds name ↔ ∀ n, r.Reaches name n → r.contains n)) := by
  intro r
  have coherent := coherent_ofDefinitions definitions
  have same := definition?_afterLookups coherent history
  have finds : (∀ n, r.Reaches name n → r.contains n) → (r.afterLookups history).Finds name := by
    intro all
    refine (finds_iff_complete (atRest_afterLookups coherent history)).mpr fun n needs => ?_
    refine (contains_afterLookups coherent history n).mpr (all n ?_)
    exact (reaches_congr same).mp needs.reaches
  refine ⟨finds, fun clean => ⟨fun found n reaches => ?_, finds⟩⟩
  by_contra absent
  obtain ⟨x, toX, cycle, left⟩ :=
    exists_left_of_finds coherent (not_isEnsured_ofDefinitions definitions) found reaches absent
  exact clean x toX cycle left

/-- Off circles failures change nothing: a chain that ends in a type which is not registered. -/
theorem chain_after_failures :
    let r := ofDefinitions [.of { name := "A", components := ["B"] } none,
      .of { name := "B", components := ["C"] } none]
    (∀ x, r.Reaches "A" x → r.OnCycle x → ¬ r.LeftByFailure ["B", "A"] x) ∧
      ((r.afterLookups ["B", "A"]).Finds "A" ↔ ∀ n, r.Reaches "A" n → r.contains n) := by
  intro r
  have acyclic : r.Acyclic :=
    acyclic_of_rank (fun n => if n = "A" then 2 else if n = "B" then 1 else 0) (by decide)
  have clean : ∀ x, r.Reaches "A" x → r.OnCycle x → ¬ r.LeftByFailure ["B", "A"] x :=
    fun x _ cycle => absurd cycle (acyclic x)
  exact ⟨clean, (finds_after_lookups _ ["B", "A"] "A").2 clean⟩

/-- **An earlier failure may decide the answer.** `A` and `B` nest each other, and `A` nests a type
that is not registered. The first lookup of `B` fails, but not the one after a lookup of `A`. -/
theorem earlier_failure_decides :
    let r := ofDefinitions [.of { name := "A", components := ["B", "C"] } none,
      .of { name := "B", components := ["A"] } none]
    r.Reaches "B" "C" ∧ ¬ r.contains "C" ∧
      ¬ (r.afterLookups []).Finds "B" ∧ (r.afterLookups ["A"]).Finds "B" := by
  refine ⟨?_, by decide, ?_, ⟨_, rfl⟩⟩
  · exact .head ⟨_, rfl, List.mem_cons_self⟩ (.single ⟨_, rfl, by decide⟩)
  · rintro ⟨d, found⟩
    cases found

end TemplateCompiler.Registry
