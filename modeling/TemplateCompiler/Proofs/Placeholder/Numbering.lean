import Mathlib.Order.Bounds.Defs
import TemplateCompiler.Proofs.Placeholder

/-!
# Numbering ends at the first gap

Names are numbered from zero on and tried one after the other until one is absent. Nothing bounds
the loop that does so but the names that are present: numbers make distinct names, so that finitely
many of them cannot hold the names of all numbers. `sequentialIds` tries no more names than there
are present ones and finds the same as the loop.

## Main definitions

* `Placeholder.numbered` — the names of the numbers below a bound
* `Placeholder.Tries` — a run of the loop, with the number of its tries

## Main statements

* `Placeholder.tries_numbered` — a run from any number on ends at the first gap
* `Placeholder.Tries.unique` — the loop has one run only
* `Placeholder.sequentialIds_ends_at_gap` — what is found, and after how many tries
-/
namespace TemplateCompiler.Placeholder

variable {lead : String} {present : List String}

/-- The names with the numbers below `count`. -/
def numbered (lead : String) (count : Nat) : List String :=
  (List.range count).map fun index => lead ++ toString index

theorem length_numbered (lead : String) (count : Nat) : (numbered lead count).length = count := by
  rw [numbered, List.length_map, List.length_range]

theorem numbered_zero (lead : String) : numbered lead 0 = [] := rfl

theorem numbered_succ (lead : String) (count : Nat) :
    numbered lead (count + 1) = numbered lead count ++ [lead ++ toString count] := by
  rw [numbered, List.range_succ, List.map_append]
  rfl

/-- `Tries lead present found count ids`: with the names `found` at hand, the loop tries the name
whose number is how many there are. It ends if that is absent, and otherwise goes on with one more
name at hand. It ends with `ids` after `count` tries. -/
inductive Tries (lead : String) (present : List String) :
    List String → Nat → List String → Prop where
  | gap {found : List String} :
    lead ++ toString found.length ∉ present → Tries lead present found 1 found
  | next {found ids : List String} {count : Nat} :
    lead ++ toString found.length ∈ present →
      Tries lead present (found ++ [lead ++ toString found.length]) count ids →
        Tries lead present found (count + 1) ids

/-- The loop has one run only. -/
theorem Tries.unique {found ids others : List String} {count other : Nat}
    (h : Tries lead present found count ids) (h' : Tries lead present found other others) :
    count = other ∧ ids = others := by
  induction h generalizing other with
  | gap missing =>
    cases h' with
    | gap _ => exact ⟨rfl, rfl⟩
    | next known _ => exact absurd known missing
  | next known _ ih =>
    cases h' with
    | gap missing => exact absurd known missing
    | next _ later =>
      obtain ⟨rfl, same⟩ := ih later
      exact ⟨rfl, same⟩

/-- **A run of the loop ends at the first gap**, with one try for each name on the way and one that
fails. -/
theorem tries_numbered {start more : Nat}
    (known : ∀ index < start + more, lead ++ toString index ∈ present)
    (gap : lead ++ toString (start + more) ∉ present) :
    Tries lead present (numbered lead start) (more + 1) (numbered lead (start + more)) := by
  induction more generalizing start with
  | zero =>
    refine .gap ?_
    rwa [length_numbered]
  | succ more ih =>
    have here := known start (by omega)
    rw [show start + (more + 1) = start + 1 + more by omega] at known gap ⊢
    have later := ih known gap
    rw [numbered_succ] at later
    refine .next ?_ ?_ <;> rw [length_numbered]
    · exact here
    · exact later

/-- **Numbering ends at the first gap.** There is a least number whose name is absent, it is no
greater than the number of names that are present, and `sequentialIds` gives the names below it, all
of them distinct. The loop that tries one name after the other ends, with the same names and after
one more try than there are of them. -/
theorem sequentialIds_ends_at_gap (lead : String) (present : List String) :
    ∃ k, IsLeast {index | lead ++ toString index ∉ present} k ∧ k ≤ present.toFinset.card ∧
      sequentialIds lead present = numbered lead k ∧ (sequentialIds lead present).Nodup ∧
        ∀ count ids, Tries lead present [] count ids ↔
          count = k + 1 ∧ ids = sequentialIds lead present := by
  obtain ⟨k, known, gap⟩ := exists_gap lead present
  have result : sequentialIds lead present = numbered lead k := sequentialIds_eq known gap
  have distinct : (numbered lead k).Nodup :=
    List.Nodup.map (name_injective lead) List.nodup_range
  have run : Tries lead present (numbered lead 0) (k + 1) (numbered lead (0 + k)) :=
    tries_numbered (by rwa [Nat.zero_add]) (by rwa [Nat.zero_add])
  rw [Nat.zero_add, numbered_zero] at run
  refine ⟨k, ⟨gap, ?_⟩, ?_, result, result ▸ distinct, ?_⟩
  · intro index missing
    exact Nat.le_of_not_lt fun lt => missing (known index lt)
  · exact le_card_of_known known
  · rw [result]
    intro count ids
    constructor
    · intro other
      exact other.unique run
    · rintro ⟨rfl, rfl⟩
      exact run

end TemplateCompiler.Placeholder
