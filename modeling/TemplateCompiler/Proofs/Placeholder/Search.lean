import Mathlib
import TemplateCompiler.Proofs.Markup.Tiling
import TemplateCompiler.Proofs.Placeholder.Tokens

/-!
# The search for placeholders is exact

The tokens that the search finds come in the order of the text and do not overlap. With
`Placeholder.mem_find_iff`, which says what is found, the result is thereby known as a list: it has
every token of the text once, in order, and nothing else.

## Main statements

* `Placeholder.ordered_findFrom` — the tokens come one after the other
* `Placeholder.find_is_exact` — what the search finds for a reserved lead
-/
namespace TemplateCompiler.Placeholder

open Text Markup

/-! ## Order -/

/-- **The tokens come one after the other.** Each search behind a token begins where the token
ends. -/
theorem ordered_findFrom {lead : List Char} (fresh : IsFresh lead) (before : Option Char)
    (offset skip : Nat) (text : List Char) :
    (findFrom lead before offset skip text).Pairwise fun a b => a.span.stop ≤ b.span.start := by
  induction text generalizing before offset skip with
  | nil => cases skip <;> exact .nil
  | cons c cs ih =>
    cases skip with
    | succ skip => exact ih _ _ _
    | zero =>
      rw [findFrom]
      cases begins : after? lead (c :: cs) with
      | none => exact ih _ _ _
      | some rest =>
        dsimp only
        split
        · exact ih _ _ _
        · refine .cons (fun found mem => ?_) (ih _ _ _)
          obtain ⟨front, digits, behind, skipped, token, rfl⟩ := (mem_findFrom_iff fresh).mp mem
          -- the next token stands behind as many characters as the first one has
          have first : lead ++ rest.takeWhile Char.isDigit <+: c :: cs := by
            rw [after?_eq_some_iff.mp begins, List.prefix_append_right_inj]
            exact List.takeWhile_prefix _
          have next : c :: front <+: c :: cs := by
            rw [token.text_eq]
            exact ⟨_, rfl⟩
          have inside := List.prefix_of_prefix_length_le first next (by
            rw [List.length_cons]
            omega)
          have le := byteLength_le_of_isPrefix inside
          rw [byteLength_cons] at le
          simp only [occurrence]
          omega

/-! ## Exactness -/

/-- The lead of the names of expressions, or that of the names of collections. -/
def IsReserved (lead : String) : Prop := lead = expressionLead ∨ lead = collectionLead

theorem IsReserved.isFresh {lead : String} (h : IsReserved lead) : IsFresh lead.toList := by
  rcases h with rfl | rfl
  · exact isFresh_expressionLead
  · exact isFresh_collectionLead

/-- A token that is found stands where its span says. -/
theorem covers_occurrence {lead text front digits behind : List Char} {before : Option Char}
    (token : IsToken lead before text front digits behind) (offset : Nat) :
    Covers offset text (occurrence offset lead front digits).span
      (occurrence offset lead front digits).token.toList := by
  refine ⟨front, behind, ?_, ?_⟩
  · rw [token.text_eq, occurrence, String.toList_ofList]
  · rw [occurrence, String.toList_ofList]

/-- **The search for a reserved lead is exact.** What it finds are the tokens of the text: the lead
with all digits behind it, at least one, where it is not glued to the end of a name. They are found
in the order of the text, they do not overlap, and each is the text at its span. -/
theorem find_is_exact {lead : String} (reserved : IsReserved lead) (text : String) :
    (∀ found, found ∈ find lead text.toList ↔
        ∃ front digits behind, IsToken lead.toList none text.toList front digits behind ∧
          found = occurrence 0 lead.toList front digits) ∧
      (find lead text.toList).Pairwise (fun a b => a.span.stop ≤ b.span.start) ∧
        ∀ found ∈ find lead text.toList, found.span.start < found.span.stop ∧
          Covers 0 text.toList found.span found.token.toList := by
  have fresh := reserved.isFresh
  refine ⟨fun found => mem_find_iff fresh, ordered_findFrom fresh none 0 0 _, ?_⟩
  intro found mem
  obtain ⟨front, digits, behind, token, rfl⟩ := (mem_find_iff fresh).mp mem
  refine ⟨?_, covers_occurrence token 0⟩
  have nonempty : lead.toList ++ digits ≠ [] := by simp [token.nonempty]
  exact Nat.lt_add_of_pos_right (byteLength_pos nonempty)

/-- Leads that stand behind a letter of two bytes, a full stop, a dollar sign, an underscore and a
digit. Behind the last three no token begins. -/
theorem glued_leads_begin_no_token :
    IsReserved expressionLead ∧
      find expressionLead "éexp$1 exp$exp$12$ _exp$3.exp$45exp$6".toList =
        [⟨"exp$1", ⟨2, 7⟩⟩, ⟨"exp$45", ⟨27, 33⟩⟩] ∧
      Covers 0 "éexp$1 exp$exp$12$ _exp$3.exp$45exp$6".toList ⟨27, 33⟩ "exp$45".toList := by
  have reserved : IsReserved expressionLead := .inl rfl
  have found : find expressionLead "éexp$1 exp$exp$12$ _exp$3.exp$45exp$6".toList =
      [⟨"exp$1", ⟨2, 7⟩⟩, ⟨"exp$45", ⟨27, 33⟩⟩] := by
    cbv
  have exact := find_is_exact reserved "éexp$1 exp$exp$12$ _exp$3.exp$45exp$6"
  have second : ⟨"exp$45", ⟨27, 33⟩⟩ ∈
      find expressionLead "éexp$1 exp$exp$12$ _exp$3.exp$45exp$6".toList := by
    rw [found]
    simp
  exact ⟨reserved, found, (exact.2.2 _ second).2⟩

end TemplateCompiler.Placeholder
