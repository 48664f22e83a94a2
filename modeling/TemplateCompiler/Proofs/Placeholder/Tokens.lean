import Mathlib.Data.List.TakeWhile
import TemplateCompiler.Proofs.Placeholder
import TemplateCompiler.Proofs.Text.Run

/-!
# Which tokens a text has

The search for placeholders goes over a text once and jumps behind whatever it has recognised.
What it finds can be said without the search: a token is the lead with digits behind it, as many
as there are, and it does not begin right behind the character of a name. No token is missed by
the jumps, because the first character of a lead does not come again before the next lead.

## Main definitions

* `Placeholder.IsToken` — a token and the text on either side of it
* `Placeholder.HasToken` — a token that has not been recognised already

## Main statements

* `Placeholder.IsToken.here_or_later` — no token begins in what the search jumps over
* `Placeholder.mem_find_iff` — the search finds the tokens and nothing else
-/
namespace TemplateCompiler.Placeholder

open Text

/-- A token in text that follows the character `before`: the lead and some digits stand between
`front` and `behind`. -/
structure IsToken (lead : List Char) (before : Option Char) (text front digits behind : List Char) :
    Prop where
  text_eq : text = front ++ (lead ++ digits ++ behind)
  /-- No name ends where the token begins. -/
  apart : (front.getLast?.or before).any isGlue = false
  nonempty : digits ≠ []
  isDigit : ∀ c ∈ digits, c.isDigit = true
  /-- The digits are all that there are. -/
  maximal : ∀ c ∈ behind.head?, c.isDigit = false

/-- A lead in which its first character does not come again, nor in a number behind it. -/
structure IsFresh (lead : List Char) : Prop where
  nonempty : lead ≠ []
  tail : ∀ l ∈ lead.head?, l ∉ lead.tail
  number : ∀ l ∈ lead.head?, l.isDigit = false

theorem isFresh_expressionLead : IsFresh expressionLead.toList :=
  ⟨by simp [expressionLead], by simp [expressionLead], by simp [expressionLead]⟩

theorem isFresh_collectionLead : IsFresh collectionLead.toList :=
  ⟨by simp [collectionLead], by simp [collectionLead], by simp [collectionLead]⟩

namespace IsToken

variable {lead text front digits behind : List Char} {before : Option Char}

/-- What stands in front of a token may be longer. -/
theorem cons {c : Char} (h : IsToken lead (some c) text front digits behind) :
    IsToken lead before (c :: text) (c :: front) digits behind where
  text_eq := by rw [h.text_eq, List.cons_append]
  apart := by
    have apart := h.apart
    cases front with
    | nil => exact apart
    | cons d front => simpa [List.getLast?_cons] using apart
  nonempty := h.nonempty
  isDigit := h.isDigit
  maximal := h.maximal

/-- A token behind the first character is one of the text behind it. -/
theorem of_cons {c d : Char} (h : IsToken lead before (c :: text) (d :: front) digits behind) :
    c = d ∧ IsToken lead (some c) text front digits behind := by
  have same := h.text_eq
  rw [List.cons_append, List.cons.injEq] at same
  obtain ⟨rfl, text_eq⟩ := same
  refine ⟨rfl, text_eq, ?_, h.nonempty, h.isDigit, h.maximal⟩
  have apart := h.apart
  cases front with
  | nil => exact apart
  | cons d front => simpa [List.getLast?_cons] using apart

/-- The text begins with the lead if nothing is in front of the token. -/
theorem after?_eq (h : IsToken lead before text [] digits behind) :
    after? lead text = some (digits ++ behind) := by
  rw [after?_eq_some_iff, h.text_eq, List.nil_append, List.append_assoc]

/-- The digits of a token are those behind its lead. -/
theorem takeWhile_eq (h : IsToken lead before text front digits behind) :
    (digits ++ behind).takeWhile Char.isDigit = digits := by
  refine takeWhile_run (List.all_eq_true.mpr h.isDigit) ?_
  rw [Option.any_eq_false]
  intro c mem
  simp [h.maximal c mem]

/-- The lead with the digits behind it is a token unless it is glued to a name. -/
theorem of_after? {rest : List Char} (begins : after? lead text = some rest)
    (number : rest.takeWhile Char.isDigit ≠ []) (apart : before.any isGlue = false) :
    IsToken lead before text [] (rest.takeWhile Char.isDigit) (rest.dropWhile Char.isDigit) where
  text_eq := by
    rw [List.nil_append, List.append_assoc, List.takeWhile_append_dropWhile]
    exact after?_eq_some_iff.mp begins
  apart := apart
  nonempty := number
  isDigit c mem := List.mem_takeWhile_imp mem
  maximal c mem := by
    have stop := List.head?_dropWhile_not Char.isDigit rest
    rw [Option.mem_def.mp mem] at stop
    simpa using stop

/-- No token begins in text without the first character of the lead. -/
theorem length_le {left rest : List Char} (nonempty : lead ≠ [])
    (h : IsToken lead before (left ++ rest) front digits behind)
    (absent : ∀ l ∈ lead.head?, l ∉ left) : left.length ≤ front.length := by
  obtain ⟨l, tail, rfl⟩ := List.exists_cons_of_ne_nil nonempty
  rcases List.append_eq_append_iff.mp h.text_eq with ⟨more, rfl, -⟩ | ⟨more, rfl, same⟩
  · simp
  · cases more with
    | nil => simp
    | cons c more =>
      rw [List.cons_append, List.cons_append, List.cons_append, List.cons.injEq] at same
      obtain ⟨rfl, -⟩ := same
      exact absurd (List.mem_append_right _ List.mem_cons_self) (absent l rfl)

/-- A token begins behind the first character if the lead does not begin there. -/
theorem pos_of_after? (h : IsToken lead before text front digits behind)
    (absent : after? lead text = none) : 0 < front.length := by
  cases front with
  | nil => simp [h.after?_eq] at absent
  | cons d front => exact Nat.succ_pos _

/-- **Nothing is lost behind a lead**: a token begins with it or behind its number. -/
theorem here_or_later (fresh : IsFresh lead) {rest : List Char}
    (begins : after? lead text = some rest) (h : IsToken lead before text front digits behind) :
    (front = [] ∧ digits = rest.takeWhile Char.isDigit ∧ before.any isGlue = false) ∨
      (lead ++ rest.takeWhile Char.isDigit).length ≤ front.length := by
  cases front with
  | nil =>
    obtain rfl := Option.some.inj (h.after?_eq.symm.trans begins)
    exact .inl ⟨rfl, h.takeWhile_eq.symm, h.apart⟩
  | cons d front =>
    right
    -- the first character of the lead is neither in the rest of it nor in the number
    obtain ⟨l, tail, rfl⟩ := List.exists_cons_of_ne_nil fresh.nonempty
    obtain rfl := after?_eq_some_iff.mp begins
    obtain ⟨-, later⟩ := h.of_cons
    change IsToken _ _ (tail ++ rest) _ _ _ at later
    rw [← List.takeWhile_append_dropWhile (p := Char.isDigit) (l := rest), ← List.append_assoc]
      at later
    have le := later.length_le fresh.nonempty ?_
    · simpa using le
    · rintro _ ⟨⟩ mem
      rcases List.mem_append.mp mem with inTail | inNumber
      · exact fresh.tail l rfl inTail
      · have digit := List.mem_takeWhile_imp inNumber
        simp [fresh.number l rfl] at digit

end IsToken

/-! ## What is found -/

variable {lead : List Char}

/-- The place of a token in text that begins at byte `offset`. -/
def occurrence (offset : Nat) (lead front digits : List Char) : Occurrence :=
  ⟨String.ofList (lead ++ digits), offset + byteLength front,
    offset + byteLength front + byteLength (lead ++ digits)⟩

theorem occurrence_cons (offset : Nat) (lead front digits : List Char) (c : Char) :
    occurrence offset lead (c :: front) digits =
      occurrence (offset + c.utf8Size) lead front digits := by
  simp [occurrence, Nat.add_assoc]

/-- In text that begins at byte `offset`, behind its first `skip` characters, there is a token at
the given place. -/
def HasToken (lead : List Char) (before : Option Char) (offset skip : Nat) (text : List Char)
    (found : Occurrence) : Prop :=
  ∃ front digits behind, skip ≤ front.length ∧ IsToken lead before text front digits behind ∧
    found = occurrence offset lead front digits

namespace HasToken

variable {before : Option Char} {offset skip : Nat} {found : Occurrence}

/-- Behind more characters there are fewer tokens. -/
theorem weaken {text : List Char} (h : HasToken lead before offset skip text found) :
    HasToken lead before offset 0 text found := by
  obtain ⟨front, digits, behind, -, token⟩ := h
  exact ⟨front, digits, behind, Nat.zero_le _, token⟩

/-- Tokens that do not begin with the text are those of the text behind its first character. -/
theorem cons_iff {c : Char} {cs : List Char} :
    HasToken lead (some c) (offset + c.utf8Size) skip cs found ↔
      HasToken lead before offset (skip + 1) (c :: cs) found := by
  constructor
  · rintro ⟨front, digits, behind, le, token, rfl⟩
    exact ⟨c :: front, digits, behind, Nat.succ_le_succ le, token.cons, (occurrence_cons ..).symm⟩
  · rintro ⟨front, digits, behind, le, token, rfl⟩
    cases front with
    | nil => cases le
    | cons d front =>
      obtain ⟨rfl, behindIt⟩ := token.of_cons
      exact ⟨front, digits, behind, Nat.le_of_succ_le_succ le, behindIt, occurrence_cons ..⟩

end HasToken

/-- What is found in a text of which a part has been recognised already. -/
theorem mem_findFrom_iff (fresh : IsFresh lead) {text : List Char} {before : Option Char}
    {offset skip : Nat} {found : Occurrence} :
    found ∈ findFrom lead before offset skip text ↔
      HasToken lead before offset skip text found := by
  induction text generalizing before offset skip with
  | nil =>
    constructor
    · intro mem
      cases skip <;> cases mem
    · rintro ⟨front, digits, behind, -, token, -⟩
      have same := token.text_eq
      simp [fresh.nonempty] at same
  | cons c cs ih =>
    cases skip with
    | succ skip => exact ih.trans HasToken.cons_iff
    | zero =>
      rw [findFrom]
      cases begins : after? lead (c :: cs) with
      | none =>
        refine (ih.trans HasToken.cons_iff).trans ⟨HasToken.weaken, ?_⟩
        rintro ⟨front, digits, behind, -, token, same⟩
        exact ⟨front, digits, behind, token.pos_of_after? begins, token, same⟩
      | some rest =>
        have pos := List.length_pos_iff.mpr fresh.nonempty
        dsimp only
        split
        · rename_i rejected
          refine (ih.trans HasToken.cons_iff).trans ⟨HasToken.weaken, ?_⟩
          rintro ⟨front, digits, behind, -, token, same⟩
          rcases token.here_or_later fresh begins with ⟨-, number, apart⟩ | le
          · simp [← number, token.nonempty, apart] at rejected
          · rw [List.length_append] at le
            exact ⟨front, digits, behind, by omega, token, same⟩
        · rename_i accepted
          rw [Bool.or_eq_true, not_or, List.isEmpty_iff, Bool.not_eq_true] at accepted
          rw [List.mem_cons, ih.trans HasToken.cons_iff]
          constructor
          · rintro (rfl | later)
            · exact ⟨[], _, _, Nat.zero_le _, .of_after? begins accepted.1 accepted.2, rfl⟩
            · exact later.weaken
          · rintro ⟨front, digits, behind, -, token, same⟩
            rcases token.here_or_later fresh begins with ⟨rfl, rfl, -⟩ | le
            · exact .inl same
            · refine .inr ⟨front, digits, behind, ?_, token, same⟩
              rw [List.length_append] at le ⊢
              omega

/-- **The search finds the tokens of a text**, all of them and nothing else. -/
theorem mem_find_iff {lead : String} (fresh : IsFresh lead.toList) {text : List Char}
    {found : Occurrence} :
    found ∈ find lead text ↔
      ∃ front digits behind, IsToken lead.toList none text front digits behind ∧
        found = occurrence 0 lead.toList front digits := by
  rw [find, mem_findFrom_iff fresh, HasToken]
  simp only [Nat.zero_le, true_and]

end TemplateCompiler.Placeholder
