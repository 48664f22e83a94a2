import Mathlib.Data.List.Induction
import TemplateCompiler.Text.Blank

/-!
# Trimmed text

Text without blanks at either end stays as it is when it is trimmed, and so it does behind or in
front of other text, as far as that is not blank.

## Main definitions

* `Text.Trimmed` — text that begins and ends with a character that is not blank

## Main statements

* `Text.trimStart_blanks`, `Text.trimEnd_blanks` — blanks at the ends are dropped
* `Text.trimEnd_concat` — trimming looks at the last character
* `Text.trimStart_suffix`, `Text.head?_trimStart` — what trimming leaves
* `Text.Trimmed.trimStart_append`, `Text.Trimmed.trimEnd_eq` — trimmed text stays as it is
-/
namespace TemplateCompiler.Text

/-- Text that begins and ends with a character that is not blank. -/
structure Trimmed (cs : List Char) : Prop where
  first : ∃ c rest, cs = c :: rest ∧ isBlank c = false
  last : ∃ front c, cs = front ++ [c] ∧ isBlank c = false

theorem trimStart_cons {c : Char} (h : isBlank c = false) (cs : List Char) :
    trimStart (c :: cs) = c :: cs :=
  List.dropWhile_cons_of_neg (by simp [h])

theorem trimStart_cons_of_isBlank {c : Char} (h : isBlank c = true) (cs : List Char) :
    trimStart (c :: cs) = trimStart cs :=
  List.dropWhile_cons_of_pos h

/-- Trimming looks at the last character. -/
theorem trimEnd_concat (cs : List Char) (c : Char) :
    trimEnd (cs ++ [c]) = if isBlank c then trimEnd cs else cs ++ [c] := by
  simp only [trimEnd, dropEndWhile, List.reverse_append, List.reverse_cons, List.reverse_nil,
    List.nil_append, List.singleton_append, List.dropWhile_cons]
  split <;> simp

theorem trimStart_suffix (cs : List Char) : trimStart cs <:+ cs := List.dropWhile_suffix _

/-- Trimmed text does not begin with a blank. -/
theorem head?_trimStart (cs : List Char) : (trimStart cs).head?.any isBlank = false := by
  have border := List.head?_dropWhile_not isBlank cs
  rw [trimStart]
  cases first : (cs.dropWhile isBlank).head? with
  | none => rfl
  | some c => rwa [first] at border

theorem trimEnd_isPrefix (cs : List Char) : trimEnd cs <+: cs := by
  have suffix := List.dropWhile_suffix isBlank (l := cs.reverse)
  rw [← List.reverse_prefix, List.reverse_reverse] at suffix
  exact suffix

/-- What is left after trimming does not end with a blank. -/
theorem exists_last_trimEnd {cs : List Char} (h : trimEnd cs ≠ []) :
    ∃ front c, trimEnd cs = front ++ [c] ∧ isBlank c = false := by
  induction cs using List.reverseRecOn with
  | nil => exact absurd rfl h
  | append_singleton cs c ih =>
    rw [trimEnd_concat] at h ⊢
    split at h
    · rename_i blank
      rw [if_pos blank]
      exact ih h
    · rename_i noBlank
      rw [if_neg noBlank]
      exact ⟨cs, c, rfl, by simpa using noBlank⟩

/-- Blanks in front are dropped. -/
theorem trimStart_blanks {blanks : List Char} (h : blanks.all isBlank = true) (rest : List Char) :
    trimStart (blanks ++ rest) = trimStart rest :=
  List.dropWhile_append_of_pos (List.all_eq_true.mp h)

/-- What is dropped in front is blank. -/
theorem exists_blanks_trimStart (cs : List Char) :
    ∃ blanks, blanks.all isBlank = true ∧ cs = blanks ++ trimStart cs :=
  ⟨cs.takeWhile isBlank, List.all_takeWhile, List.takeWhile_append_dropWhile.symm⟩

/-- Blanks at the end are dropped. -/
theorem trimEnd_blanks (cs : List Char) {blanks : List Char} (h : blanks.all isBlank = true) :
    trimEnd (cs ++ blanks) = trimEnd cs := by
  induction blanks using List.reverseRecOn with
  | nil => rw [List.append_nil]
  | append_singleton blanks c ih =>
    rw [List.all_append, Bool.and_eq_true, List.all_cons, List.all_nil, Bool.and_true] at h
    rw [← List.append_assoc, trimEnd_concat, if_pos h.2, ih h.1]

/-- What is dropped at the end is blank. -/
theorem exists_blanks_trimEnd (cs : List Char) :
    ∃ blanks, blanks.all isBlank = true ∧ cs = trimEnd cs ++ blanks := by
  obtain ⟨blanks, blank, split⟩ := exists_blanks_trimStart cs.reverse
  have reversed := congrArg List.reverse split
  rw [List.reverse_reverse, List.reverse_append] at reversed
  exact ⟨blanks.reverse, by rwa [List.all_reverse], reversed⟩

theorem trimEnd_trimEnd (cs : List Char) : trimEnd (trimEnd cs) = trimEnd cs := by
  obtain ⟨blanks, blank, split⟩ := exists_blanks_trimEnd cs
  conv_rhs => rw [split, trimEnd_blanks _ blank]

/-- A part of a text that begins where the text begins has the same first character. -/
theorem first_of_prefix {part cs : List Char} (h : part <+: cs) (nonempty : part ≠ [])
    (first : ∃ c rest, cs = c :: rest ∧ isBlank c = false) :
    ∃ c rest, part = c :: rest ∧ isBlank c = false := by
  obtain ⟨c, rest, rfl, noBlank⟩ := first
  obtain ⟨d, more, rfl⟩ := List.exists_cons_of_ne_nil nonempty
  obtain ⟨tail, same⟩ := h
  obtain ⟨rfl, -⟩ := List.cons.inj same
  exact ⟨d, more, rfl, noBlank⟩

theorem exists_first_trimStart {cs : List Char} (h : trimStart cs ≠ []) :
    ∃ c rest, trimStart cs = c :: rest ∧ isBlank c = false := by
  induction cs with
  | nil => exact absurd rfl h
  | cons c cs ih =>
    by_cases blank : isBlank c = true
    · rw [trimStart_cons_of_isBlank blank] at h ⊢
      exact ih h
    · have noBlank : isBlank c = false := by simpa using blank
      exact ⟨c, cs, trimStart_cons noBlank cs, noBlank⟩

/-- Text that begins with no blank is trimmed at its end. -/
theorem trimmed_trimEnd {cs : List Char} (first : ∃ c rest, cs = c :: rest ∧ isBlank c = false) :
    Trimmed (trimEnd cs) := by
  have nonempty : trimEnd cs ≠ [] := by
    intro empty
    obtain ⟨blanks, blank, split⟩ := exists_blanks_trimEnd cs
    obtain ⟨c, rest, rfl, noBlank⟩ := first
    rw [empty, List.nil_append] at split
    rw [← split, List.all_cons, noBlank] at blank
    cases blank
  constructor
  · exact first_of_prefix (trimEnd_isPrefix cs) nonempty first
  · exact exists_last_trimEnd nonempty

/-- Text that is not all blank shields what follows it. -/
theorem trimStart_append {cs : List Char} (h : trimStart cs ≠ []) (rest : List Char) :
    trimStart (cs ++ rest) = trimStart cs ++ rest := by
  induction cs with
  | nil => exact absurd rfl h
  | cons c cs ih =>
    by_cases blank : isBlank c = true
    · rw [trimStart_cons_of_isBlank blank] at h ⊢
      rw [List.cons_append, trimStart_cons_of_isBlank blank]
      exact ih h
    · have noBlank : isBlank c = false := by simpa using blank
      rw [List.cons_append, trimStart_cons noBlank, trimStart_cons noBlank, List.cons_append]

namespace Trimmed

variable {cs : List Char}

theorem ne_nil (h : Trimmed cs) : cs ≠ [] := by
  obtain ⟨c, rest, rfl, -⟩ := h.first
  exact List.cons_ne_nil c rest

theorem trimStart_append (h : Trimmed cs) (rest : List Char) :
    trimStart (cs ++ rest) = cs ++ rest := by
  obtain ⟨c, more, rfl, noBlank⟩ := h.first
  exact trimStart_cons noBlank _

theorem trimEnd_eq (h : Trimmed cs) : trimEnd cs = cs := by
  obtain ⟨front, c, rfl, noBlank⟩ := h.last
  rw [trimEnd_concat, if_neg (by simp [noBlank])]

theorem trim_eq (h : Trimmed cs) : trim cs = cs := by
  rw [trim, ← List.append_nil cs, h.trimStart_append, List.append_nil, h.trimEnd_eq]

/-- The end of a trimmed text, without the blanks in front of it, is trimmed. -/
theorem trimStart_of_append {front rest : List Char} (h : Trimmed (front ++ rest))
    (nonempty : rest ≠ []) : Trimmed (trimStart rest) := by
  obtain ⟨whole, c, same, noBlank⟩ := h.last
  obtain ⟨init, last, rfl⟩ : ∃ init last, rest = init ++ [last] :=
    ⟨_, _, (List.dropLast_concat_getLast nonempty).symm⟩
  rw [← List.append_assoc] at same
  obtain ⟨-, rfl⟩ := List.append_inj' same rfl |>.imp id List.head_eq_of_cons_eq
  have split : trimStart (init ++ [last]) = trimStart init ++ [last] := by
    clear same h nonempty
    induction init with
    | nil => exact trimStart_cons noBlank []
    | cons d init ih =>
      by_cases blank : isBlank d = true
      · rw [List.cons_append, trimStart_cons_of_isBlank blank, trimStart_cons_of_isBlank blank, ih]
      · have noBlank' : isBlank d = false := by simpa using blank
        rw [List.cons_append, trimStart_cons noBlank', trimStart_cons noBlank', List.cons_append]
  have left : trimStart (init ++ [last]) ≠ [] := by simp [split]
  exact ⟨exists_first_trimStart left, _, _, split, noBlank⟩

end Trimmed

end TemplateCompiler.Text
