/-!
# Text as characters and as bytes

Text is scanned as a list of characters, while every position a caller sees is a byte offset
into its UTF-8 form. The functions here connect the two views.

## Main definitions

* `Span` — a range of bytes
* `Text.byteLength` — how many bytes characters take in UTF-8
* `Text.takeBytes`, `Text.dropBytes` — cut text at a byte offset
* `Text.after?` — what follows a literal that the text begins with
* `Text.dropEndWhile` — the counterpart of `List.dropWhile` at the end of the text
* `Text.lines` — text cut at its line feeds
-/
namespace TemplateCompiler

/-- A range of bytes: `start` is the first byte in it and `stop` the first one after it. -/
structure Span where
  start : Nat
  stop : Nat
  deriving DecidableEq, Repr, Inhabited

namespace Span

/-- The same range in text that has `count` more bytes in front. -/
def shift (span : Span) (count : Nat) : Span := ⟨span.start + count, span.stop + count⟩

@[simp] theorem start_shift (span : Span) (count : Nat) :
    (span.shift count).start = span.start + count := rfl
@[simp] theorem stop_shift (span : Span) (count : Nat) :
    (span.shift count).stop = span.stop + count := rfl

end Span

namespace Text

/-- How many bytes the characters take in UTF-8. -/
def byteLength (cs : List Char) : Nat := cs.foldr (fun c count => c.utf8Size + count) 0

@[simp] theorem byteLength_nil : byteLength [] = 0 := rfl
@[simp] theorem byteLength_cons (c : Char) (cs : List Char) :
    byteLength (c :: cs) = c.utf8Size + byteLength cs := rfl
@[simp] theorem byteLength_append (as bs : List Char) :
    byteLength (as ++ bs) = byteLength as + byteLength bs := by
  induction as with
  | nil => simp
  | cons c cs ih => simp [ih, Nat.add_assoc]

theorem byteLength_pos {cs : List Char} (nonempty : cs ≠ []) : 0 < byteLength cs := by
  obtain ⟨c, rest, rfl⟩ := List.exists_cons_of_ne_nil nonempty
  have := c.utf8Size_pos
  rw [byteLength_cons]
  omega

/-- A text takes no fewer bytes than what it begins with. -/
theorem byteLength_le_of_isPrefix {front cs : List Char} (h : front <+: cs) :
    byteLength front ≤ byteLength cs := by
  obtain ⟨rest, rfl⟩ := h
  rw [byteLength_append]
  exact Nat.le_add_right _ _

/-- The characters that begin before byte `count`. -/
def takeBytes : Nat → List Char → List Char
  | 0, _ => []
  | _ + 1, [] => []
  | n + 1, c :: cs => c :: takeBytes (n + 1 - c.utf8Size) cs

/-- The characters that begin at byte `count` or later. -/
def dropBytes : Nat → List Char → List Char
  | 0, cs => cs
  | _ + 1, [] => []
  | n + 1, c :: cs => dropBytes (n + 1 - c.utf8Size) cs

@[simp] theorem takeBytes_zero (cs : List Char) : takeBytes 0 cs = [] := by
  cases cs <;> rfl
@[simp] theorem dropBytes_zero (cs : List Char) : dropBytes 0 cs = cs := by
  cases cs <;> rfl

@[simp] theorem takeBytes_byteLength_add (as bs : List Char) (count : Nat) :
    takeBytes (byteLength as + count) (as ++ bs) = as ++ takeBytes count bs := by
  induction as with
  | nil => simp
  | cons c cs ih =>
    obtain ⟨n, hn⟩ : ∃ n, byteLength (c :: cs) + count = n + 1 :=
      ⟨_, (Nat.succ_pred_eq_of_pos (by have := c.utf8Size_pos; simp; omega)).symm⟩
    have hrest : n + 1 - c.utf8Size = byteLength cs + count := by simp at hn; omega
    rw [hn, List.cons_append, takeBytes, hrest, ih, List.cons_append]

@[simp] theorem dropBytes_byteLength_add (as bs : List Char) (count : Nat) :
    dropBytes (byteLength as + count) (as ++ bs) = dropBytes count bs := by
  induction as with
  | nil => simp
  | cons c cs ih =>
    obtain ⟨n, hn⟩ : ∃ n, byteLength (c :: cs) + count = n + 1 :=
      ⟨_, (Nat.succ_pred_eq_of_pos (by have := c.utf8Size_pos; simp; omega)).symm⟩
    have hrest : n + 1 - c.utf8Size = byteLength cs + count := by simp at hn; omega
    rw [hn, List.cons_append, dropBytes, hrest, ih]

@[simp] theorem takeBytes_byteLength (as bs : List Char) :
    takeBytes (byteLength as) (as ++ bs) = as := by
  simpa using takeBytes_byteLength_add as bs 0

@[simp] theorem dropBytes_byteLength (as bs : List Char) :
    dropBytes (byteLength as) (as ++ bs) = bs := by
  simpa using dropBytes_byteLength_add as bs 0

/-- The text of a span, for a span whose ends do not split a character. -/
def slice (cs : List Char) (span : Span) : List Char :=
  takeBytes (span.stop - span.start) (dropBytes span.start cs)

/-- What follows `lead`, when the text begins with it. -/
def after? : (lead : List Char) → List Char → Option (List Char)
  | [], cs => some cs
  | _ :: _, [] => none
  | l :: lead, c :: cs => if l = c then after? lead cs else none

theorem after?_eq_some_iff {lead cs rest : List Char} :
    after? lead cs = some rest ↔ cs = lead ++ rest := by
  induction lead generalizing cs with
  | nil => simp [after?, eq_comm]
  | cons l lead ih =>
    cases cs with
    | nil => simp [after?]
    | cons c cs =>
      by_cases h : l = c
      · subst h
        simp [after?, ih]
      · simp [after?, h, eq_comm]

/-- A text that the lead has no character of cannot complete the lead. -/
theorem after?_append {lead rest : List Char} (h : ∀ c ∈ rest.head?, c ∉ lead) (cs : List Char) :
    after? lead (cs ++ rest) = (after? lead cs).map (· ++ rest) := by
  induction lead generalizing cs with
  | nil => simp [after?]
  | cons l lead ih =>
    cases cs with
    | nil =>
      cases rest with
      | nil => simp [after?]
      | cons c rest =>
        have ne : l ≠ c := by
          rintro rfl
          exact h l rfl List.mem_cons_self
        simp [after?, ne]
    | cons c cs =>
      by_cases same : l = c
      · simpa [after?, same] using ih (fun d hd mem => h d hd (List.mem_cons_of_mem l mem)) cs
      · simp [after?, same]

/-- What precedes `trail`, when the text ends with it. -/
def before? (trail cs : List Char) : Option (List Char) :=
  (after? trail.reverse cs.reverse).map List.reverse

theorem before?_eq_some_iff {trail cs front : List Char} :
    before? trail cs = some front ↔ cs = front ++ trail := by
  rw [before?, Option.map_eq_some_iff]
  constructor
  · rintro ⟨rest, hrest, rfl⟩
    rw [← List.reverse_reverse cs, after?_eq_some_iff.mp hrest]
    simp
  · rintro rfl
    exact ⟨front.reverse, after?_eq_some_iff.mpr (by simp), List.reverse_reverse front⟩

/-- The text without the longest end whose characters all satisfy `p`. -/
def dropEndWhile (p : Char → Bool) (cs : List Char) : List Char :=
  (cs.reverse.dropWhile p).reverse

/-- The length of a list cannot grow under `dropWhile`. -/
theorem length_dropWhile_le (p : Char → Bool) (cs : List Char) :
    (cs.dropWhile p).length ≤ cs.length := by
  induction cs with
  | nil => simp
  | cons c cs ih =>
    rw [List.dropWhile_cons]
    split
    · exact Nat.le_succ_of_le ih
    · exact Nat.le_refl _

/-- The last hexadecimal digit of a number, in lower case. -/
def hexDigit (n : Nat) : Char := Nat.digitChar (n % 16)

/-- The lines of the text, given the characters of the first one already passed, last first. -/
def linesFrom (line : List Char) : List Char → List (List Char)
  | [] => if line.isEmpty then [] else [line.reverse]
  | c :: cs =>
    if c = '\n' then
      (match line with
        | '\r' :: before => before
        | _ => line).reverse :: linesFrom [] cs
    else linesFrom (c :: line) cs

/-- The lines of the text. A line feed ends a line, with the carriage return before it if there
is one, so that text ending in a line feed has no empty line after it. -/
def lines (cs : List Char) : List (List Char) := linesFrom [] cs

end Text

end TemplateCompiler
