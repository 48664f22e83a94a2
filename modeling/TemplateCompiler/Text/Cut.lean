import TemplateCompiler.Text.Basic

/-!
# Cutting text in two

A reader that recognises something at the front of its input returns the characters it took
together with those that follow. Nothing may be lost on the way: `Cut.Of` says that the two
parts make up the input, and every reader comes with that lemma.

## Main definitions

* `Cut` — characters taken and characters left
* `Cut.Of` — the two parts of a cut make up a given input
* `Cut.cons`, `Cut.append` — characters taken before the cut
* `cutRun` — the longest run of characters of a class
-/
namespace TemplateCompiler.Text

/-- Characters taken from the front of the input, and the input that follows them. -/
structure Cut where
  taken : List Char
  rest : List Char
  deriving DecidableEq, Repr, Inhabited

namespace Cut

/-- The two parts of the cut make up `cs`. -/
def Of (cut : Cut) (cs : List Char) : Prop := cut.taken ++ cut.rest = cs

/-- One more character was taken before the cut. -/
def cons (c : Char) (cut : Cut) : Cut := ⟨c :: cut.taken, cut.rest⟩

/-- More characters were taken before the cut. -/
def append (lead : List Char) (cut : Cut) : Cut := ⟨lead ++ cut.taken, cut.rest⟩

@[simp] theorem rest_cons (c : Char) (cut : Cut) : (cons c cut).rest = cut.rest := rfl
@[simp] theorem taken_cons (c : Char) (cut : Cut) : (cons c cut).taken = c :: cut.taken := rfl
@[simp] theorem rest_append (lead : List Char) (cut : Cut) :
    (append lead cut).rest = cut.rest := rfl
@[simp] theorem taken_append (lead : List Char) (cut : Cut) :
    (append lead cut).taken = lead ++ cut.taken := rfl

theorem Of.cons {cut : Cut} {cs : List Char} (h : cut.Of cs) (c : Char) :
    (Cut.cons c cut).Of (c :: cs) := by
  simpa [Of] using h

theorem Of.append {cut : Cut} {cs : List Char} (h : cut.Of cs) (lead : List Char) :
    (Cut.append lead cut).Of (lead ++ cs) := by
  simpa [Of] using h

theorem Of.length_eq {cut : Cut} {cs : List Char} (h : cut.Of cs) :
    cs.length = cut.taken.length + cut.rest.length := by
  rw [← h, List.length_append]

/-- A reader that took something leaves less than it got. -/
theorem Of.length_rest_lt {cut : Cut} {cs : List Char} (h : cut.Of cs) (taken : cut.taken ≠ []) :
    cut.rest.length < cs.length := by
  have := List.length_pos_iff.mpr taken
  rw [h.length_eq]; omega

end Cut

/-- The longest run of characters that satisfy `p`. -/
def cutRun (p : Char → Bool) (cs : List Char) : Cut := ⟨cs.takeWhile p, cs.dropWhile p⟩

theorem cutRun_of (p : Char → Bool) (cs : List Char) : (cutRun p cs).Of cs :=
  List.takeWhile_append_dropWhile

@[simp] theorem cutRun_taken (p : Char → Bool) (cs : List Char) :
    (cutRun p cs).taken = cs.takeWhile p := rfl
@[simp] theorem cutRun_rest (p : Char → Bool) (cs : List Char) :
    (cutRun p cs).rest = cs.dropWhile p := rfl

end TemplateCompiler.Text
