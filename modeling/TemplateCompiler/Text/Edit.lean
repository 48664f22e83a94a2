import TemplateCompiler.Text.Basic

/-!
# Edits

Replacing parts of a text, each given by its byte span.

## Main definitions

* `Text.Edit` — a span and the text to put in its place
* `Text.inOrder` — edits in the order of their spans
* `Text.applyEdits` — the text with all replacements made
-/
namespace TemplateCompiler.Text

/-- A replacement of the text at a span. -/
structure Edit where
  span : Span
  replacement : String
  deriving DecidableEq, Repr

/-- Make the replacements in text that begins at byte `position`. The edits come in the order of
their spans, which do not overlap. -/
def applyEditsFrom (position : Nat) (cs : List Char) : List Edit → List Char
  | [] => cs
  | edit :: rest =>
    takeBytes (edit.span.start - position) cs ++ edit.replacement.toList ++
      applyEditsFrom edit.span.stop (dropBytes (edit.span.stop - position) cs) rest

/-- The edits in the order of their spans. Those that begin at the same byte keep their order. -/
def inOrder (edits : List Edit) : List Edit :=
  edits.mergeSort fun a b => a.span.start ≤ b.span.start

/-- The text with all replacements made. The edits may come in any order. -/
def applyEdits (text : List Char) (edits : List Edit) : List Char :=
  applyEditsFrom 0 text (inOrder edits)

@[simp] theorem applyEditsFrom_nil (position : Nat) (text : List Char) :
    applyEditsFrom position text [] = text := rfl

end TemplateCompiler.Text
