import TemplateCompiler.Text.Basic

/-!
# Diagnostics

What is wrong with a template and where.

## Main definitions

* `Diagnostic` — a byte span, a message and what was expected there
* `Diagnostic.shift` — from a part of the template to the whole of it
* `Diagnostic.summary` — the one-line form
-/
namespace TemplateCompiler

/-- A problem with a template. -/
structure Diagnostic where
  span : Span
  message : String
  expected : List String
  deriving DecidableEq, Repr, Inhabited

namespace Diagnostic

/-- A problem that has nothing to expect in its place. -/
def plain (span : Span) (message : String) : Diagnostic := ⟨span, message, []⟩

/-- The same problem in text that has `count` more bytes in front. -/
def shift (d : Diagnostic) (count : Nat) : Diagnostic := { d with span := d.span.shift count }

@[simp] theorem span_shift (d : Diagnostic) (count : Nat) :
    (d.shift count).span = d.span.shift count := rfl
@[simp] theorem message_shift (d : Diagnostic) (count : Nat) :
    (d.shift count).message = d.message := rfl

/-- The problem on one line. -/
def summary (d : Diagnostic) : String :=
  "Parse error at " ++ toString d.span.start ++ ".." ++ toString d.span.stop ++ ": " ++ d.message

end Diagnostic

end TemplateCompiler
