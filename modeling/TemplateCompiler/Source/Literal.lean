import TemplateCompiler.Source.Lines
import TemplateCompiler.Text.Basic

/-!
# Text literals in generated source

A string constant of the target language takes at most 2^16 bytes of encoded data, and a
character up to four of them. Longer text is put together from literals that each hold no more
characters than a budget allows.

## Main definitions

* `Literal.escape` — text as it stands between the quotes of a literal
* `Literal.chunks` — text cut into pieces of a given size
* `Literal.defaultBudget` — how many characters are safe in one literal
* `SourceText.returnText` — the body of an accessor that returns a text
-/
namespace TemplateCompiler

namespace Literal

/-- How many characters fit into one string constant, whatever they are: four bytes each stay
below 2^16. -/
def defaultBudget : Nat := 16383

/-- One character inside a literal. -/
def escapeChar (c : Char) : List Char :=
  if c = '\\' then ['\\', '\\']
  else if c = '"' then ['\\', '"']
  else if c = '\n' then ['\\', 'n']
  else if c = '\r' then ['\\', 'r']
  else if c = '\t' then ['\\', 't']
  else if c.toNat < 0x20 then
    ['\\', 'u', '0', '0', Text.hexDigit (c.toNat / 16), Text.hexDigit c.toNat]
  else [c]

/-- Text inside a literal. -/
def escape (cs : List Char) : List Char := cs.flatMap escapeChar

@[simp] theorem escape_nil : escape [] = [] := rfl
@[simp] theorem escape_append (as bs : List Char) : escape (as ++ bs) = escape as ++ escape bs := by
  simp [escape]

/-- Consecutive pieces of `size` characters, of which the last one may be shorter. A size of zero
counts as one. -/
def chunks (size : Nat) (cs : List Char) : List (List Char) :=
  if cs = [] then [] else cs.take (max size 1) :: chunks size (cs.drop (max size 1))
termination_by cs.length
decreasing_by
  rename_i h
  have := List.length_pos_iff.mpr h
  simp only [List.length_drop]
  omega

@[simp] theorem chunks_nil (size : Nat) : chunks size [] = [] := by
  rw [chunks, if_pos rfl]

/-- The pieces make up the text. -/
theorem flatten_chunks (size : Nat) (cs : List Char) : (chunks size cs).flatten = cs := by
  fun_induction chunks size cs with
  | case1 => rfl
  | case2 cs h ih => rw [List.flatten_cons, ih, List.take_append_drop]

/-- A literal, quotes included. -/
def quote (cs : List Char) : String := "\"" ++ String.ofList (escape cs) ++ "\""

end Literal

/-- The body of an accessor that returns `text`: one literal if the text fits into the budget,
and otherwise a series of appended literals. -/
def SourceText.returnText (s : SourceText) (text : String) (budget : Nat) : SourceText :=
  let cs := text.toList
  if cs.length ≤ budget then s.line ("return " ++ Literal.quote cs ++ ";")
  else
    let started := s.line "StringBuilder builder = new StringBuilder();"
    let filled := (Literal.chunks budget cs).foldl
      (fun s chunk => s.line ("builder.append(" ++ Literal.quote chunk ++ ");")) started
    filled.line "return builder.toString();"

end TemplateCompiler
