import TemplateCompiler.Text.Blank

/-!
# Recovering expressions

Reading the untyped form of an accessor back: the expression in it, and that expression without
the qualifiers by which it names members of the instance.

## Main definitions

* `Accessor.expression?` — the expression in the source of a function
* `Accessor.stripQualifiers` — an expression without `this.` in front of names
-/
namespace TemplateCompiler.Accessor

open Text

/-! ## The shape of a function -/

/-- What the name of a function is made of. -/
def isFunctionNameChar (c : Char) : Bool := c.isAlphanum || c == '_' || c == '$'

/-- The text between the braces of a function, which is nothing but that function: a keyword,
perhaps a name, parameters in parentheses and the braces. -/
def functionInner? (cs : List Char) : Option (List Char) := do
  let rest ← after? "function".toList (trimStart cs)
  let rest ← after? ['('] (trimStart ((trimStart rest).dropWhile isFunctionNameChar))
  let rest ← after? [')'] (rest.dropWhile (· != ')'))
  let rest ← after? ['{'] (trimStart rest)
  before? ['}'] (trimEnd rest)

/-- The text without a `return` at its front, which blanks have to follow. -/
def dropReturn (cs : List Char) : List Char :=
  match after? "return".toList cs with
  | some (c :: rest) => if isBlank c then trimStart (c :: rest) else cs
  | _ => cs

/-- The text without blanks at its end and without one final semicolon. -/
def dropTerminator (cs : List Char) : List Char :=
  let trimmed := trimEnd cs
  trimEnd ((before? [';'] trimmed).getD trimmed)

/-- The expression in the source of a function. There is none if the source does not have the
shape of an accessor or if nothing stands between its braces. -/
def expression? (source : String) : Option String := do
  let inner ← functionInner? source.toList
  let body := dropTerminator (dropReturn (trimStart inner))
  if body = [] then none else some (String.ofList body)

/-! ## Qualifiers -/

/-- The qualifier of an instance's own members. -/
def qualifier : List Char := ['t', 'h', 'i', 's', '.']

/-- Whether a qualifier may begin right after the character. -/
def endsName (c : Char) : Bool := !(c.isAlphanum || c == '_' || c == '$' || c == '%')

/-- Drop qualifiers. The first `skip` characters belong to one that is dropped. A qualifier counts
at the start of the text and after a character that is not part of the qualifier before. -/
def stripFrom : (atStart : Bool) → (skip : Nat) → List Char → List Char
  | _, _, [] => []
  | _, skip + 1, _ :: cs => stripFrom false skip cs
  | atStart, 0, c :: cs =>
    if atStart && (after? qualifier (c :: cs)).isSome then stripFrom false 4 cs
    else if endsName c && (after? qualifier cs).isSome then c :: stripFrom false 5 cs
    else c :: stripFrom false 0 cs

/-- The expression without qualifiers, so that its names are looked up in the instance. -/
def stripQualifiers (expression : String) : String :=
  String.ofList (stripFrom true 0 expression.toList)

end TemplateCompiler.Accessor
