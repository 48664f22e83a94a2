import TemplateCompiler.Markup.LoopClause

/-!
# Sites

A site is a token that matters to extraction: an interpolation, an element or a closing tag. What
a token says, and what is wrong with it, depends on the token alone. Extraction succeeds if no
token has a problem, and otherwise reports the problems of all tokens in order.

## Main definitions

* `cleanBody` — an expression without blanks around it and without a final semicolon
* `Extraction.Slot` — an attribute whose value is replaced
* `Extraction.Site` — what a token says
* `Extraction.problems` — what is wrong with a token
* `Extraction.site?` — the site that a token makes
-/
namespace TemplateCompiler

open Text Markup

/-- An expression without blanks around it and without one final semicolon. -/
def cleanBody (text : List Char) : List Char :=
  let trimmed := trim text
  trimEnd ((before? [';'] trimmed).getD trimmed)

namespace Extraction

/-- An attribute whose value is replaced. -/
inductive Slot where
  /-- The clause of a loop. -/
  | loop (span : Span) (clause : LoopClause)
  /-- The expression of a directive. -/
  | expression (span : Span) (directive : Directive) (body : String)
  deriving DecidableEq, Repr

/-- What a token says. -/
inductive Site where
  | interpolation (span : Span) (body : String)
  /-- An opening tag with its slots, that of its loop first. -/
  | element (name : String) (opensScope : Bool) (slots : List Slot)
  | close (name : String)
  deriving DecidableEq, Repr

/-! ## Attributes -/

/-- The clause in a loop directive. -/
def readLoop (a : Attribute) : Except Diagnostic Slot :=
  match a.value with
  | none => .error (.plain a.name.span "v-for needs a loop clause")
  | some value =>
    match LoopClause.read value.text with
    | .ok clause => .ok (.loop value.span clause)
    | .error problem => .error (problem.shift value.span.start)

/-- The expression in any other directive. -/
def readExpression (a : Attribute) : Except Diagnostic Slot :=
  let message := a.name.text ++ " needs an expression"
  match a.value with
  | none => .error (.plain a.name.span message)
  | some value =>
    let body := cleanBody value.text.toList
    if body = [] then .error (.plain value.span message)
    else .ok (.expression value.span a.directive (String.ofList body))

/-- What a reading that failed says. -/
def problem? {ε α : Type} : Except ε α → Option ε
  | .error problem => some problem
  | .ok _ => none

/-- What a reading that succeeded says. -/
def value? {ε α : Type} : Except ε α → Option α
  | .error _ => none
  | .ok value => some value

/-- The first loop directive of an element, the only one that counts. -/
def loopAttribute? (attributes : List Attribute) : Option Attribute :=
  attributes.find? fun a => a.directive == .loop

/-- The attributes whose values are expressions. -/
def expressionAttributes (attributes : List Attribute) : List Attribute :=
  attributes.filter fun a => a.directive.takesExpression

/-- What the attributes of an element say: its loop is read first, because the variables of the
loop are visible in the expressions, whatever the order of the attributes. -/
def readings (attributes : List Attribute) : List (Except Diagnostic Slot) :=
  (loopAttribute? attributes).toList.map readLoop ++
    (expressionAttributes attributes).map readExpression

/-- The problems of an element. -/
def elementProblems (attributes : List Attribute) : List Diagnostic :=
  (readings attributes).filterMap problem?

/-- The slots of an element. Loop directives after the first one are left alone. -/
def slotsOf (attributes : List Attribute) : List Slot := (readings attributes).filterMap value?

/-! ## Tokens -/

/-- The expression inside the double braces of an interpolation. -/
def interpolationBody (token : Token) : List Char :=
  cleanBody ((token.text.drop 2).take (token.text.length - 4))

/-- What is wrong with a token. -/
def problems (located : Token × Span) : List Diagnostic :=
  match located.1.kind with
  | .unterminatedInterpolation => [.plain located.2 "unterminated interpolation"]
  | .interpolation =>
    if interpolationBody located.1 = [] then [.plain located.2 "empty interpolation"] else []
  | .openTag => elementProblems (Element.ofTag located.1.text located.2.start).attributes
  | _ => []

/-- The site that a token makes. Comments, text and stray characters make none. -/
def site? (located : Token × Span) : Option Site :=
  match located.1.kind with
  | .interpolation =>
    some (.interpolation located.2 (String.ofList (interpolationBody located.1)))
  | .openTag =>
    let element := Element.ofTag located.1.text located.2.start
    some (.element element.name element.opensScope (slotsOf element.attributes))
  | .closeTag name => some (.close name)
  | _ => none

end Extraction

end TemplateCompiler
