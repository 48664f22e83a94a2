import TemplateCompiler.Text.Basic

/-!
# Directives

The name of an attribute says what it asks the rendering engine to do. Most attributes ask
nothing; the others carry an expression or a loop clause as their value.

## Main definitions

* `Markup.Directive` — what an attribute asks for
* `Markup.Directive.classify` — the directive that a name spells
-/
namespace TemplateCompiler.Markup

open Text

/-- What an attribute asks the rendering engine to do. -/
inductive Directive where
  /-- Keep an attribute or a prop equal to an expression. -/
  | bind (target : String)
  /-- Run a statement when an event arrives. -/
  | on (event : String)
  /-- Show the element only while an expression holds. -/
  | condition (name : String)
  /-- Keep a form field and an expression equal in both directions. -/
  | model
  /-- Repeat the element for every item of a collection. -/
  | loop
  /-- Nothing that needs an expression. -/
  | plain
  deriving DecidableEq, Repr

namespace Directive

/-- The directives that have a short mark or a long lead in front of their argument. -/
def leads : List (String × (String → Directive)) :=
  [(":", bind), ("v-bind:", bind), ("@", on), ("v-on:", on)]

/-- The first of the leads that `name` begins with, applied to what follows it. -/
def ofLead? (name : String) : List (String × (String → Directive)) → Option Directive
  | [] => none
  | (lead, make) :: rest =>
    match after? lead.toList name.toList with
    | some argument => some (make (String.ofList argument))
    | none => ofLead? name rest

/-- The directive that an attribute's name spells. -/
def classify (name : String) : Directive :=
  match ofLead? name leads with
  | some directive => directive
  | none =>
    if name = "v-if" ∨ name = "v-else-if" ∨ name = "v-show" then condition name
    else if name = "v-model" then model
    else if name = "v-for" then loop
    else plain

/-- Whether the directive's value is an expression of its own. -/
def takesExpression : Directive → Bool
  | bind _ | on _ | condition _ | model => true
  | loop | plain => false

end Directive

end TemplateCompiler.Markup
