import TemplateCompiler.Text.Edit

/-!
# Placeholders

An expression in a template is replaced by a placeholder, a reserved lead and a number. The
accessor that evaluates the expression bears the same name.

## Main definitions

* `Placeholder.expressionId`, `Placeholder.collectionId`, `Placeholder.arraySlot` — the names
* `Placeholder.sequentialIds` — names from number zero up to the first gap
* `Placeholder.find` — the placeholders in a text
-/
namespace TemplateCompiler.Placeholder

open Text

/-- The lead of the names of expressions. -/
def expressionLead : String := "exp$"

/-- The lead of the names of collections. -/
def collectionLead : String := "col$"

/-- The name of an expression. -/
def expressionId (index : Nat) : String := expressionLead ++ toString index

/-- The name of a collection. -/
def collectionId (index : Nat) : String := collectionLead ++ toString index

/-- The data slot from which the engine reads the items of a collection. -/
def arraySlot (id : String) : String := id ++ "Array"

/-- The names `lead0`, `lead1`, … for as long as they are present. As many names as are present
have to be tried at most, because distinct numbers make distinct names. -/
def sequentialIds (lead : String) (present : List String) : List String :=
  ((List.range present.length).map fun index => lead ++ toString index).takeWhile present.contains

/-- A placeholder in a text. -/
structure Occurrence where
  token : String
  span : Span
  deriving DecidableEq, Repr

/-- Whether a name cannot begin right after the character. -/
def isGlue (c : Char) : Bool := c.isAlphanum || c == '_' || c == '$'

/-- The placeholders in text that begins at byte `offset`, after the character `before`. The first
`skip` characters belong to what has been recognised already. -/
def findFrom (lead : List Char) :
    (before : Option Char) → (offset skip : Nat) → List Char → List Occurrence
  | _, _, _, [] => []
  | _, offset, skip + 1, c :: cs => findFrom lead (some c) (offset + c.utf8Size) skip cs
  | before, offset, 0, c :: cs =>
    match after? lead (c :: cs) with
    | none => findFrom lead (some c) (offset + c.utf8Size) 0 cs
    | some rest =>
      let number := rest.takeWhile Char.isDigit
      if number.isEmpty || before.any isGlue then
        findFrom lead (some c) (offset + c.utf8Size) (lead.length - 1) cs
      else
        let token := lead ++ number
        ⟨String.ofList token, ⟨offset, offset + byteLength token⟩⟩ ::
          findFrom lead (some c) (offset + c.utf8Size) (token.length - 1) cs

/-- The placeholders with the given lead, in order. The number runs as far as the digits go, and
a lead that is glued to the end of a name begins no placeholder. -/
def find (lead : String) (text : List Char) : List Occurrence :=
  findFrom lead.toList none 0 0 text

end TemplateCompiler.Placeholder
