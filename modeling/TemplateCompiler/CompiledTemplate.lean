import TemplateCompiler.Extraction.Record
import TemplateCompiler.Json.Reader

/-!
# Compiled templates

The compiled view of a template is what is known of it when components are constructed: its text
with placeholders and the sources of the accessors that they stand for. It is stored as JSON.

## Main definitions

* `CompiledTemplate` — the view
* `CompiledTemplate.toJson` — its written form
* `CompiledTemplate.ofJson` — read it back, or say what kind of fault the text has
-/
namespace TemplateCompiler

/-- The kind and name of an expression, in the order of the template. -/
structure ExpressionEntry where
  kind : ExpressionKind
  id : String
  deriving DecidableEq, Repr

/-- The text of a template and the sources of its accessors by their names. -/
structure CompiledTemplate where
  name : String
  text : String
  methods : OrderedMap String
  expressions : List ExpressionEntry
  /-- Names under which the template knows its styles, with their types. -/
  styles : OrderedMap String
  deriving DecidableEq, Repr

namespace CompiledTemplate

/-- Whether there is no text. -/
def isEmpty (t : CompiledTemplate) : Bool := t.text == ""

/-! ## Writing -/

/-- An entry as a JSON object. -/
def entryValue (entry : ExpressionEntry) : Json.Value :=
  .object [("kind", .string entry.kind.name), ("id", .string entry.id)]

/-- The view as a JSON object. -/
def toValue (t : CompiledTemplate) : Json.Value :=
  .object
    [("name", .string t.name), ("text", .string t.text), ("methods", Json.ofTextMap t.methods),
     ("expressions", .array (t.expressions.map entryValue)), ("styles", Json.ofTextMap t.styles)]

/-- The written form. -/
def toJson (t : CompiledTemplate) : String := t.toValue.toIndented

/-! ## Reading

The text is read from left to right and the first fault counts, whether the text is malformed
there or a value is not what the view needs. An object with fixed members may also be given as an
array of their values in order. -/

open Json

/-- What a reader of one kind of value does with another: a well formed leaf and the opening of a
container are mismatches, and anything else is reported as it is. -/
def refuse {α : Type} (fuel : Nat) : Reader α := do
  match ← peek with
  | some 'n' => readLetters ['n', 'u', 'l', 'l']
  | some 't' => readLetters ['t', 'r', 'u', 'e']
  | some 'f' => readLetters ['f', 'a', 'l', 's', 'e']
  | some '"' => do
    advance
    let _ ← readString fuel
  | some '[' | some '{' => pure ()
  | some c =>
    if c = '-' ∨ c.isDigit then
      let _ ← readNumber
    else fault .malformed
  | none => fault .malformed
  fault .mismatched

/-- A string. -/
def readText (fuel : Nat) : Reader String := do
  match ← peekAfterBlanks with
  | none => fault .ended
  | some '"' => do
    advance
    readString fuel
  | some _ => refuse fuel

/-- A map from names to texts. -/
def readTextMap (fuel : Nat) : Reader (OrderedMap String) := do
  match ← peekAfterBlanks with
  | none => fault .ended
  | some '{' => do
    advance
    readMembers (fun key map => do
      readColon
      pure (map.insert key (← readText fuel))) fuel true .empty
  | some _ => refuse fuel

/-- A value inside a member whose key has been read. -/
def readMember {α : Type} (reader : Reader α) : Reader α := do
  readColon
  reader

/-- A value that may be given only once. -/
def readOnce {α : Type} (given : Option α) (reader : Reader α) : Reader (Option α) :=
  match given with
  | some _ => fault .mismatched
  | none => some <$> readMember reader

/-- A value that has to be given. -/
def require {α : Type} (given : Option α) : Reader α :=
  match given with
  | some value => pure value
  | none => fault .mismatched

/-- The next value of an array that stands for an object, or `none` at the end of the array. -/
def readNext {α : Type} (isFirst : Bool) (reader : Reader α) : Reader (Option α) := do
  match ← peekAfterBlanks with
  | none => fault .ended
  | some ']' => pure none
  | some c =>
    unless isFirst do
      if c = ',' then
        advance
        match ← peekAfterBlanks with
        | none => fault .ended
        | some ']' => fault .malformed
        | some _ => pure ()
      else fault .malformed
    some <$> reader

/-- The end of an array that stands for an object; no further values may follow. -/
def readEnd : Reader Unit := do
  match ← peekAfterBlanks with
  | none => fault .ended
  | some ']' => advance
  | some _ => fault .malformed

/-- The name of an expression's kind. -/
def kindOfName (name : String) : Reader ExpressionKind :=
  match ExpressionKind.ofName? name with
  | some kind => pure kind
  | none => fault .mismatched

/-- A kind: its name, or an object with its name as the key and nothing as the value. -/
def readKind (fuel : Nat) : Reader ExpressionKind := do
  match ← peekAfterBlanks with
  | none => fault .ended
  | some '"' => do
    advance
    kindOfName (← readString fuel)
  | some '{' => do
    advance
    match ← peekAfterBlanks with
    | none => fault .ended
    | some '"' => advance
    | some _ => fault .malformed
    let kind ← kindOfName (← readString fuel)
    readColon
    match ← peekAfterBlanks with
    | none => fault .ended
    | some 'n' => readLetters ['n', 'u', 'l', 'l']
    | some _ => refuse fuel
    match ← peekAfterBlanks with
    | none => fault .ended
    | some '}' => do
      advance
      pure kind
    | some _ => fault .malformed
  | some _ => fault .malformed

/-- An entry while it is read. -/
structure PartialEntry where
  kind : Option ExpressionKind
  id : Option String

/-- One member of an entry. Unknown members are passed over. -/
def readEntryMember (fuel : Nat) (key : String) (p : PartialEntry) : Reader PartialEntry :=
  if key = "kind" then do pure { p with kind := ← readOnce p.kind (readKind fuel) }
  else if key = "id" then do pure { p with id := ← readOnce p.id (readText fuel) }
  else do
    readMember (skipValue fuel)
    pure p

/-- An entry of the list of expressions. -/
def readEntry (fuel : Nat) : Reader ExpressionEntry := do
  match ← peekAfterBlanks with
  | none => fault .ended
  | some '{' => do
    advance
    let p ← readMembers (readEntryMember fuel) fuel true ⟨none, none⟩
    pure ⟨← require p.kind, ← require p.id⟩
  | some '[' => do
    advance
    let kind ← require (← readNext true (readKind fuel))
    let id ← require (← readNext false (readText fuel))
    readEnd
    pure ⟨kind, id⟩
  | some _ => refuse fuel

/-- The list of expressions. -/
def readEntries (fuel : Nat) : Reader (List ExpressionEntry) := do
  match ← peekAfterBlanks with
  | none => fault .ended
  | some '[' => do
    advance
    readElements (readEntry fuel) fuel true
  | some _ => refuse fuel

/-- A view while it is read. -/
structure Partial where
  name : Option String
  text : Option String
  methods : Option (OrderedMap String)
  expressions : Option (List ExpressionEntry)
  styles : Option (OrderedMap String)

/-- One member of a view. Unknown members are passed over. -/
def readViewMember (fuel : Nat) (key : String) (p : Partial) : Reader Partial :=
  if key = "name" then do pure { p with name := ← readOnce p.name (readText fuel) }
  else if key = "text" then do pure { p with text := ← readOnce p.text (readText fuel) }
  else if key = "methods" then do pure { p with methods := ← readOnce p.methods (readTextMap fuel) }
  else if key = "expressions" then do
    pure { p with expressions := ← readOnce p.expressions (readEntries fuel) }
  else if key = "styles" then do pure { p with styles := ← readOnce p.styles (readTextMap fuel) }
  else do
    readMember (skipValue fuel)
    pure p

/-- The view that the members make. Name and text have to be given. -/
def Partial.finish (p : Partial) : Reader CompiledTemplate := do
  pure
    { name := ← require p.name
      text := ← require p.text
      methods := p.methods.getD .empty
      expressions := p.expressions.getD []
      styles := p.styles.getD .empty }

/-- The value of an array that may end before it, unless it has ended already. -/
def readNextIf {α β : Type} (before : Option α) (reader : Reader β) : Reader (Option β) :=
  match before with
  | some _ => readNext false reader
  | none => pure none

/-- A view. -/
def readView (fuel : Nat) : Reader CompiledTemplate := do
  match ← peekAfterBlanks with
  | none => fault .ended
  | some '{' => do
    advance
    let p ← readMembers (readViewMember fuel) fuel true ⟨none, none, none, none, none⟩
    p.finish
  | some '[' => do
    advance
    let name ← require (← readNext true (readText fuel))
    let text ← require (← readNext false (readText fuel))
    let methods ← readNext false (readTextMap fuel)
    let expressions ← readNextIf methods (readEntries fuel)
    let styles ← readNextIf expressions (readTextMap fuel)
    let view ← Partial.finish ⟨some name, some text, methods, expressions, styles⟩
    readEnd
    pure view
  | some _ => refuse fuel

/-- Read the written form. -/
def ofJson (json : String) : Except Fault.Kind CompiledTemplate :=
  let text := json.toList
  match parseWith (readView (fuelFor text)) text with
  | .ok view => .ok view
  | .error f => .error f.kind

end CompiledTemplate

end TemplateCompiler
