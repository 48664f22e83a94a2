import TemplateCompiler.Json.Number
import TemplateCompiler.OrderedMap

/-!
# JSON values

JSON values whose objects keep the order of their members, and their two written forms: the
compact one without any blanks, and the indented one that people read.

## Main definitions

* `Json.Value`
* `Json.escape`, `Json.quote` — text as a JSON string
* `Json.Value.compact`, `Json.Value.indented` — the two written forms
* `Json.Value.depth` — how deeply containers are nested
-/
namespace TemplateCompiler.Json

/-- A JSON value. -/
inductive Value where
  | null
  | bool (value : Bool)
  | number (value : Number)
  | string (value : String)
  | array (items : List Value)
  | object (members : List (String × Value))
  deriving Repr, Inhabited, BEq

/-! ## Strings as text -/

/-- A character inside a string. Quotes, backslashes and control characters are escaped; the
control characters without a letter of their own are given by four digits. -/
def escape (c : Char) : List Char :=
  if c = '"' then ['\\', '"']
  else if c = '\\' then ['\\', '\\']
  else if c = '\x08' then ['\\', 'b']
  else if c = '\x0c' then ['\\', 'f']
  else if c = '\n' then ['\\', 'n']
  else if c = '\r' then ['\\', 'r']
  else if c = '\t' then ['\\', 't']
  else if c.toNat < 0x20 then
    ['\\', 'u', '0', '0', Text.hexDigit (c.toNat / 16), Text.hexDigit c.toNat]
  else [c]

/-- Text as a JSON string, quotes included. -/
def quote (text : String) : List Char := '"' :: (text.toList.flatMap escape ++ ['"'])

/-! ## The compact form -/

mutual

/-- The form without blanks. -/
def Value.compact : Value → List Char
  | .null => ['n', 'u', 'l', 'l']
  | .bool true => ['t', 'r', 'u', 'e']
  | .bool false => ['f', 'a', 'l', 's', 'e']
  | .number value => value.chars
  | .string text => quote text
  | .array items => '[' :: (compactItems [] items ++ [']'])
  | .object members => '{' :: (compactMembers [] members ++ ['}'])

/-- Items with commas between them; `lead` stands before the first one. -/
def compactItems (lead : List Char) : List Value → List Char
  | [] => []
  | item :: rest => lead ++ (item.compact ++ compactItems [','] rest)

/-- Members with commas between them; `lead` stands before the first one. -/
def compactMembers (lead : List Char) : List (String × Value) → List Char
  | [] => []
  | (key, value) :: rest =>
    lead ++ (quote key ++ ':' :: (value.compact ++ compactMembers [','] rest))

end

/-! ## The indented form -/

/-- A new line at a level of nesting. -/
def newLine (level : Nat) : List Char := '\n' :: List.replicate (2 * level) ' '

mutual

/-- The form with two blanks per level and one item or member on a line. -/
def Value.indented (level : Nat) : Value → List Char
  | .null => ['n', 'u', 'l', 'l']
  | .bool true => ['t', 'r', 'u', 'e']
  | .bool false => ['f', 'a', 'l', 's', 'e']
  | .number value => value.chars
  | .string text => quote text
  | .array [] => ['[', ']']
  | .array (item :: rest) =>
    '[' :: (newLine (level + 1) ++ item.indented (level + 1) ++ indentedItems level rest ++
      newLine level ++ [']'])
  | .object [] => ['{', '}']
  | .object ((key, value) :: rest) =>
    '{' :: (newLine (level + 1) ++ quote key ++ [':', ' '] ++ value.indented (level + 1) ++
      indentedMembers level rest ++ newLine level ++ ['}'])

/-- The items after the first one. -/
def indentedItems (level : Nat) : List Value → List Char
  | [] => []
  | item :: rest =>
    ',' :: (newLine (level + 1) ++ item.indented (level + 1) ++ indentedItems level rest)

/-- The members after the first one. -/
def indentedMembers (level : Nat) : List (String × Value) → List Char
  | [] => []
  | (key, value) :: rest =>
    ',' :: (newLine (level + 1) ++ quote key ++ [':', ' '] ++ value.indented (level + 1) ++
      indentedMembers level rest)

end

/-- The compact form as text. -/
def Value.toCompact (value : Value) : String := String.ofList value.compact

/-- The indented form as text. -/
def Value.toIndented (value : Value) : String := String.ofList (value.indented 0)

/-! ## Nesting -/

mutual

/-- How many containers are nested in the value, itself counted. -/
def Value.depth : Value → Nat
  | .array items => depthItems items + 1
  | .object members => depthMembers members + 1
  | _ => 0

/-- The greatest depth of an item. -/
def depthItems : List Value → Nat
  | [] => 0
  | item :: rest => max item.depth (depthItems rest)

/-- The greatest depth of a member. -/
def depthMembers : List (String × Value) → Nat
  | [] => 0
  | (_, value) :: rest => max value.depth (depthMembers rest)

end

/-- An object that maps names to text. -/
def ofTextMap (map : OrderedMap String) : Value :=
  .object (map.entries.map fun entry => (entry.1, .string entry.2))

/-- A string, or `null` for its absence. -/
def ofText? : Option String → Value
  | some text => .string text
  | none => .null

end TemplateCompiler.Json
