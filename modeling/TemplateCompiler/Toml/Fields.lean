import TemplateCompiler.Toml.Tree

/-!
# Fields of TOML values

Taking typed data out of a document. A record is a table with a field per entry; it may also be
given as an array of the fields' values in order.

## Main definitions

* `Toml.text?`, `Toml.boolean?`, `Toml.list?`, `Toml.textMap?` — values of one kind
* `Toml.entries?` — the entries of a value that is read as a map
* `Toml.fields?` — the fields of a record
* `Toml.required?`, `Toml.optional?`, `Toml.orDefault?` — one field
-/
namespace TemplateCompiler.Toml

/-- A text. -/
def text? : Node → Option String
  | .text value => some value
  | _ => none

/-- A truth value. -/
def boolean? : Node → Option Bool
  | .boolean value => some value
  | _ => none

/-- A number that counts something. -/
def count? : Node → Option Nat
  | .integer (.ofNat value) => some value
  | _ => none

/-- A list of values of one kind: an array, or the tables under headers with double brackets. -/
def list? {α : Type} (item? : Node → Option α) : Node → Option (List α)
  | .array items => items.mapM item?
  | .tables elements => elements.mapM fun entries => item? (.table .header entries)
  | _ => none

/-- The key of the one entry that a date or time has as a map. -/
def momentKey : String := "$__toml_private_datetime"

/-- The entries of a value that is read as a map: those of a table, and for a date or time its
written form. -/
def entries? : Node → Option Entries
  | .table _ entries => some entries
  | .moment value => some [(momentKey, .text value.text)]
  | _ => none

/-- A map from names to texts. -/
def textMap? (node : Node) : Option (OrderedMap String) := do
  let entries ← entries? node
  pure (.ofList (← entries.mapM fun (key, value) => do pure (key, ← text? value)))

/-- The fields of a record with the given names. Of an array, values after the last name are
passed over. -/
def fields? (names : List String) : Node → Option Entries
  | .array items => some (names.zip items)
  | .tables elements => some (names.zip (elements.map (.table .header)))
  | node => entries? node

/-- A field that has to be there. -/
def required? {α : Type} (value? : Node → Option α) (key : String) (fields : Entries) : Option α :=
  (lookupEntry key fields).bind value?

/-- A field that may be missing, but not of another kind. -/
def optional? {α : Type} (value? : Node → Option α) (key : String) (fields : Entries) :
    Option (Option α) :=
  match lookupEntry key fields with
  | some node => (value? node).map some
  | none => some none

/-- A field with a default. -/
def orDefault? {α : Type} (value? : Node → Option α) (key : String) (default : α)
    (fields : Entries) : Option α :=
  (optional? value? key fields).map (·.getD default)

end TemplateCompiler.Toml
