import TemplateCompiler.Json.Reader
import TemplateCompiler.Registry.Basic
import TemplateCompiler.Text.Blank

/-!
# Options

The object that the rendering engine gets to construct a component.

## Main definitions

* `ComponentData` — the data object, shared or copied for each instance
* `PropType` — the check that the engine makes on a prop
* `ComputedOption`, `WatchOption`, `PropOption` — parts of the object
* `ComponentOptions` — the object
-/
namespace TemplateCompiler

/-! ## Data -/

/-- How many containers may be nested in a data object so that it can still be copied. -/
def copyDepth : Nat := 128

/-- A copy of a data object by writing it out and reading it back. Where containers are nested too
deeply the copy fails with the byte column, counted from one, at which reading stopped. -/
def copyData (data : OrderedMap Json.Value) : Except Nat (OrderedMap Json.Value) :=
  let text := (Json.Value.object data.entries).compact
  let members (v : Json.Value) : OrderedMap Json.Value :=
    match v with
    | .object members => .ofList members
    | _ => .empty
  match Json.parse copyDepth text with
  | .ok value => .ok (members value)
  | .error fault => .error (Text.byteLength text - Text.byteLength fault.here + 1)

/-- The data of a component. -/
inductive ComponentData where
  /-- One object that all instances share. -/
  | shared (data : OrderedMap Json.Value)
  /-- A fresh copy of the object for every instance. -/
  | copied (data : OrderedMap Json.Value)

/-- The object that the engine would observe. -/
def ComponentData.resolve : ComponentData → Except Nat (OrderedMap Json.Value)
  | shared data => .ok data
  | copied data => copyData data

/-! ## Prop types -/

/-- The kind of value that the engine checks a prop for. -/
inductive PropType where
  | string
  | number
  | boolean
  | array
  | object
  | function
  deriving DecidableEq, Repr

namespace PropType

/-- The type names that stand for a kind other than `object`. -/
def names : List (PropType × List String) :=
  [(string, ["String", "char", "Character"]),
   (number, ["int", "long", "short", "byte", "float", "double", "Integer", "Long", "Short", "Byte",
     "Float", "Double", "Number"]),
   (boolean, ["boolean", "Boolean"]),
   (array, ["List", "ArrayList", "Set", "Collection", "JsArray"]),
   (function, ["Function", "Runnable", "Supplier", "Consumer"])]

/-- The text after the last character that satisfies `p`, or all of it. -/
def lastPiece (p : Char → Bool) (cs : List Char) : List Char :=
  (cs.reverse.takeWhile fun c => !p c).reverse

/-- The kind of a declared type. Type arguments are dropped, arrays are recognised by their
brackets, and of a qualified name the last part counts. -/
def ofTypeName (typeName : String) : PropType :=
  let base := Text.trim (typeName.toList.takeWhile (· != '<'))
  if (Text.before? ['[', ']'] base).isSome then array
  else
    let simple := String.ofList (lastPiece (· == '.') base)
    match names.find? fun entry => entry.2.contains simple with
    | some entry => entry.1
    | none => object

/-- The engine's name for the kind. -/
def name : PropType → String
  | string => "String"
  | number => "Number"
  | boolean => "Boolean"
  | array => "Array"
  | object => "Object"
  | function => "Function"

end PropType

/-! ## The object -/

/-- The two sides of a computed property. -/
structure ComputedOption where
  get : Option Callable
  set : Option Callable

/-- A watcher. -/
structure WatchOption where
  /-- Changes inside the value count too. -/
  deep : Bool
  handler : Callable

/-- A prop. -/
structure PropOption where
  required : Bool
  default : Option Json.Value
  type : Option PropType
  validator : Option Callable

/-- Everything that the engine needs to construct a component. -/
structure ComponentOptions where
  /-- The selector of the place where the component is mounted. -/
  el : Option String
  /-- The template with every placeholder resolved. -/
  template : Option String
  data : ComponentData
  computed : OrderedMap ComputedOption
  methods : OrderedMap Callable
  watch : OrderedMap WatchOption
  props : OrderedMap PropOption
  /-- Nested components by the names of their tags. -/
  components : OrderedMap ComponentDefinition
  directives : OrderedMap DirectiveDefinition
  /-- Lifecycle hooks by name. -/
  hooks : OrderedMap Callable
  /-- The names of the template's collections, in order. -/
  collections : List String

/-- Say where the component is mounted. -/
def ComponentOptions.setEl (options : ComponentOptions) (selector : String) : ComponentOptions :=
  { options with el := some selector }

end TemplateCompiler
