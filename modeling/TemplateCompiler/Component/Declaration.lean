import TemplateCompiler.OrderedMap

/-!
# Component declarations

What is declared about a component type: its data fields, methods, computed properties, watchers,
props, nested components and lifecycle hooks.

## Main definitions

* `ComponentType` — one declared type
* `ComponentType.computedType?`, `ComponentType.dataType?` — declared types by name
-/
namespace TemplateCompiler

/-- The type of a value about which nothing more specific is declared. -/
def objectType : String := "Object"

/-- The return type of an accessor that produces no value. -/
def voidType : String := "void"

/-- The base type of all components where nothing else is chosen. -/
def defaultRootType : String := "Component"

/-- A data field. -/
structure DataField where
  name : String
  typeName : String
  deriving DecidableEq, Repr

/-- A method that templates may call. -/
structure MethodDeclaration where
  name : String
  returnType : String
  deriving DecidableEq, Repr

/-- Which side of a computed property a method implements. -/
inductive ComputedKind where
  | getter
  | setter
  deriving DecidableEq, Repr, Inhabited

/-- One side of a computed property. -/
structure ComputedDeclaration where
  name : String
  /-- The method that implements it, when its name differs from the property's. -/
  method : Option String
  typeName : String
  kind : ComputedKind
  deriving DecidableEq, Repr

/-- The name of the implementing method. -/
def ComputedDeclaration.methodName (c : ComputedDeclaration) : String := c.method.getD c.name

/-- A method that runs when a property changes. -/
structure WatchDeclaration where
  method : String
  property : String
  /-- Changes inside the property's value count too. -/
  deep : Bool
  deriving DecidableEq, Repr

/-- A prop. -/
structure PropDeclaration where
  name : String
  typeName : Option String
  required : Bool
  deriving DecidableEq, Repr

/-- A method that checks the value of a prop. -/
structure ValidatorDeclaration where
  method : String
  prop : String
  deriving DecidableEq, Repr

/-- A declared component type. -/
structure ComponentType where
  name : String
  superclass : Option String := none
  /-- The file with the template, relative to the manifest. -/
  template : Option String := none
  /-- Every instance gets a copy of the data object of its own. -/
  useFactory : Bool := false
  /-- Names under which the template knows its styles, with their types. -/
  styles : OrderedMap String := .empty
  /-- The types of nested components. -/
  components : List String := []
  directives : List String := []
  /-- Lifecycle hooks that the instance implements. -/
  hooks : List String := []
  data : List DataField := []
  methods : List MethodDeclaration := []
  computed : List ComputedDeclaration := []
  watch : List WatchDeclaration := []
  props : List PropDeclaration := []
  validators : List ValidatorDeclaration := []
  deriving DecidableEq, Repr

instance : Inhabited ComponentType :=
  ⟨⟨"", none, none, false, .empty, [], [], [], [], [], [], [], [], []⟩⟩

namespace ComponentType

/-- The first getter of a computed property. -/
def getter? (c : ComponentType) (property : String) : Option ComputedDeclaration :=
  c.computed.find? fun d => d.name == property && d.kind == .getter

/-- The type of a computed property, as its first getter declares it. -/
def computedType? (c : ComponentType) (property : String) : Option String :=
  (c.getter? property).map ComputedDeclaration.typeName

/-- The type of a data field. -/
def dataType? (c : ComponentType) (name : String) : Option String :=
  (c.data.find? fun d => d.name == name).map DataField.typeName

end ComponentType

end TemplateCompiler
