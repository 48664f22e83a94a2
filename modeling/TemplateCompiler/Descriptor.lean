import TemplateCompiler.Accessor.Synthesis
import TemplateCompiler.CompiledTemplate
import TemplateCompiler.Component.Hierarchy

/-!
# Descriptors

A descriptor holds everything that is known about a component when its template is compiled. The
generated resource and the compiled view are both made from it.

## Main definitions

* `Descriptor` — what is known about a component
* `Descriptor.make` — from a component type and its extraction
* `Descriptor.accessors` — the accessors of expressions, then those of collections
* `Descriptor.compiled` — the compiled view
* `Descriptor.toJson` — the written form
-/
namespace TemplateCompiler

/-- Everything known about a component when its template is compiled. -/
structure Descriptor where
  typeName : String
  /-- The file with the template, if the component has one. -/
  templatePath : Option String
  /-- The template with placeholders in it. -/
  template : String
  expressions : List Expression
  collections : List Collection
  styles : OrderedMap String
  /-- The types of computed properties along the ancestry, the most derived first. -/
  inheritedComputed : OrderedMap String
  deriving DecidableEq, Repr

namespace Descriptor

/-- Whether the component has a template with any text. -/
def hasTemplate (d : Descriptor) : Bool := d.template != ""

/-- The descriptor of a component and what has been extracted from its template. -/
def make (h : TypeHierarchy) (c : ComponentType) (extraction : Extraction) : Descriptor :=
  { typeName := c.name
    templatePath := c.template
    template := extraction.template
    expressions := extraction.expressions
    collections := extraction.collections
    styles := c.styles
    inheritedComputed := h.inheritedComputed c.name }

/-- The accessors of expressions, then those of collections. -/
def accessors (d : Descriptor) : List Accessor :=
  d.expressions.map .ofExpression ++ d.collections.map .ofCollection

/-- The compiled view. -/
def compiled (d : Descriptor) : CompiledTemplate :=
  { name := d.typeName
    text := d.template
    methods := .ofList (d.accessors.map fun a => (a.id, a.compiled))
    expressions := d.expressions.map fun e => ⟨e.kind, e.id⟩
    styles := d.styles }

/-! ## The written form -/

/-- Parameters as a JSON array. -/
def parametersValue (parameters : List Parameter) : Json.Value :=
  .array (parameters.map fun p => .object [("name", .string p.name), ("type", .string p.typeName)])

/-- An expression as a JSON object. -/
def expressionValue (e : Expression) : Json.Value :=
  .object
    [("id", .string e.id), ("kind", .string e.kind.name),
     ("parameters", parametersValue e.parameters), ("return_type", .string e.returnType),
     ("body", .string e.body)]

/-- A collection as a JSON object. -/
def collectionValue (c : Collection) : Json.Value :=
  .object
    [("id", .string c.id), ("parameters", parametersValue c.parameters),
     ("return_type", .string c.returnType), ("body", .string c.body)]

/-- The descriptor as a JSON object. -/
def toValue (d : Descriptor) : Json.Value :=
  .object
    [("type_name", .string d.typeName), ("template_path", Json.ofText? d.templatePath),
     ("template", .string d.template), ("expressions", .array (d.expressions.map expressionValue)),
     ("collections", .array (d.collections.map collectionValue)),
     ("styles", Json.ofTextMap d.styles),
     ("inherited_computed", Json.ofTextMap d.inheritedComputed)]

/-- The written form. -/
def toJson (d : Descriptor) : String := d.toValue.toIndented

end Descriptor

end TemplateCompiler
