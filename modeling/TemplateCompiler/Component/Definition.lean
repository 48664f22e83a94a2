import TemplateCompiler.CompiledTemplate
import TemplateCompiler.Component.Declaration
import TemplateCompiler.Component.Instance

/-!
# Definitions

A definition is what compilation leaves of a component type: its declarations and the compiled
view of its template.

## Main definitions

* `NamedType` — a component type and its name
* `ComponentDefinition` — of a component type
* `DirectiveDefinition` — of a custom directive
-/
namespace TemplateCompiler

/-- A component type: what it is called, and what has been declared for it. -/
structure NamedType where
  /-- The name that the definition is registered under. -/
  typeName : String
  metadata : ComponentType
  deriving DecidableEq, Repr, Inhabited

/-- A type is called what its declarations say, where nothing else is said. -/
instance : Coe ComponentType NamedType := ⟨fun metadata => ⟨metadata.name, metadata⟩⟩

/-- The definition of a component type. -/
structure ComponentDefinition extends NamedType where
  /-- The compiled view, where the component has a template. -/
  template : Option CompiledTemplate
  deriving DecidableEq, Repr, Inhabited

namespace ComponentDefinition

/-- The definition of a type under its declared name. -/
def of (metadata : ComponentType) (template : Option CompiledTemplate) : ComponentDefinition :=
  ⟨metadata, template⟩

section

variable (metadata : ComponentType) (template : Option CompiledTemplate)

@[simp] theorem typeName_of : (of metadata template).typeName = metadata.name := rfl
@[simp] theorem metadata_of : (of metadata template).metadata = metadata := rfl
@[simp] theorem template_of : (of metadata template).template = template := rfl

end

/-- The types of the components nested in this one. -/
def dependencies (d : ComponentDefinition) : List String := d.metadata.components

end ComponentDefinition

/-- The definition of a custom directive: functions by the names of hooks. -/
structure DirectiveDefinition where
  name : String
  hooks : OrderedMap Callable
  deriving Inhabited

end TemplateCompiler
