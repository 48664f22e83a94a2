import TemplateCompiler.Json.Value

/-!
# Component instances

What can be asked of a constructed component: the values of its fields and the methods that it
implements.

## Main definitions

* `Callable` — a method bound to an instance
* `Instance` — fields and methods by name
-/
namespace TemplateCompiler

/-- A function bound to an instance. -/
structure Callable where
  call : List Json.Value → Json.Value

/-- A callable that ignores its arguments. -/
def Callable.const (value : Json.Value) : Callable := ⟨fun _ => value⟩

instance : Inhabited Callable := ⟨.const .null⟩

/-- A constructed component. -/
structure Instance where
  /-- The value of a field, or `none` where the instance holds nothing. -/
  property : String → Option Json.Value
  /-- A method that the instance implements. -/
  method : String → Option Callable

/-- An instance with the given fields and methods. -/
def Instance.ofMaps (properties : OrderedMap Json.Value) (methods : OrderedMap Callable) :
    Instance :=
  ⟨properties.get?, methods.get?⟩

end TemplateCompiler
