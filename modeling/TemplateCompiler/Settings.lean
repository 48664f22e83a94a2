import TemplateCompiler.Component.Declaration
import TemplateCompiler.Source.Literal

/-!
# Settings

What can be chosen about compilation.

## Main definitions

* `Settings` — the choices, with their defaults
-/
namespace TemplateCompiler

/-- The choices for a compilation. -/
structure Settings where
  /-- How many characters one generated string constant may hold. -/
  chunkBudget : Nat := Literal.defaultBudget
  /-- The base type at which inheritance stops, unless a manifest names one. -/
  rootType : String := defaultRootType
  /-- Whether a generated resource begins with a comment that names its template. -/
  emitComments : Bool := true
  deriving DecidableEq, Repr

instance : Inhabited Settings := ⟨⟨Literal.defaultBudget, defaultRootType, true⟩⟩

end TemplateCompiler
