import TemplateCompiler.Extraction.Walk
import TemplateCompiler.Files.Tree
import TemplateCompiler.Manifest
import TemplateCompiler.Registry.Basic
import TemplateCompiler.Report
import TemplateCompiler.Resource

/-!
# Compilation

Compiling a component extracts the expressions of its template and makes a resource and a
compiled view of what it finds. Compiling a manifest does so for all its components.

## Main definitions

* `CompiledComponent` — what compilation makes of a component
* `compileComponent` — of one component and the text of its template
* `compileManifest` — of all components, with a function that reads templates
* `registerAll` — put the definitions of compiled components into a registry
-/
namespace TemplateCompiler

/-- What compilation makes of a component. -/
structure CompiledComponent where
  descriptor : Descriptor
  /-- The source of the resource. -/
  source : String
  compiled : CompiledTemplate
  deriving DecidableEq, Repr

namespace CompiledComponent

/-- The definition of the component, for a type that it is declared by. -/
def definition (c : CompiledComponent) (metadata : ComponentType) : ComponentDefinition :=
  .of metadata (if c.descriptor.hasTemplate then some c.compiled else none)

end CompiledComponent

/-- Compile one component. Where no template is given nothing is extracted. -/
def compileComponent [Markup.Matching] (h : TypeHierarchy) (c : ComponentType) (template : Option String)
    (settings : Settings) : Except (List Diagnostic) CompiledComponent := do
  let extraction ← match template with
    | some text => extract h c text
    | none => pure .ofNothing
  let descriptor := Descriptor.make h c extraction
  pure ⟨descriptor, descriptor.resource settings, descriptor.compiled⟩

/-- Several problems on one line. -/
def summaryOf (problems : List Diagnostic) : String :=
  "parse errors: " ++ String.intercalate "; " (problems.map Diagnostic.summary)

/-- Why a manifest cannot be compiled. -/
inductive CompileError where
  /-- A template cannot be read. -/
  | unreadable (path : String) (error : FileError)
  /-- A template has problems, which are shown in a report. -/
  | template (component report : String)
  deriving DecidableEq, Repr

/-- The wording of an error. -/
def CompileError.message : CompileError → String
  | unreadable path error => "failed to read template '" ++ path ++ "': " ++ error.message
  | template component report => "template errors in " ++ component ++ ":\n" ++ report

/-- Compile one component of a manifest. -/
def compileDeclared [Markup.Matching] (m : Manifest) (settings : Settings)
    (readText : String → Except FileError String) (c : ComponentType) :
    Except CompileError CompiledComponent :=
  let h := m.hierarchyFor settings
  let report (source path : String) (problems : List Diagnostic) : CompileError :=
    .template c.name (String.intercalate "\n" (problems.map fun d => d.report source path))
  let compile (template : Option String) (path : String) : Except CompileError CompiledComponent :=
    match compileComponent h c template settings with
    | .ok compiled => .ok compiled
    | .error problems => .error (report (template.getD "") path problems)
  match c.template with
  | none => compile none ""
  | some relative =>
    let path := m.resolve relative
    match readText path with
    | .ok source => compile (some source) path
    | .error error => .error (.unreadable path error)

/-- Compile all components of a manifest, up to the first that fails. -/
def compileManifest [Markup.Matching] (m : Manifest) (settings : Settings)
    (readText : String → Except FileError String) : Except CompileError (List CompiledComponent) :=
  (m.hierarchyFor settings).types.mapM (compileDeclared m settings readText)

/-- Register the definitions of compiled components. Each carries the members that its type
inherits, so that they are bound, too. A type without an ancestry has no definition. -/
def registerAll (m : Manifest) (compiled : List CompiledComponent) (r : Registry) :
    Except RegistryError Registry :=
  compiled.foldlM (fun r c =>
    match m.hierarchy.resolved? c.descriptor.typeName with
    | some metadata => r.register? (c.definition metadata)
    | none => .ok r) r

end TemplateCompiler
