import TemplateCompiler.Component.Hierarchy
import TemplateCompiler.Files.Path
import TemplateCompiler.Settings
import TemplateCompiler.Toml.Fields
import TemplateCompiler.Toml.Reader

/-!
# Manifests and settings files

A manifest declares component types in a TOML document, and a second kind of document holds the
settings of a compilation. A manifest may hold anything besides what is looked for in it; a
settings file may not.

## Main definitions

* `Manifest`, `Manifest.ofToml` — declared types and the root type that the document names
* `Manifest.resolve` — the path of a template
* `Settings.ofToml` — the settings in a document
-/
namespace TemplateCompiler

open Toml

/-! ## Declarations -/

namespace Decode

/-- A data field. -/
def dataField? (node : Node) : Option DataField := do
  let fields ← fields? ["name", "type"] node
  pure ⟨← required? text? "name" fields, ← orDefault? text? "type" objectType fields⟩

/-- A method. -/
def method? (node : Node) : Option MethodDeclaration := do
  let fields ← fields? ["name", "return_type"] node
  pure ⟨← required? text? "name" fields, ← orDefault? text? "return_type" voidType fields⟩

/-- The kind of a given name. -/
def kindOfName? (name : String) : Option ComputedKind :=
  if name = "getter" then some .getter else if name = "setter" then some .setter else none

/-- Whether there is nothing in a container. -/
def isNothing : Node → Bool
  | .array [] | .table _ [] => true
  | _ => false

/-- The kind of a computed property: its name, or a table with its name and nothing under it. -/
def kind? : Node → Option ComputedKind
  | .text name => kindOfName? name
  | .table _ [(name, node)] => if isNothing node then kindOfName? name else none
  | _ => none

/-- One side of a computed property. -/
def computed? (node : Node) : Option ComputedDeclaration := do
  let fields ← fields? ["name", "method", "type", "kind"] node
  pure
    { name := ← required? text? "name" fields
      method := ← optional? text? "method" fields
      typeName := ← orDefault? text? "type" objectType fields
      kind := ← orDefault? kind? "kind" .getter fields }

/-- A watcher. -/
def watch? (node : Node) : Option WatchDeclaration := do
  let fields ← fields? ["method", "property", "deep"] node
  pure
    { method := ← required? text? "method" fields
      property := ← required? text? "property" fields
      deep := ← orDefault? boolean? "deep" false fields }

/-- A prop. -/
def prop? (node : Node) : Option PropDeclaration := do
  let fields ← fields? ["name", "type", "required"] node
  pure
    { name := ← required? text? "name" fields
      typeName := ← optional? text? "type" fields
      required := ← orDefault? boolean? "required" false fields }

/-- A validator. -/
def validator? (node : Node) : Option ValidatorDeclaration := do
  let fields ← fields? ["method", "prop"] node
  pure ⟨← required? text? "method" fields, ← required? text? "prop" fields⟩

/-- The names of a component type's fields, in order. -/
def componentFields : List String :=
  ["name", "superclass", "template", "use_factory", "styles", "components", "directives", "hooks",
   "data", "methods", "computed", "watch", "props", "validators"]

/-- A component type. -/
def component? (node : Node) : Option ComponentType := do
  let fields ← fields? componentFields node
  pure
    { name := ← required? text? "name" fields
      superclass := ← optional? text? "superclass" fields
      template := ← optional? text? "template" fields
      useFactory := ← orDefault? boolean? "use_factory" false fields
      styles := ← orDefault? textMap? "styles" .empty fields
      components := ← orDefault? (list? text?) "components" [] fields
      directives := ← orDefault? (list? text?) "directives" [] fields
      hooks := ← orDefault? (list? text?) "hooks" [] fields
      data := ← orDefault? (list? dataField?) "data" [] fields
      methods := ← orDefault? (list? method?) "methods" [] fields
      computed := ← orDefault? (list? computed?) "computed" [] fields
      watch := ← orDefault? (list? watch?) "watch" [] fields
      props := ← orDefault? (list? prop?) "props" [] fields
      validators := ← orDefault? (list? validator?) "validators" [] fields }

end Decode

/-! ## Manifests -/

/-- A set of component types. -/
structure Manifest where
  hierarchy : TypeHierarchy
  /-- The root type that the document itself names. -/
  rootType : Option String
  /-- The directory from which the paths of templates start. -/
  basePath : Option String

/-- Why a document is no manifest. -/
inductive ManifestError where
  | malformed
  | duplicate (name : String)
  deriving DecidableEq, Repr

/-- The wording of an error. -/
def ManifestError.message : ManifestError → String
  | malformed => "Failed to parse manifest TOML: the document is not a manifest\n"
  | duplicate name => "component type declared twice: " ++ name

namespace Manifest

/-- Declare types one after the other, up to the first name that is taken. -/
def declare (h : TypeHierarchy) (types : List ComponentType) : Except ManifestError TypeHierarchy :=
  types.foldlM (fun h c =>
    match h.insert? c with
    | some h => .ok h
    | none => .error (.duplicate c.name)) h

/-- The root type and the component types in a document. -/
def read? (document : String) : Option (Option String × List ComponentType) := do
  let entries ← parse? document
  pure (← optional? text? "root_type" entries,
    ← orDefault? (list? Decode.component?) "component" [] entries)

/-- The manifest in a document. -/
def ofToml (document : String) : Except ManifestError Manifest :=
  match read? document with
  | none => .error .malformed
  | some (rootType, types) => do
    let hierarchy ← declare (.empty (rootType.getD defaultRootType)) types
    pure ⟨hierarchy, rootType, none⟩

/-- The path of a template. -/
def resolve (m : Manifest) (relative : String) : String :=
  match m.basePath with
  | some base => Path.join base relative
  | none => relative

/-- The hierarchy to compile with. The root that the manifest names wins over the chosen one. -/
def hierarchyFor (m : Manifest) (settings : Settings) : TypeHierarchy :=
  match m.rootType with
  | some _ => m.hierarchy
  | none => m.hierarchy.setRoot settings.rootType

end Manifest

/-! ## Settings -/

/-- Why a document holds no settings. -/
inductive SettingsError where
  | malformed
  | zeroBudget
  deriving DecidableEq, Repr

/-- The wording of an error. -/
def SettingsError.message : SettingsError → String
  | malformed => "Failed to parse config TOML: the document does not hold settings\n"
  | zeroBudget => "chunk_budget must be at least 1"

/-- The settings that a document may hold. -/
def Settings.fields : List String := ["chunk_budget", "root_type", "emit_comments"]

/-- The settings in a document whose entries are given. -/
def Settings.read? (entries : Entries) : Option Settings := do
  if entries.any fun entry => !Settings.fields.contains entry.1 then none
  pure
    { chunkBudget := ← orDefault? count? "chunk_budget" (default : Settings).chunkBudget entries
      rootType := ← orDefault? text? "root_type" (default : Settings).rootType entries
      emitComments := ← orDefault? boolean? "emit_comments" (default : Settings).emitComments
        entries }

/-- The settings in a document. What is missing keeps its default. -/
def Settings.ofToml (document : String) : Except SettingsError Settings :=
  match (parse? document).bind Settings.read? with
  | none => .error .malformed
  | some settings => if settings.chunkBudget = 0 then .error .zeroBudget else .ok settings

end TemplateCompiler
