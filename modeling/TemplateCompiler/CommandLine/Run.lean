import TemplateCompiler.Compilation
import TemplateCompiler.CommandLine.Arguments

/-!
# Running the command line

What the program does for a command line, in terms of a host that reads and writes files and
prints. The same run can use the machine's files or files in memory.

## Main definitions

* `Host` — the actions that a run is made of
* `CommandLine.createDirectories` — make a directory and those that lead to it
* `CommandLine.run` — a run from the arguments to the exit code
* `Session`, `Session.host` — a host in memory
-/
namespace TemplateCompiler

/-- The actions that a run is made of. -/
structure Host (m : Type → Type) where
  readText : String → m (Except FileError String)
  /-- Make one directory where nothing is yet. -/
  makeDirectory : String → m (Except FileError Unit)
  isDirectory : String → m Bool
  writeText : (path text : String) → m (Except FileError Unit)
  print : String → m Unit
  /-- Print to where problems are reported. -/
  complain : String → m Unit

namespace CommandLine

/-! ## Results -/

/-- The result for one component. -/
def output (emit : Emit) (c : CompiledComponent) : String :=
  match emit with
  | .source => c.source
  | .compiled => c.compiled.toJson
  | .descriptor => c.descriptor.toJson

/-- The name of the file for one component. -/
def outputName (emit : Emit) (c : CompiledComponent) : String :=
  c.descriptor.typeName ++ "Template." ++ emit.extension

/-- How the command line is used. -/
def help : String :=
  "Compile component templates into accessors and runtime views\n\n" ++
    "Usage: template-compiler [OPTIONS] <MANIFEST>\n\n" ++
    "Options:\n" ++
    "  -c, --config <FILE>   Settings of the compilation (TOML format)\n" ++
    "  -o, --out-dir <DIR>   Directory for the results, which are printed otherwise\n" ++
    "  -e, --emit <KIND>     What to emit: source, compiled, descriptor\n" ++
    "  -v, --verbose...      Report more\n" ++
    "  -h, --help            Print help\n"

/-! ## Steps -/

/-- Why a run fails. -/
inductive Failure where
  | settingsUnreadable (path : String) (error : FileError)
  | settings (path : String) (error : SettingsError)
  | manifestUnreadable (path : String) (error : FileError)
  | manifest (path : String) (error : ManifestError)
  | compilation (error : CompileError)
  | writing (directory : String) (error : FileError)
  deriving DecidableEq, Repr

/-- The wording of a failure. -/
def Failure.message : Failure → String
  | settingsUnreadable path error =>
    "Error loading config '" ++ path ++ "': Failed to read config file: " ++ error.message
  | settings path error => "Error loading config '" ++ path ++ "': " ++ error.message
  | manifestUnreadable path error =>
    "Error loading manifest '" ++ path ++ "': Failed to read manifest file: " ++ error.message
  | manifest path error => "Error loading manifest '" ++ path ++ "': " ++ error.message
  | compilation error => "Error: " ++ error.message
  | writing directory error => "Error writing to '" ++ directory ++ "': " ++ error.message

variable {m : Type → Type} [Monad m]

/-- The settings in a file, or the default ones where no file is named. -/
def loadSettings (host : Host m) : Option String → ExceptT Failure m Settings
  | none => pure default
  | some path => do
    match ← host.readText path with
    | .error error => throw (.settingsUnreadable path error)
    | .ok document =>
      match Settings.ofToml document with
      | .error error => throw (.settings path error)
      | .ok settings => pure settings

/-- The manifest in a file. The paths of its templates start from the file's directory. -/
def loadManifest (host : Host m) (path : String) : ExceptT Failure m Manifest := do
  match ← host.readText path with
  | .error error => throw (.manifestUnreadable path error)
  | .ok document =>
    match Manifest.ofToml document with
    | .error error => throw (.manifest path error)
    | .ok manifest => pure { manifest with basePath := Path.parent? path }

/-- Compile a manifest whose templates the host reads. -/
def compileWith (host : Host m) (manifest : Manifest) (settings : Settings) :
    ExceptT Failure m (List CompiledComponent) := do
  let paths := (manifest.hierarchy.types.filterMap ComponentType.template).map manifest.resolve
  let texts ← paths.mapM fun path => do pure (path, ← host.readText path)
  let readText (path : String) : Except FileError String :=
    (lookupEntry path texts).getD (.error .notFound)
  match compileManifest manifest settings readText with
  | .error error => throw (.compilation error)
  | .ok compiled => pure compiled

/-- Make a directory, which may be there already. -/
def ensureDirectory (host : Host m) (path : String) : m (Except FileError Unit) := do
  match ← host.makeDirectory path with
  | .ok () => pure (.ok ())
  | .error error => pure (if ← host.isDirectory path then .ok () else .error error)

/-- Make the first of some directories, each of which is followed by the one that leads to it. Those
after it are made only if it cannot be made without them. -/
def ensureDirectories (host : Host m) : (paths : List String) → m (Except FileError Unit)
  | [] => pure (.ok ())
  | path :: before => do
    match ← ensureDirectory host path with
    | .error .notFound =>
      match ← ensureDirectories host before with
      | .ok () => ensureDirectory host path
      | .error error => pure (.error error)
    | result => pure result

/-- Make a directory and those that lead to it, where they are not there yet. -/
def createDirectories (host : Host m) (path : String) : m (Except FileError Unit) :=
  ensureDirectories host (Path.ancestors path)

/-- Hand out the result for one component. -/
def deliver (host : Host m) (a : Arguments) (c : CompiledComponent) : ExceptT Failure m Unit := do
  let text := output a.emit c
  match a.outputDirectory with
  | none => host.print (text ++ "\n")
  | some directory =>
    match ← (createDirectories host directory : m (Except FileError Unit)) with
    | .error error => throw (.writing directory error)
    | .ok () =>
      match ← host.writeText (Path.join directory (outputName a.emit c)) text with
      | .error error => throw (.writing directory error)
      | .ok () => pure ()

/-- Everything that a run does for its arguments. -/
def perform (host : Host m) (a : Arguments) : ExceptT Failure m Unit := do
  let settings ← loadSettings host a.config
  let manifest ← loadManifest host a.manifest
  let compiled ← compileWith host manifest settings
  if 0 < a.verbosity then
    host.complain ("components compiled: " ++ toString compiled.length ++ "\n")
  compiled.forM (deliver host a)

/-! ## Runs -/

/-- Run the program. The result is its exit code: zero for success, one for a failure and two for
a command line that is refused. -/
def run (host : Host m) (arguments : List String) : m Nat := do
  match Arguments.read arguments with
  | .error error =>
    host.complain ("error: " ++ error.message ++ "\n\n" ++ help)
    pure 2
  | .ok .help =>
    host.print help
    pure 0
  | .ok (.compile a) =>
    match ← (perform host a).run with
    | .ok () => pure 0
    | .error failure =>
      host.complain (failure.message ++ "\n")
      pure 1

end CommandLine

/-! ## Files in memory -/

/-- Files in memory and what has been printed. -/
structure Session where
  files : FileTree
  output : String
  complaints : String

namespace Session

/-- A session that begins with the given files. -/
def start (files : FileTree) : Session := ⟨files, "", ""⟩

/-- Replace the files by what a change makes of them, unless the change fails. -/
def change (s : Session) (result : Except FileError FileTree) : Except FileError Unit × Session :=
  match result with
  | .ok files => (.ok (), { s with files })
  | .error error => (.error error, s)

/-- The host that works on a session. -/
def host : Host (StateM Session) where
  readText path := fun s => (s.files.readText path, s)
  makeDirectory path := fun s => s.change (s.files.makeDirectory path)
  isDirectory path := fun s => (s.files.isDirectory path, s)
  writeText path text := fun s => s.change (s.files.writeText path text)
  print text := fun s => ((), { s with output := s.output ++ text })
  complain text := fun s => ((), { s with complaints := s.complaints ++ text })

end Session

end TemplateCompiler
