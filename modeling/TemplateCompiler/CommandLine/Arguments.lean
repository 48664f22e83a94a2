/-!
# Command line arguments

The command line names a manifest and what to make of it. An option is written with two hyphens
and its name or with one hyphen and its letter. Its value is the next argument, or stands in the
same one after an equals sign or right after the letter. Letters of flags may be run together.
After two bare hyphens there are no options.

## Main definitions

* `Emit` — what is written for each component
* `Arguments` — what the command line asks for
* `UsageError` — why a command line is refused
* `Arguments.read` — the request that a command line makes
-/
namespace TemplateCompiler

/-- What is written for each component. -/
inductive Emit where
  /-- The resource. -/
  | source
  /-- The compiled view. -/
  | compiled
  | descriptor
  deriving DecidableEq, Repr, Inhabited

namespace Emit

/-- The name of the choice on the command line. -/
def name : Emit → String
  | source => "source"
  | compiled => "compiled"
  | descriptor => "descriptor"

/-- The choice of a given name. -/
def ofName? (name : String) : Option Emit :=
  [source, compiled, descriptor].find? fun emit => emit.name == name

@[simp] theorem ofName?_name (emit : Emit) : ofName? emit.name = some emit := by
  cases emit <;> rfl

/-- The ending of files that hold it. -/
def extension : Emit → String
  | source => "java"
  | compiled => "template.json"
  | descriptor => "descriptor.json"

end Emit

/-- What the command line asks for. -/
structure Arguments where
  /-- The file with the manifest. -/
  manifest : String
  /-- The file with the settings. -/
  config : Option String
  /-- The directory for the results, which are printed where there is none. -/
  outputDirectory : Option String
  emit : Emit
  /-- How often more messages were asked for. -/
  verbosity : Nat
  deriving DecidableEq, Repr

/-- Why a command line is refused. -/
inductive UsageError where
  | unknownOption (option : String)
  | missingValue (option : String)
  | unexpectedValue (option : String)
  | emptyValue
  | repeatedOption (option : String)
  | unknownEmit (value : String)
  | unexpectedArgument (argument : String)
  | missingManifest
  deriving DecidableEq, Repr

/-- The wording of an error. -/
def UsageError.message : UsageError → String
  | unknownOption option => "unknown option '" ++ option ++ "'"
  | missingValue option => "option '" ++ option ++ "' needs a value"
  | unexpectedValue option => "option '" ++ option ++ "' takes no value"
  | emptyValue => "a value is empty"
  | repeatedOption option => "option '" ++ option ++ "' is given twice"
  | unknownEmit value => "'" ++ value ++ "' is not one of source, compiled, descriptor"
  | unexpectedArgument argument => "unexpected argument '" ++ argument ++ "'"
  | missingManifest => "no manifest is given"

/-- What a command line makes the program do. -/
inductive Request where
  | compile (arguments : Arguments)
  /-- Explain the command line. -/
  | help
  deriving DecidableEq, Repr

namespace Arguments

/-! ## Options -/

/-- The options that take a value. -/
inductive ValueOption where
  | config
  | outputDirectory
  | emit
  deriving DecidableEq, Repr

/-- The options. -/
inductive Choice where
  | valued (option : ValueOption)
  | verbose
  | help
  deriving DecidableEq, Repr

/-- The option of a given name. -/
def Choice.ofName? (name : List Char) : Option Choice :=
  if name = "config".toList then some (.valued .config)
  else if name = "out-dir".toList then some (.valued .outputDirectory)
  else if name = "emit".toList then some (.valued .emit)
  else if name = "verbose".toList then some .verbose
  else if name = "help".toList then some .help
  else none

/-- The option of a given letter. -/
def Choice.ofLetter? : Char → Option Choice
  | 'c' => some (.valued .config)
  | 'o' => some (.valued .outputDirectory)
  | 'e' => some (.valued .emit)
  | 'v' => some .verbose
  | 'h' => some .help
  | _ => none

/-- The option as it is written in full. -/
def ValueOption.written : ValueOption → String
  | config => "--config"
  | outputDirectory => "--out-dir"
  | emit => "--emit"

/-! ## Collecting -/

/-- What has been given so far, and the option that still waits for its value. -/
structure Collected where
  manifest : Option String := none
  config : Option String := none
  outputDirectory : Option String := none
  emit : Option Emit := none
  verbosity : Nat := 0
  pending : Option ValueOption := none

/-- A text that may only be given once and must not be empty. -/
def giveOnce (before : Option String) (option value : String) :
    Except UsageError (Option String) :=
  if before.isSome then .error (.repeatedOption option)
  else if value = "" then .error .emptyValue
  else .ok (some value)

/-- Give an option its value. -/
def Collected.give (c : Collected) (option : ValueOption) (value : String) :
    Except UsageError Collected :=
  let c := { c with pending := none }
  match option with
  | .config => do pure { c with config := ← giveOnce c.config option.written value }
  | .outputDirectory => do
    pure { c with outputDirectory := ← giveOnce c.outputDirectory option.written value }
  | .emit =>
    match c.emit, Emit.ofName? value with
    | some _, _ => .error (.repeatedOption option.written)
    | none, some emit => .ok { c with emit := some emit }
    | none, none => .error (.unknownEmit value)

/-- Take an argument that belongs to no option. -/
def Collected.operand (c : Collected) (argument : String) : Except UsageError Collected :=
  match c.manifest with
  | some _ => .error (.unexpectedArgument argument)
  | none => if argument = "" then .error .emptyValue else .ok { c with manifest := some argument }

/-- The request once all arguments are taken. -/
def Collected.finish (c : Collected) : Except UsageError Request :=
  match c.pending, c.manifest with
  | some option, _ => .error (.missingValue option.written)
  | none, none => .error .missingManifest
  | none, some manifest =>
    .ok (.compile ⟨manifest, c.config, c.outputDirectory, c.emit.getD .source, c.verbosity⟩)

/-! ## Reading -/

/-- The value that stands behind the letter of its option, perhaps after an equals sign. -/
def attachedValue? : List Char → Option String
  | [] => none
  | '=' :: value => some (String.ofList value)
  | value => some (String.ofList value)

/-- Take the letters behind one hyphen, or ask for help. -/
def Collected.letters (c : Collected) : List Char → Except UsageError (Option Collected)
  | [] => .ok (some c)
  | letter :: rest =>
    match Choice.ofLetter? letter with
    | none => .error (.unknownOption (String.ofList ['-', letter]))
    | some .help => .ok none
    | some .verbose => { c with verbosity := c.verbosity + 1 }.letters rest
    | some (.valued option) =>
      match attachedValue? rest with
      | none => .ok (some { c with pending := some option })
      | some value => some <$> c.give option value

/-- Take what stands behind two hyphens, or ask for help. -/
def Collected.long (c : Collected) (body : List Char) : Except UsageError (Option Collected) :=
  let name := body.takeWhile (· != '=')
  let written := "--" ++ String.ofList name
  let value? := match body.drop name.length with
    | _ :: value => some (String.ofList value)
    | [] => none
  match Choice.ofName? name, value? with
  | none, _ => .error (.unknownOption written)
  | some (.valued option), some value => some <$> c.give option value
  | some (.valued option), none => .ok (some { c with pending := some option })
  | some .help, none => .ok none
  | some .verbose, none => .ok (some { c with verbosity := c.verbosity + 1 })
  | some .help, some _ | some .verbose, some _ => .error (.unexpectedValue written)

/-- What one argument is. -/
inductive Form where
  /-- Two bare hyphens. -/
  | separator
  | long (body : List Char)
  | letters (letters : List Char)
  /-- No option. A lone hyphen is none either. -/
  | word

/-- What an argument is. -/
def Form.of (argument : String) : Form :=
  match argument.toList with
  | ['-', '-'] => separator
  | '-' :: '-' :: body => long body
  | '-' :: letter :: rest => letters (letter :: rest)
  | _ => word

/-- Take the arguments one after the other. An option never serves as a value. -/
def readFrom (c : Collected) : List String → Except UsageError Request
  | [] => c.finish
  | argument :: rest =>
    match c.pending, Form.of argument with
    | some option, .word => do readFrom (← c.give option argument) rest
    | some option, _ => .error (.missingValue option.written)
    | none, .word => do readFrom (← c.operand argument) rest
    | none, .separator => do (← rest.foldlM Collected.operand c).finish
    | none, .long body => do
      match ← c.long body with
      | some c => readFrom c rest
      | none => pure .help
    | none, .letters letters => do
      match ← c.letters letters with
      | some c => readFrom c rest
      | none => pure .help

/-- The request that a command line makes. -/
def read (arguments : List String) : Except UsageError Request := readFrom {} arguments

end Arguments

end TemplateCompiler
