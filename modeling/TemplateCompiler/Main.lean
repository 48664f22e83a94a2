import TemplateCompiler.CommandLine.Run

/-!
# The program

The command line on the files and streams of the machine.
-/
namespace TemplateCompiler

/-- Whether a number from the machine stands for the reason `code`; some actions negate it. -/
def isReason (number code : UInt32) : Bool := number == code || number + code == 0

/-- The reason why the machine refuses an action on a file. -/
def FileError.ofIO (error : IO.Error) : FileError :=
  match error with
  | .noFileOrDirectory _ _ _ => .notFound
  | .alreadyExists _ _ _ => .taken
  | .inappropriateType _ number _ =>
    if isReason number 20 then .notADirectory else .isADirectory
  | .invalidArgument _ number _ =>
    if isReason number 36 then .nameTooLong else .other (toString error)
  | _ => .other (toString error)

/-- An action on a path whose refusal is a result. -/
def attempt {α : Type} (path : String) (action : IO α) : IO (Except FileError α) := do
  match checkPath path with
  | .error error => pure (.error error)
  | .ok () =>
    match ← action.toBaseIO with
    | .ok value => pure (.ok value)
    | .error error => pure (.error (.ofIO error))

/-- The host that works on the machine. Reading a directory tells that it is one. -/
def machineHost : Host IO where
  readText path := do
    match ← attempt path (IO.FS.readBinFile path) with
    | .ok content => pure (decodeText content)
    | .error error => pure (.error error)
  makeDirectory path := attempt path (IO.FS.createDir path)
  isDirectory path := do
    match ← attempt path (IO.FS.readBinFile path) with
    | .error .isADirectory => pure true
    | _ => pure false
  writeText path text := attempt path (IO.FS.writeFile path text)
  print text := do (← IO.getStdout).putStr text
  complain text := do (← IO.getStderr).putStr text

end TemplateCompiler

/-- Run the program on its arguments. -/
def main (arguments : List String) : IO UInt32 := do
  pure (← TemplateCompiler.CommandLine.run TemplateCompiler.machineHost arguments).toUInt32
