import TemplateCompiler.Files.Path

/-!
# File trees

Why reading or writing a file fails, and a tree of files in memory that fails in the same ways.

## Main definitions

* `FileError` — why a file cannot be read or written
* `FileTree` — files and directories by the names that lead to them
* `FileTree.locate` — where a path leads
* `FileTree.readText`, `FileTree.makeDirectory`, `FileTree.writeText`
-/
namespace TemplateCompiler

/-- Why a file cannot be read or written. -/
inductive FileError where
  | notFound
  | taken
  | notADirectory
  | isADirectory
  /-- The content is not text in UTF-8. -/
  | invalidText
  /-- A name or the whole path is longer than files have it. -/
  | nameTooLong
  /-- The path holds the character with the number zero. -/
  | invalidPath
  | other (reason : String)
  deriving DecidableEq, Repr

/-- The wording of an error. -/
def FileError.message : FileError → String
  | notFound => "No such file or directory (os error 2)"
  | taken => "File exists (os error 17)"
  | notADirectory => "Not a directory (os error 20)"
  | isADirectory => "Is a directory (os error 21)"
  | invalidText => "stream did not contain valid UTF-8"
  | nameTooLong => "File name too long (os error 36)"
  | invalidPath => "file name contained an unexpected NUL byte"
  | other reason => reason

/-- The content of a file as text. -/
def decodeText (content : ByteArray) : Except FileError String :=
  match String.fromUTF8? content with
  | some text => .ok text
  | none => .error .invalidText

/-! ## Paths that can lead nowhere -/

/-- The greatest number of bytes in a name. -/
def nameLimit : Nat := 255

/-- The greatest number of bytes in a path. -/
def pathLimit : Nat := 4095

/-- Refuse a path that cannot lead anywhere, whatever files there are. -/
def checkPath (path : String) : Except FileError Unit :=
  if path.toList.contains '\x00' then .error .invalidPath
  else if pathLimit < path.utf8ByteSize then .error .nameTooLong
  else .ok ()

/-! ## Places -/

/-- The names that lead to a file or directory from the working directory. Two dots may stand in
front, for each directory that lies above it. -/
abbrev Place := List String

/-- Whether a place is the working directory or above it. -/
def isAtOrAbove (place : Place) : Bool := place.all (· == "..")

/-- The directory that holds what is at a place. -/
def outside (place : Place) : Place :=
  if isAtOrAbove place then ".." :: place else place.dropLast

/-- The place that a name leads to from a directory. -/
def enter (directory : Place) (name : String) : Except FileError Place :=
  if name = "." then .ok directory
  else if name = ".." then .ok (outside directory)
  else if nameLimit < name.utf8ByteSize then .error .nameTooLong
  else .ok (directory ++ [name])

/-! ## Trees -/

/-- Files and directories. Of those outside the working directory only what has been added is
known, and the directories above it. -/
structure FileTree where
  files : List (Place × ByteArray)
  directories : List Place

namespace FileTree

/-- What is at a place. -/
inductive Kind where
  | file (content : ByteArray)
  | directory

/-- What is at a place. The working directory is there, and so are all directories that lead to a
file. -/
def kind? (t : FileTree) (place : Place) : Option Kind :=
  match t.files.find? fun entry => entry.1 == place with
  | some entry => some (.file entry.2)
  | none =>
    if isAtOrAbove place || t.directories.any place.isPrefixOf ||
        t.files.any (fun entry => place.isPrefixOf entry.1) then some .directory
    else none

/-- The directory that names lead to from another one. -/
def walk (t : FileTree) (directory : Place) : (names : List String) → Except FileError Place
  | [] => .ok directory
  | name :: names => do
    let next ← enter directory name
    match t.kind? next with
    | some .directory => t.walk next names
    | some (.file _) => .error .notADirectory
    | none => .error .notFound

/-- The place that a path leads to. All names but the last one have to be directories. The root is
some directory, but nothing is known about what is in it. -/
def locate (t : FileTree) (path : String) : Except FileError Place := do
  checkPath path
  match Path.isAbsolute path, (Path.names path).reverse with
  | true, [] => pure []
  | true, _ :: _ | false, [] => throw .notFound
  | false, last :: before => enter (← t.walk [] before.reverse) last

/-- Whether a path leads to a directory. -/
def isDirectory (t : FileTree) (path : String) : Bool :=
  match (t.locate path).toOption.bind t.kind? with
  | some .directory => true
  | _ => false

/-- The text of a file. -/
def readText (t : FileTree) (path : String) : Except FileError String := do
  let place ← t.locate path
  match t.kind? place with
  | none => throw .notFound
  | some .directory => throw .isADirectory
  | some (.file content) =>
    if Path.endsWithSlash path then throw .notADirectory else decodeText content

/-- Make a directory where nothing is yet. -/
def makeDirectory (t : FileTree) (path : String) : Except FileError FileTree := do
  let place ← t.locate path
  match t.kind? place with
  | some _ => throw .taken
  | none => pure { t with directories := t.directories ++ [place] }

/-- Write a file, replacing what was in it. -/
def writeText (t : FileTree) (path text : String) : Except FileError FileTree := do
  let place ← t.locate path
  match t.kind? place with
  | some .directory => throw .isADirectory
  | some (.file _) =>
    if Path.endsWithSlash path then throw .notADirectory
    else
      pure { t with files := t.files.map fun entry =>
        if entry.1 = place then (place, text.toUTF8) else entry }
  | none =>
    if Path.endsWithSlash path then throw .isADirectory
    else pure { t with files := t.files ++ [(place, text.toUTF8)] }

/-- A tree that holds the given files. -/
def ofFiles (files : List (String × ByteArray)) : FileTree :=
  ⟨files.map fun (path, content) => (Path.parts path, content), []⟩

/-- The path of a place. -/
def pathOf (place : Place) : String := String.intercalate "/" place

/-- Whether a place comes before another one or is the same, by their names one after the other. -/
def isAtOrBefore : Place → Place → Bool
  | [], _ => true
  | _ :: _, [] => false
  | a :: place, b :: other => if a = b then isAtOrBefore place other else a ≤ b

/-- The files below the working directory that are in the tree but were not in an earlier one. They
are sorted by the names that lead to them, one name after the other. -/
def newFiles (t earlier : FileTree) : List (String × ByteArray) :=
  let added := t.files.filter fun entry =>
    entry.1.head? != some ".." && !(earlier.files.any fun old => old.1 == entry.1)
  let sorted := added.mergeSort fun a b => isAtOrBefore a.1 b.1
  sorted.map fun (place, content) => (pathOf place, content)

end FileTree

end TemplateCompiler
