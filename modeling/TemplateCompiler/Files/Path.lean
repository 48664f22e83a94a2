/-!
# Paths

Paths are texts with slashes between their parts.

## Main definitions

* `Path.join` — a path relative to another one
* `Path.parent?` — the directory that holds a file
* `Path.ancestors` — a path and the directories that lead to it
* `Path.names`, `Path.parts` — the names in a path
-/
namespace TemplateCompiler.Path

/-- Whether a path begins at the root. -/
def isAbsolute (path : String) : Bool := path.toList.head? == some '/'

/-- The path `relative` as seen from the directory `base`. An absolute path stays as it is, and a
slash is added only where one is missing. -/
def join (base relative : String) : String :=
  if isAbsolute relative ∨ base = "" then relative
  else if base.toList.getLast? = some '/' then base ++ relative
  else base ++ "/" ++ relative

/-- The pieces between slashes, given the one under way, last character first. -/
def piecesFrom (piece : List Char) : List Char → List (List Char)
  | [] => [piece.reverse]
  | c :: rest =>
    if c = '/' then piece.reverse :: piecesFrom [] rest else piecesFrom (c :: piece) rest

/-- The pieces of a path between its slashes. -/
def pieces (path : String) : List (List Char) := piecesFrom [] path.toList

/-- The names in a path, dots among them. -/
def names (path : String) : List String := ((pieces path).filter (· != [])).map String.ofList

/-- The names in a path that lead somewhere, so without single dots. -/
def parts (path : String) : List String := (names path).filter (· != ".")

/-- Whether a path ends with a slash, so that it can only mean a directory. -/
def endsWithSlash (path : String) : Bool := path.toList.getLast? == some '/'

/-- Drop slashes and single dots from the end of a path, given last character first. A dot that
begins a relative path stays, and so does the slash of the root. -/
def trimReversed : List Char → List Char
  | ['/'] => ['/']
  | '/' :: rest => trimReversed rest
  | '.' :: '/' :: rest => trimReversed ('/' :: rest)
  | reversed => reversed

/-- The directory that holds what the path names: the path without its last name. The root has
none, nor has the empty path. -/
def parent? (path : String) : Option String :=
  match trimReversed path.toList.reverse with
  | [] | ['/'] => none
  | trimmed => some (String.ofList (trimReversed (trimmed.dropWhile (· != '/'))).reverse)

/-- A path and the directories that lead to it, the path first and at most `fuel` of them. -/
def ancestorsUpTo : (fuel : Nat) → (path : String) → List String
  | 0, _ => []
  | fuel + 1, path =>
    if path = "" then []
    else
      match parent? path with
      | some directory => path :: ancestorsUpTo fuel directory
      | none => [path]

/-- A path and the directories that lead to it, the path first. Every one of them is shorter than
the one before. -/
def ancestors (path : String) : List String := ancestorsUpTo (path.length + 1) path

end TemplateCompiler.Path
