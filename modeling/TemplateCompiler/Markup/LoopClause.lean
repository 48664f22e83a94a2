import TemplateCompiler.Diagnostic
import TemplateCompiler.Markup.Element
import TemplateCompiler.Text.Identifier

/-!
# Loop clauses

The value of a loop directive, such as `(Todo todo, index) in todos`, names the variables of the
loop and the collection it runs over.

A reader of a part of the clause returns an `Attempt`: what it read, if it did, and the notes it
made about places where it could not go on. Notes never influence what is read. When the whole
clause is refused they decide which place is blamed: a missing character is remembered if no
other place further on is, while refusing something that has been read forgets all notes before.

## Main definitions

* `Markup.LoopVariable`, `Markup.LoopClause`
* `Markup.Attempt`, `Markup.Note` — the outcome of a reader and the notes it made
* `Markup.readClause` — the grammar of clauses
* `Markup.blame` — the complaint that the notes amount to
* `Markup.LoopClause.read` — the clause, or the reason why it is none
-/
namespace TemplateCompiler.Markup

open Text

/-- A variable of a loop, with its type when the clause declares one. -/
structure LoopVariable where
  typeName : Option String
  name : String
  deriving DecidableEq, Repr

/-- The variables of a loop and the collection it runs over, whose span is relative to the text of
the clause. -/
structure LoopClause where
  bindings : List LoopVariable
  collection : Located
  deriving DecidableEq, Repr

/-! ## Complaints and notes -/

/-- Something wrong at a place in the clause. The place is given by the text from there on, so a
shorter text is a place further on. -/
structure Complaint where
  here : List Char
  /-- How many characters are at fault. -/
  width : Nat
  found : Option Char
  expected : List String
  /-- A wording of its own instead of what was found. -/
  wording : Option String
  deriving DecidableEq, Repr

/-- What a reader notes down where it cannot go on. -/
inductive Note where
  /-- Something is missing at a place. -/
  | missing (here : List Char) (expected : String)
  /-- What was read is refused. -/
  | refused (complaint : Complaint)
  deriving DecidableEq, Repr

/-- The complaint about the next character, or about the end of the clause. -/
def complaintAt (here : List Char) (expected : String) : Complaint :=
  ⟨here, min 1 here.length, here.head?, [expected], none⟩

/-- Take one more missing thing into account. The place further on wins; at the same place the
things expected are collected. -/
def Complaint.meet (here : List Char) (expected : String) (old : Complaint) : Complaint :=
  if here.length < old.here.length then complaintAt here expected
  else if old.here.length < here.length ∨ old.wording.isSome then old
  else
    { old with
      found := old.found.or here.head?
      expected := if expected ∈ old.expected then old.expected else old.expected ++ [expected] }

/-- The complaint after one more note. -/
def Note.follow (current : Option Complaint) : Note → Option Complaint
  | missing here expected =>
    some (match current with
      | none => complaintAt here expected
      | some old => old.meet here expected)
  | refused complaint => some complaint

/-- The complaint that the notes amount to. -/
def blame (notes : List Note) : Option Complaint := notes.foldl Note.follow none

/-- The complaint in words, with the byte span it has in the clause `text`. -/
def Complaint.diagnostic (text : List Char) (complaint : Complaint) : Diagnostic :=
  let start := byteLength text - byteLength complaint.here
  { span := ⟨start, start + byteLength (complaint.here.take complaint.width)⟩
    message := match complaint.wording, complaint.found with
      | some wording, _ => wording
      | none, some c => "Unexpected '" ++ String.singleton c ++ "'"
      | none, none => "Unexpected end of input"
    expected := complaint.expected }

/-! ## Attempts -/

/-- What a reader made of the text: a value and the text left, or nothing, and its notes. -/
structure Attempt (α : Type) where
  outcome : Option (α × List Char)
  notes : List Note

namespace Attempt

variable {α β : Type}

/-- Success with a value. -/
def done (value : α) (rest : List Char) (notes : List Note) : Attempt α :=
  ⟨some (value, rest), notes⟩

/-- Failure. -/
def failed (notes : List Note) : Attempt α := ⟨none, notes⟩

/-- Go on with what has been read. -/
def andThen (first : Attempt α) (next : α → List Char → Attempt β) : Attempt β :=
  match first.outcome with
  | some (value, rest) => ⟨(next value rest).outcome, first.notes ++ (next value rest).notes⟩
  | none => ⟨none, first.notes⟩

/-- Try something else, but keep the notes. -/
def orElse (first : Attempt α) (other : Attempt α) : Attempt α :=
  match first.outcome with
  | some _ => first
  | none => ⟨other.outcome, first.notes ++ other.notes⟩

/-- Read nothing where nothing can be read. -/
def optional (first : Attempt α) (text : List Char) : Attempt (Option α) :=
  match first.outcome with
  | some (value, rest) => ⟨some (some value, rest), first.notes⟩
  | none => ⟨some (none, text), first.notes⟩

/-- Change the value. -/
def map (f : α → β) (first : Attempt α) : Attempt β :=
  ⟨first.outcome.map fun (value, rest) => (f value, rest), first.notes⟩

@[simp] theorem outcome_andThen (first : Attempt α) (next : α → List Char → Attempt β) :
    (first.andThen next).outcome =
      first.outcome.bind fun (value, rest) => (next value rest).outcome := by
  unfold andThen; split <;> simp [*]

@[simp] theorem outcome_orElse (first other : Attempt α) :
    (first.orElse other).outcome = first.outcome.or other.outcome := by
  unfold orElse; split <;> simp [*]

@[simp] theorem outcome_map (f : α → β) (first : Attempt α) :
    (first.map f).outcome = first.outcome.map fun (value, rest) => (f value, rest) := rfl

end Attempt

/-! ## Words and marks -/

/-- The note of a run of characters that stops at `rest`. -/
def stopNote (rest : List Char) (class_ : String) : Note :=
  match rest with
  | [] => .missing [] "any"
  | _ :: _ => .refused (complaintAt rest class_)

/-- An identifier. -/
def readWord (cs : List Char) : Attempt String :=
  match cs with
  | c :: rest =>
    if isIdentifierStart c then
      let word := cutRun isIdentifierContinue rest
      .done (String.ofList (c :: word.taken)) word.rest [stopNote word.rest "identifier"]
    else .failed [stopNote cs "identifier"]
  | [] => .failed [stopNote cs "identifier"]

/-- Refuse the word that was read at `here`. -/
def refuseWord (here : List Char) (word : String) (expected : List String)
    (wording : Option String) : Note :=
  .refused ⟨here, word.length, none, expected, wording⟩

/-- The words that separate the variables of a clause from its collection. -/
def isKeyword (word : String) : Bool := word == "in" || word == "of"

/-- An identifier that can name a variable or a type. -/
def readName (cs : List Char) : Attempt String :=
  (readWord cs).andThen fun word rest =>
    if isKeyword word then .failed [refuseWord cs word [] (some "expected a loop variable")]
    else .done word rest []

/-- One given word. -/
def readKeyword (keyword : String) (cs : List Char) : Attempt Unit :=
  (readWord cs).andThen fun word rest =>
    if word = keyword then .done () rest [] else .failed [refuseWord cs word [keyword] none]

/-- One given character. -/
def readMark (mark : Char) (cs : List Char) : Attempt Unit :=
  let note := Note.missing cs ("''" ++ String.singleton mark ++ "''")
  match cs with
  | c :: rest => if c = mark then .done () rest [] else .failed [note]
  | [] => .failed [note]

/-- One given character with blanks around it. -/
def readPaddedMark (mark : Char) (cs : List Char) : Attempt Unit :=
  (readMark mark (trimStart cs)).andThen fun _ rest => .done () (trimStart rest) []

/-- A run of blanks, which may be empty. -/
def readBlanks (cs : List Char) : Attempt (List Char) :=
  let run := cutRun isBlank cs
  .done run.taken run.rest [stopNote run.rest "whitespace"]

/-! ## Variables -/

/-- Further items, each after a separator. A separator without an item after it is not taken. The
fuel bounds the number of items; the length of the text is enough. -/
def readMore {α : Type} (separator : List Char → Attempt Unit) (item : List Char → Attempt α) :
    Nat → List Char → Attempt (List α)
  | 0, cs => .done [] cs []
  | fuel + 1, cs =>
    let next := (separator cs).andThen fun _ rest => item rest
    match next.outcome with
    | some (value, rest) =>
      let more := readMore separator item fuel rest
      ⟨more.outcome.map fun (values, rest) => (value :: values, rest), next.notes ++ more.notes⟩
    | none => .done [] cs next.notes

/-- One or more items with separators between them. -/
def readSeparated {α : Type} (separator : List Char → Attempt Unit)
    (item : List Char → Attempt α) (cs : List Char) : Attempt (List α) :=
  (item cs).andThen fun value rest =>
    (readMore separator item (rest.length + 1) rest).map (value :: ·)

/-- A type: names with dots between them. -/
def readTypePath (cs : List Char) : Attempt String :=
  (readSeparated (readMark '.') readName cs).map (String.intercalate ".")

/-- The name after a declared type, which blanks have to separate from it. -/
def readDeclaredName (cs : List Char) : Attempt String :=
  (readBlanks cs).andThen fun blanks rest =>
    if blanks.isEmpty then .failed [] else readName rest

/-- A variable: a name, or a type, blanks and a name. -/
def readVariable (cs : List Char) : Attempt LoopVariable :=
  (readTypePath cs).andThen fun first rest =>
    ((readDeclaredName rest).optional rest).map fun
      | some name => ⟨some first, name⟩
      | none => ⟨none, first⟩

/-- Variables in parentheses with commas between them. -/
def readVariableList (cs : List Char) : Attempt (List LoopVariable) :=
  (readPaddedMark '(' cs).andThen fun _ rest =>
    (readSeparated (readPaddedMark ',') readVariable rest).andThen fun bindings rest =>
      (readPaddedMark ')' rest).map fun _ => bindings

/-- A list of variables or a single one. -/
def readVariables (cs : List Char) : Attempt (List LoopVariable) :=
  (readVariableList cs).orElse ((readVariable cs).map fun single => [single])

/-! ## The whole clause -/

/-- The collection is all text that is left, of which there has to be some. -/
def readCollection (cs : List Char) : Attempt (List Char) :=
  if cs.isEmpty then .failed [.missing [] "any"] else .done cs [] [.missing [] "any"]

/-- The variables of a clause and the text of its collection. -/
def readClause (cs : List Char) : Attempt (List LoopVariable × List Char) :=
  (readVariables (trimStart cs)).andThen fun bindings rest =>
    let here := trimStart rest
    ((readKeyword "in" here).orElse (readKeyword "of" here)).andThen fun _ rest =>
      (readBlanks rest).andThen fun _ rest =>
        (readCollection rest).map fun collection => (bindings, collection)

/-- The clause with the given parts in the text `cs`. Blanks at the end do not belong to the
collection. -/
def LoopClause.ofParts (cs : List Char) (bindings : List LoopVariable)
    (collection : List Char) : LoopClause :=
  let start := byteLength cs - byteLength collection
  let text := trimEnd collection
  ⟨bindings, ⟨String.ofList text, ⟨start, start + byteLength text⟩⟩⟩

/-- Read the text of a loop clause. -/
def LoopClause.read (clause : String) : Except Diagnostic LoopClause :=
  let cs := clause.toList
  let attempt := readClause cs
  match attempt.outcome with
  | some ((bindings, collection), _) => .ok (.ofParts cs bindings collection)
  | none =>
    .error (((blame attempt.notes).getD (complaintAt cs "any")).diagnostic cs)

end TemplateCompiler.Markup
