import TemplateCompiler.Json.Value

/-!
# Reading JSON

A reader takes characters from the front of the text and either returns a value or reports a
fault: the text ended too early, it is malformed, it is nested too deeply, or it is well formed
but not what the reader wants. A fault holds the text left at its place, which gives its position.

## Main definitions

* `Json.Fault`, `Json.Reader`
* `Json.readString`, `Json.readNumber`, `Json.readWord` — the leaves
* `Json.readElements`, `Json.readMembers` — containers, with a reader for what is in them
* `Json.readValue` — any value, up to a depth
* `Json.skipValue` — any value, without looking into it
* `Json.parse` — a whole text
-/
namespace TemplateCompiler.Json

/-- What can be wrong with JSON text. -/
inductive Fault.Kind where
  /-- The text ends inside a value. -/
  | ended
  /-- The text is no JSON. -/
  | malformed
  /-- More containers are nested than the reader allows. -/
  | tooDeep
  /-- The value is not of the kind that is wanted. -/
  | mismatched
  deriving DecidableEq, Repr

/-- A fault and the text from its place on. -/
structure Fault where
  kind : Fault.Kind
  here : List Char
  deriving Repr

/-- A function that takes characters from the front of the text. -/
abbrev Reader := StateT (List Char) (Except Fault)

/-- Report a fault at the present place. -/
def fault {α : Type} (kind : Fault.Kind) : Reader α := fun here => .error ⟨kind, here⟩

/-! ## Characters -/

/-- The characters that may stand between the parts of a value. -/
def isBlank (c : Char) : Bool := c == ' ' || c == '\n' || c == '\t' || c == '\r'

/-- The next character, which is left in place. -/
def peek : Reader (Option Char) := fun here => .ok (here.head?, here)

/-- Skip blanks and look at the next character. -/
def peekAfterBlanks : Reader (Option Char) := fun here =>
  let rest := here.dropWhile isBlank
  .ok (rest.head?, rest)

/-- Take one character. -/
def advance : Reader Unit := fun here => .ok ((), here.drop 1)

/-- Take a run of digits. -/
def takeDigits : Reader (List Char) := fun here =>
  .ok (here.takeWhile Char.isDigit, here.dropWhile Char.isDigit)

/-- The letters of a word that has to come next. -/
def readLetters : List Char → Reader Unit
  | [] => pure ()
  | letter :: letters => do
    match ← peek with
    | none => fault .ended
    | some c =>
      if c = letter then
        advance
        readLetters letters
      else fault .malformed

/-! ## Strings -/

/-- A hexadecimal digit as a number. -/
def hexValue? (c : Char) : Option Nat :=
  if c.isDigit then some (c.toNat - '0'.toNat)
  else if 'a' ≤ c ∧ c ≤ 'f' then some (c.toNat - 'a'.toNat + 10)
  else if 'A' ≤ c ∧ c ≤ 'F' then some (c.toNat - 'A'.toNat + 10)
  else none

/-- The number that hexadecimal digits spell. -/
def ofHex? (ds : List Char) : Option Nat :=
  ds.foldl (fun n d => do pure (16 * (← n) + (← hexValue? d))) (some 0)

/-- Four hexadecimal digits. Text of fewer than four bytes counts as ended, whatever it holds. -/
def readHex : Reader Nat := fun here =>
  let four := here.take 4
  if Text.byteLength four < 4 then .error ⟨.ended, []⟩
  else
    match four.length == 4, ofHex? four with
    | true, some n => .ok (n, here.drop 4)
    | _, _ => .error ⟨.malformed, here.drop 4⟩

/-- The character that a letter after a backslash stands for. -/
def simpleEscape? (c : Char) : Option Char :=
  if c = '"' ∨ c = '\\' ∨ c = '/' then some c
  else if c = 'b' then some '\x08'
  else if c = 'f' then some '\x0c'
  else if c = 'n' then some '\n'
  else if c = 'r' then some '\r'
  else if c = 't' then some '\t'
  else none

/-- Whether a code unit is the first half of a pair. -/
def isHighHalf (n : Nat) : Bool := 0xd800 ≤ n && n < 0xdc00

/-- Whether a code unit is the second half of a pair. -/
def isLowHalf (n : Nat) : Bool := 0xdc00 ≤ n && n < 0xe000

/-- The character that follows a backslash and the letter `u`. A character outside the first
plane is written as two code units, each of them with a backslash and the letter. -/
def readCodeUnits : Reader Char := do
  let first ← readHex
  if isLowHalf first then fault .malformed
  else if isHighHalf first then do
    match ← peek with
    | none => fault .ended
    | some c => if c = '\\' then advance else fault .malformed
    match ← peek with
    | none => fault .ended
    | some c => if c = 'u' then advance else fault .malformed
    let second ← readHex
    if isLowHalf second then
      pure (Char.ofNat (0x10000 + 0x400 * (first - 0xd800) + (second - 0xdc00)))
    else fault .malformed
  else pure (Char.ofNat first)

/-- What follows a backslash inside a string. -/
def readEscape : Reader Char := do
  match ← peek with
  | none => fault .ended
  | some c =>
    advance
    match simpleEscape? c with
    | some plain => pure plain
    | none => if c = 'u' then readCodeUnits else fault .malformed

/-- The rest of a string, after its opening quote and the characters read before, last first.
Every step takes a character, so the length of the text is enough fuel. -/
def readStringTail (before : List Char) : (fuel : Nat) → Reader (List Char)
  | 0, here => .error ⟨.ended, here⟩
  | _ + 1, [] => .error ⟨.ended, []⟩
  | fuel + 1, c :: rest =>
    if c = '"' then .ok (before.reverse, rest)
    else if c = '\\' then
      match readEscape rest with
      | .ok (plain, rest) => readStringTail (plain :: before) fuel rest
      | .error f => .error f
    else if c.toNat < 0x20 then .error ⟨.malformed, c :: rest⟩
    else readStringTail (c :: before) fuel rest

/-- A string, after its opening quote. -/
def readString (fuel : Nat) : Reader String := do
  pure (String.ofList (← readStringTail [] fuel))

/-! ## Numbers -/

/-- A digit that has to come next, and those after it. -/
def readSomeDigits : Reader (List Char) := do
  match ← peek with
  | none => fault .ended
  | some c => if c.isDigit then takeDigits else fault .malformed

/-- The digits before the point. A leading zero stands alone. -/
def readWhole : Reader (List Char) := do
  match ← peek with
  | none => fault .ended
  | some '0' => do
    advance
    match ← peek with
    | some c => if c.isDigit then fault .malformed else pure ['0']
    | none => pure ['0']
  | some c => if c.isDigit then takeDigits else fault .malformed

/-- The digits after a point, if there is one. -/
def readPlaces : Reader (Option (List Char)) := do
  match ← peek with
  | some '.' => do
    advance
    pure (some (← readSomeDigits))
  | _ => pure none

/-- The power of ten, if one is given. -/
def readExponent : Reader (Option Int) := do
  let next ← peek
  if next = some 'e' ∨ next = some 'E' then
    advance
    match ← peek with
    | some '-' => do
      advance
      pure (some (-(ofDigits (← readSomeDigits) : Int)))
    | some '+' => do
      advance
      pure (some (ofDigits (← readSomeDigits)))
    | _ => pure (some (ofDigits (← readSomeDigits)))
  else pure none

/-- A number as written. -/
def readNumberText : Reader NumberText := do
  match ← peek with
  | some '-' => do
    advance
    pure ⟨true, ← readWhole, ← readPlaces, ← readExponent⟩
  | _ => pure ⟨false, ← readWhole, ← readPlaces, ← readExponent⟩

/-- A number. -/
def readNumber : Reader Number := do
  match (← readNumberText).value? with
  | some value => pure value
  | none => fault .malformed

/-! ## Containers -/

/-- The items of an array, after its opening bracket and any items before. The fuel bounds the
number of items. -/
def readElements {α : Type} (item : Reader α) : (fuel : Nat) → (isFirst : Bool) → Reader (List α)
  | 0, _ => fault .ended
  | fuel + 1, isFirst => do
    match ← peekAfterBlanks with
    | none => fault .ended
    | some c =>
      if c = ']' then
        advance
        pure []
      else do
        unless isFirst do
          if c = ',' then
            advance
            match ← peekAfterBlanks with
            | none => fault .ended
            | some ']' => fault .malformed
            | some _ => pure ()
          else fault .malformed
        let value ← item
        pure (value :: (← readElements item fuel false))

/-- The colon between a key and its value. -/
def readColon : Reader Unit := do
  match ← peekAfterBlanks with
  | none => fault .ended
  | some ':' => advance
  | some _ => fault .malformed

/-- The members of an object, after its opening brace and any members before. The reader of a
member is given its key and what has been read so far; it begins before the colon. The fuel
bounds the number of members. -/
def readMembers {σ : Type} (member : String → σ → Reader σ) :
    (fuel : Nat) → (isFirst : Bool) → σ → Reader σ
  | 0, _, _ => fault .ended
  | fuel + 1, isFirst, soFar => do
    match ← peekAfterBlanks with
    | none => fault .ended
    | some c =>
      if c = '}' then
        advance
        pure soFar
      else do
        unless isFirst do
          if c = ',' then
            advance
            match ← peekAfterBlanks with
            | none => fault .ended
            | some _ => pure ()
          else fault .malformed
        match ← peek with
        | some '"' => do
          advance
          let key ← readString (fuel + 1)
          readMembers member fuel false (← member key soFar)
        | _ => fault .malformed

/-! ## Any value -/

/-- Any value. At most `depth` containers may be nested, and the last of them is refused. -/
def readValue : (fuel : Nat) → (depth : Nat) → Reader Value
  | 0, _ => fault .ended
  | fuel + 1, depth => do
    match ← peekAfterBlanks with
    | none => fault .ended
    | some 'n' => do
      readLetters ['n', 'u', 'l', 'l']
      pure .null
    | some 't' => do
      readLetters ['t', 'r', 'u', 'e']
      pure (.bool true)
    | some 'f' => do
      readLetters ['f', 'a', 'l', 's', 'e']
      pure (.bool false)
    | some '"' => do
      advance
      pure (.string (← readString (fuel + 1)))
    | some '[' =>
      if depth ≤ 1 then fault .tooDeep
      else do
        advance
        pure (.array (← readElements (readValue fuel (depth - 1)) (fuel + 1) true))
    | some '{' =>
      if depth ≤ 1 then fault .tooDeep
      else do
        advance
        let member (key : String) (soFar : List (String × Value)) :
            Reader (List (String × Value)) := do
          readColon
          let value ← readValue fuel (depth - 1)
          pure (upsertEntry key (fun _ => value) soFar)
        pure (.object (← readMembers member (fuel + 1) true []))
    | some c =>
      if c = '-' ∨ c.isDigit then pure (.number (← readNumber)) else fault .malformed

/-! ## Values that are passed over -/

/-- Read with faults of early ends turned into malformed text. -/
def strictly {α : Type} (reader : Reader α) : Reader α := fun here =>
  match reader here with
  | .error f => .error (if f.kind = .ended then { f with kind := .malformed } else f)
  | .ok result => .ok result

/-- A string that is passed over, after its opening quote. Code units are not put together, so
half a pair is accepted. -/
def skipStringTail : Nat → Reader Unit
  | 0 => fault .ended
  | fuel + 1 => do
    match ← peek with
    | none => fault .ended
    | some c =>
      if c = '"' then advance
      else if c = '\\' then
        advance
        match ← peek with
        | none => fault .ended
        | some e =>
          advance
          if e = 'u' then
            let _ ← readHex
            skipStringTail fuel
          else if (simpleEscape? e).isSome then skipStringTail fuel
          else fault .malformed
      else if c.toNat < 0x20 then fault .malformed
      else
        advance
        skipStringTail fuel

/-- Any value, passed over whatever its depth. A number that is cut off counts as malformed. -/
def skipValue : (fuel : Nat) → Reader Unit
  | 0 => fault .ended
  | fuel + 1 => do
    match ← peekAfterBlanks with
    | none => fault .ended
    | some 'n' => readLetters ['n', 'u', 'l', 'l']
    | some 't' => readLetters ['t', 'r', 'u', 'e']
    | some 'f' => readLetters ['f', 'a', 'l', 's', 'e']
    | some '"' => do
      advance
      skipStringTail (fuel + 1)
    | some '[' => do
      advance
      let _ ← readElements (skipValue fuel) (fuel + 1) true
      pure ()
    | some '{' => do
      advance
      skipMembers fuel (fuel + 1) true
    | some c =>
      if c = '-' ∨ c.isDigit then do
        let _ ← strictly readNumberText
        pure ()
      else fault .malformed
where
  /-- The members of an object that is passed over. -/
  skipMembers (fuel : Nat) : Nat → Bool → Reader Unit
  | 0, _ => fault .ended
  | count + 1, isFirst => do
    match ← peekAfterBlanks with
    | none => fault .ended
    | some c =>
      if c = '}' then advance
      else do
        unless isFirst do
          if c = ',' then
            advance
            match ← peekAfterBlanks with
            | none => fault .ended
            | some _ => pure ()
          else fault .malformed
        match ← peek with
        | some '"' => do
          advance
          skipStringTail (count + 1)
          readColon
          skipValue fuel
          skipMembers fuel count false
        | _ => fault .malformed

/-! ## Whole texts -/

/-- Read the whole text: after the value only blanks may follow. -/
def parseWith {α : Type} (reader : Reader α) (text : List Char) : Except Fault α :=
  match reader text with
  | .error f => .error f
  | .ok (value, rest) =>
    let rest := rest.dropWhile isBlank
    if rest.isEmpty then .ok value else .error ⟨.malformed, rest⟩

/-- Fuel that no reading of the text uses up. -/
def fuelFor (text : List Char) : Nat := text.length + 1

/-- Read any value of fewer than `depth` nested containers. -/
def parse (depth : Nat) (text : List Char) : Except Fault Value :=
  parseWith (readValue (fuelFor text) depth) text

end TemplateCompiler.Json
