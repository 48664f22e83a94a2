import TemplateCompiler.Text.Basic
import TemplateCompiler.Toml.Tree

/-!
# Reading TOML

A reader takes characters from the front of the document or refuses it. Why a document is refused
is not told.

## Main definitions

* `Toml.Reader` — a function that takes characters or refuses
* `Toml.readKey`, `Toml.readValue` — the parts of an entry
* `Toml.readLines` — the lines of a document
* `Toml.parse?` — a whole document
-/
namespace TemplateCompiler.Toml

/-- A function that takes characters from the front of the document. -/
abbrev Reader := StateT (List Char) Option

/-- Refuse the document. -/
def refuse {α : Type} : Reader α := fun _ => none

/-- The next character, which is left in place. -/
def peek : Reader (Option Char) := fun here => some (here.head?, here)

/-- Take some characters. -/
def advance (count : Nat) : Reader Unit := fun here => some ((), here.drop count)

/-- Take a given text if it comes next. -/
def accept (lead : String) : Reader Bool := fun here =>
  match Text.after? lead.toList here with
  | some rest => some (true, rest)
  | none => some (false, here)

/-- Take a given text that has to come next. -/
def expect (lead : String) : Reader Unit := do
  unless ← accept lead do refuse

/-- Take the longest run of characters that satisfy `p`. -/
def takeRun (p : Char → Bool) : Reader (List Char) := fun here =>
  some (here.takeWhile p, here.dropWhile p)

/-! ## Blanks, comments and ends of lines -/

/-- The blanks within a line. -/
def isBlank (c : Char) : Bool := c == ' ' || c == '\t'

/-- Skip blanks within the line. -/
def skipBlanks : Reader Unit := do
  let _ ← takeRun isBlank

/-- Whether the character may stand in a comment or a string: no control character but the tab. -/
def isPrintable (c : Char) : Bool := c == '\t' || (0x20 ≤ c.toNat && c.toNat != 0x7f)

/-- Take the end of a line if it comes next. -/
def acceptNewline : Reader Bool := do
  if ← accept "\n" then pure true else accept "\x0d\n"

/-- Skip a comment if one comes next. -/
def skipComment : Reader Unit := do
  if ← accept "#" then
    let _ ← takeRun isPrintable

/-- The rest of a line: blanks, perhaps a comment, and the end of the line or of the document. -/
def endLine : Reader Unit := do
  skipBlanks
  skipComment
  match ← peek with
  | none => pure ()
  | some _ => unless ← acceptNewline do refuse

/-- Skip blanks, comments and ends of lines. -/
def skipLines : (fuel : Nat) → Reader Unit
  | 0 => pure ()
  | fuel + 1 => do
    skipBlanks
    skipComment
    if ← acceptNewline then skipLines fuel

/-! ## Strings -/

/-- A hexadecimal digit as a number. -/
def hexValue? (c : Char) : Option Nat :=
  if c.isDigit then some (c.toNat - '0'.toNat)
  else if 'a' ≤ c ∧ c ≤ 'f' then some (c.toNat - 'a'.toNat + 10)
  else if 'A' ≤ c ∧ c ≤ 'F' then some (c.toNat - 'A'.toNat + 10)
  else none

/-- The character with a code point of the given number of hexadecimal digits. -/
def readCodePoint (count : Nat) : Reader Char := fun here =>
  let digits := here.take count
  if digits.length = count then
    match digits.foldl (fun n d => do pure (16 * (← n) + (← hexValue? d))) (some 0) with
    | some n =>
      if n < 0xd800 ∨ (0xdfff < n ∧ n < 0x110000) then some (Char.ofNat n, here.drop count)
      else none
    | none => none
  else none

/-- What follows a backslash. -/
def readEscape : Reader Char := do
  match ← peek with
  | none => refuse
  | some c =>
    advance 1
    if c = '"' ∨ c = '\\' then pure c
    else if c = 'b' then pure '\x08'
    else if c = 'f' then pure '\x0c'
    else if c = 'n' then pure '\n'
    else if c = 'r' then pure '\x0d'
    else if c = 't' then pure '\t'
    else if c = 'u' then readCodePoint 4
    else if c = 'U' then readCodePoint 8
    else refuse

/-- The rest of a string on one line. In double quotes a backslash escapes. -/
def readPlainTail (quote : Char) (before : List Char) : (fuel : Nat) → Reader String
  | 0 => refuse
  | fuel + 1 => do
    match ← peek with
    | none => refuse
    | some c =>
      advance 1
      if c = quote then pure (String.ofList before.reverse)
      else if c = '\\' ∧ quote = '"' then
        let plain ← readEscape
        readPlainTail quote (plain :: before) fuel
      else if isPrintable c then readPlainTail quote (c :: before) fuel
      else refuse

/-- Skip blanks and ends of lines after a backslash that ends its line. -/
def skipFolded : (fuel : Nat) → Reader Unit
  | 0 => pure ()
  | fuel + 1 => do
    skipBlanks
    if ← acceptNewline then skipFolded fuel

/-- A backslash at the end of a line takes the blanks after it and on the next lines away. -/
def acceptFold (fuel : Nat) : Reader Bool := fun here =>
  match ((do skipBlanks; acceptNewline : Reader Bool) here) with
  | some (true, rest) => ((do skipFolded fuel; pure true : Reader Bool) rest)
  | _ => some (false, here)

/-- The rest of a string between triple quotes. Up to two more quotes belong to it. -/
def readLongTail (quote : Char) (before : List Char) : (fuel : Nat) → Reader String
  | 0 => refuse
  | fuel + 1 => do
    let here ← get
    let run := (here.takeWhile (· == quote)).length
    if 3 ≤ run then
      let extra := min (run - 3) 2
      advance (3 + extra)
      pure (String.ofList (List.replicate extra quote ++ before).reverse)
    else if ← acceptNewline then readLongTail quote ('\n' :: before) fuel
    else
      match ← peek with
      | none => refuse
      | some c =>
        advance 1
        if c = '\\' ∧ quote = '"' then
          if ← acceptFold fuel then readLongTail quote before fuel
          else
            let plain ← readEscape
            readLongTail quote (plain :: before) fuel
        else if isPrintable c then readLongTail quote (c :: before) fuel
        else refuse

/-- A string whose quote comes next. -/
def readString (fuel : Nat) (quote : Char) : Reader String := do
  if ← accept (String.ofList [quote, quote, quote]) then
    let _ ← acceptNewline
    readLongTail quote [] fuel
  else
    advance 1
    readPlainTail quote [] fuel

/-! ## Keys -/

/-- How many arrays and inline tables may be nested, and how many parts a key may have. -/
def depthLimit : Nat := 79

/-- What a key without quotes is made of. -/
def isKeyChar (c : Char) : Bool := c.isAlphanum || c == '_' || c == '-'

/-- One part of a key. -/
def readSimpleKey (fuel : Nat) : Reader String := do
  match ← peek with
  | some '"' => do
    advance 1
    readPlainTail '"' [] fuel
  | some '\'' => do
    advance 1
    readPlainTail '\'' [] fuel
  | _ => do
    let run ← takeRun isKeyChar
    if run.isEmpty then refuse else pure (String.ofList run)

/-- A key: parts with dots between them, each of which leads one level down. The last part is given
apart from those before. -/
def readKey (before : List String) : (fuel : Nat) → Reader (List String × String)
  | 0 => refuse
  | fuel + 1 => do
    skipBlanks
    let part ← readSimpleKey fuel
    skipBlanks
    if ← accept "." then readKey (part :: before) fuel
    else if before.length < depthLimit then pure (before.reverse, part)
    else refuse

/-! ## Numbers and dates -/

/-- Whether digits of a base are written with underscores between digits only. -/
def areDigits (isDigit : Char → Bool) : List Char → Bool
  | [] => false
  | [c] => isDigit c
  | c :: '_' :: rest => isDigit c && areDigits isDigit rest
  | c :: rest => isDigit c && areDigits isDigit rest

/-- The number that digits of a base spell; underscores are passed over. -/
def ofDigits (base : Nat) (cs : List Char) : Nat :=
  (cs.filter (· != '_')).foldl (fun n d => base * n + (hexValue? d).getD 0) 0

/-- Whether decimal digits are written without a leading zero. -/
def isWhole (cs : List Char) : Bool :=
  areDigits Char.isDigit cs && (cs.length == 1 || cs.head? != some '0')

/-- A sign and what follows it. -/
def splitSign : List Char → Option Char × List Char
  | '+' :: rest => (some '+', rest)
  | '-' :: rest => (some '-', rest)
  | rest => (none, rest)

/-- An integer of 64 bits. -/
def integerOf? (negative : Bool) (n : Nat) : Option Node :=
  if negative then (if n ≤ Nat.pow 2 63 then some (.integer (-(n : Int))) else none)
  else if n < Nat.pow 2 63 then some (.integer n) else none

/-- The digits that a lead of two characters announces. -/
def radixOf? : List Char → Option (Nat × (Char → Bool) × List Char)
  | '0' :: 'x' :: rest => some (16, fun c => (hexValue? c).isSome, rest)
  | '0' :: 'o' :: rest => some (8, fun c => '0' ≤ c && c ≤ '7', rest)
  | '0' :: 'b' :: rest => some (2, fun c => c == '0' || c == '1', rest)
  | _ => none

/-- An integer. -/
def readInteger? (token : List Char) : Option Node :=
  match radixOf? token with
  | some (base, isDigit, rest) =>
    if areDigits isDigit rest then integerOf? false (ofDigits base rest) else none
  | none =>
    let (sign, rest) := splitSign token
    if isWhole rest then integerOf? (sign == some '-') (ofDigits 10 rest) else none

/-- Whether the number that the digits spell, times a power of ten, exceeds all doubles. Its size
in decimal digits settles all but the numbers near the limit. -/
def isHuge (digits : List Char) (power : Int) : Bool :=
  let significant := (digits.filter (· != '_')).dropWhile (· == '0')
  let size : Int := significant.length + power
  if significant.isEmpty ∨ size < 309 then false
  else if 309 < size then true
  else
    let limit := Nat.pow 2 1024 - Nat.pow 2 970
    limit * Nat.pow 10 (-power).toNat ≤ ofDigits 10 significant * Nat.pow 10 power.toNat

/-- A float. Finite values that are too large are refused. -/
def isFloat (token : List Char) : Bool :=
  let (sign, rest) := splitSign token
  if rest = ['i', 'n', 'f'] ∨ rest = ['n', 'a', 'n'] then true
  else
    let isMark (c : Char) : Bool := c == 'e' || c == 'E'
    let number := rest.takeWhile fun c => !isMark c
    let whole := number.takeWhile (· != '.')
    let places := number.drop (whole.length + 1)
    let exponent := rest.drop (number.length + 1)
    let (exponentSign, exponentDigits) := splitSign exponent
    let hasPoint := whole.length < number.length
    let hasExponent := number.length < rest.length
    let wellFormed := isWhole whole && (hasPoint || hasExponent) &&
      (!hasPoint || areDigits Char.isDigit places) &&
      (!hasExponent || areDigits Char.isDigit exponentDigits)
    let power : Int := if hasExponent then ofDigits 10 exponentDigits else 0
    let scaled := (if exponentSign = some '-' then -power else power) -
      (places.filter (· != '_')).length
    wellFormed && (sign == some '-' || !isHuge (whole ++ places) scaled)

/-- What numbers and dates are made of. -/
def isNumberChar (c : Char) : Bool :=
  c.isAlphanum || c == '+' || c == '-' || c == '_' || c == '.' || c == ':'

/-- A number, a date or a word for a truth value. -/
def readScalar : Reader Node := fun here =>
  match Moment.read? here with
  | some (moment, rest) =>
    if rest.head?.any isNumberChar then none else some (.moment moment, rest)
  | none =>
    let token := here.takeWhile isNumberChar
    let rest := here.dropWhile isNumberChar
    if token = "true".toList then some (.boolean true, rest)
    else if token = "false".toList then some (.boolean false, rest)
    else
      match readInteger? token with
      | some node => some (node, rest)
      | none => if isFloat token then some (.float, rest) else none

/-! ## Values -/

mutual

/-- A value. -/
def readValue : (fuel : Nat) → (depth : Nat) → Reader Node
  | 0, _ => refuse
  | fuel + 1, depth => do
    match ← peek with
    | some '"' => do pure (.text (← readString fuel '"'))
    | some '\'' => do pure (.text (← readString fuel '\''))
    | some '[' =>
      match depth with
      | 0 => refuse
      | depth + 1 => do
        advance 1
        pure (.array (← readItems fuel depth))
    | some '{' =>
      match depth with
      | 0 => refuse
      | depth + 1 => do
        advance 1
        skipBlanks
        if ← accept "\x7d" then pure (.table .inline [])
        else pure (.table .inline (← readMembers fuel depth []))
    | _ => readScalar

/-- The items of an array up to its closing bracket. A comma may follow the last one. -/
def readItems : (fuel : Nat) → (depth : Nat) → Reader (List Node)
  | 0, _ => refuse
  | fuel + 1, depth => do
    skipLines fuel
    if ← accept "]" then pure []
    else do
      let item ← readValue fuel depth
      skipLines fuel
      if ← accept "," then pure (item :: (← readItems fuel depth))
      else do
        expect "]"
        pure [item]

/-- The members of an inline table up to its closing brace. -/
def readMembers : (fuel : Nat) → (depth : Nat) → Entries → Reader Entries
  | 0, _, _ => refuse
  | fuel + 1, depth, entries => do
    let (path, key) ← readKey [] fuel
    expect "="
    skipBlanks
    let value ← readValue fuel depth
    skipBlanks
    match insertDotted? value key path false false entries with
    | none => refuse
    | some entries =>
      if ← accept "," then readMembers fuel depth entries
      else do
        expect "\x7d"
        pure entries

end

/-! ## Documents -/

/-- A document while it is read: its entries and the path of the table that is open. -/
structure Document where
  entries : Entries
  table : List String

/-- Replace the entries, unless they are refused. -/
def Document.update (table : List String) : Option Entries → Reader Document
  | some entries => pure ⟨entries, table⟩
  | none => refuse

/-- A header, of which the opening brackets have been taken. -/
def readHeader (fuel : Nat) (document : Document) (isMany : Bool) : Reader Document := do
  let (path, key) ← readKey [] fuel
  if isMany then
    expect "]]"
    Document.update (path ++ [key]) (appendTable? path key document.entries)
  else
    expect "]"
    Document.update (path ++ [key]) (openTable? path key document.entries)

/-- A key and its value. -/
def readEntry (fuel : Nat) (document : Document) : Reader Document := do
  let (path, key) ← readKey [] fuel
  expect "="
  skipBlanks
  let value ← readValue fuel depthLimit
  Document.update document.table (insert? document.table path key value document.entries)

/-- The lines of a document. -/
def readLines : (fuel : Nat) → Document → Reader Document
  | 0, _ => refuse
  | fuel + 1, document => do
    skipLines fuel
    match ← peek with
    | none => pure document
    | some '[' => do
      let isMany ← accept "[["
      unless isMany do advance 1
      let next ← readHeader fuel document isMany
      endLine
      readLines fuel next
    | some _ => do
      let next ← readEntry fuel document
      endLine
      readLines fuel next

/-- The document that a text spells. A mark of byte order may come first. -/
def parse? (text : String) : Option Entries :=
  let cs := (Text.after? ['\ufeff'] text.toList).getD text.toList
  match readLines (2 * cs.length + 2) ⟨[], []⟩ cs with
  | some (document, []) => some document.entries
  | _ => none

end TemplateCompiler.Toml
