import TemplateCompiler.Text.Basic

/-!
# Dates and times in TOML

A document may hold dates, times of day and both together, the latter perhaps with a difference
from universal time. They are read in several spellings and written in one.

## Main definitions

* `Toml.Date`, `Toml.TimeOfDay`, `Toml.Offset`, `Toml.Moment` — the values
* `Toml.Moment.read?` — the value that characters begin with
* `Toml.Moment.chars` — its written form
-/
namespace TemplateCompiler.Toml

/-- A day. -/
structure Date where
  year : Nat
  month : Nat
  day : Nat
  deriving DecidableEq, Repr

/-- A time of day. -/
structure TimeOfDay where
  hour : Nat
  minute : Nat
  /-- The seconds may be 60, for a second that is put in. -/
  second : Nat
  nanosecond : Nat
  deriving DecidableEq, Repr

/-- A difference from universal time. -/
inductive Offset where
  /-- It is universal time, and the text says so. -/
  | universal
  | minutes (count : Int)
  deriving DecidableEq, Repr

/-- A date, a time of day or both. -/
inductive Moment where
  | date (value : Date)
  | time (value : TimeOfDay)
  | both (day : Date) (clock : TimeOfDay) (offset : Option Offset)
  deriving DecidableEq, Repr

/-! ## Fixed numbers of digits -/

/-- The number that decimal digits spell. -/
def numberOf (digits : List Char) : Nat :=
  digits.foldl (fun n d => 10 * n + (d.toNat - '0'.toNat)) 0

/-- The number that exactly `count` decimal digits spell, and what follows them. -/
def readDigits? (count : Nat) (cs : List Char) : Option (Nat × List Char) :=
  let digits := cs.take count
  if digits.length = count ∧ digits.all Char.isDigit then some (numberOf digits, cs.drop count)
  else none

/-- The last `count` decimal digits of a number, with zeros where it has fewer. -/
def lastDigits : (count : Nat) → Nat → List Char
  | 0, _ => []
  | count + 1, n => lastDigits count (n / 10) ++ [Text.hexDigit (n % 10)]

/-! ## Dates -/

/-- The number of days of a month. -/
def daysOf (year month : Nat) : Nat :=
  if month = 2 then
    if year % 4 = 0 ∧ (year % 100 ≠ 0 ∨ year % 400 = 0) then 29 else 28
  else if month = 4 ∨ month = 6 ∨ month = 9 ∨ month = 11 then 30
  else 31

/-- A date and what follows it. -/
def Date.read? (cs : List Char) : Option (Date × List Char) := do
  let (year, rest) ← readDigits? 4 cs
  let rest ← Text.after? ['-'] rest
  let (month, rest) ← readDigits? 2 rest
  let rest ← Text.after? ['-'] rest
  let (day, rest) ← readDigits? 2 rest
  if 1 ≤ month ∧ month ≤ 12 ∧ 1 ≤ day ∧ day ≤ daysOf year month then some (⟨year, month, day⟩, rest)
  else none

/-- A date as it is written. -/
def Date.chars (d : Date) : List Char :=
  lastDigits 4 d.year ++ '-' :: lastDigits 2 d.month ++ '-' :: lastDigits 2 d.day

/-! ## Times of day -/

/-- The number of digits that a fraction of a second keeps. -/
def fractionLength : Nat := 9

/-- The nanoseconds that the digits after the point spell. Further digits are dropped. -/
def nanosecondsOf (digits : List Char) : Nat :=
  numberOf ((digits ++ List.replicate fractionLength '0').take fractionLength)

/-- A fraction of a second, if there is one, and what follows it. -/
def readFraction : List Char → Nat × List Char
  | '.' :: rest =>
    let digits := rest.takeWhile Char.isDigit
    if digits.isEmpty then (0, '.' :: rest) else (nanosecondsOf digits, rest.drop digits.length)
  | rest => (0, rest)

/-- A time of day and what follows it. -/
def TimeOfDay.read? (cs : List Char) : Option (TimeOfDay × List Char) := do
  let (hour, rest) ← readDigits? 2 cs
  let rest ← Text.after? [':'] rest
  let (minute, rest) ← readDigits? 2 rest
  let rest ← Text.after? [':'] rest
  let (second, rest) ← readDigits? 2 rest
  if 23 < hour ∨ 59 < minute ∨ 60 < second then none
  else
    let (nanosecond, rest) := readFraction rest
    some (⟨hour, minute, second, nanosecond⟩, rest)

/-- A fraction of a second as it is written: without zeros at its end, and not at all where it is
zero. -/
def fractionChars (nanosecond : Nat) : List Char :=
  if nanosecond = 0 then []
  else '.' :: Text.dropEndWhile (· == '0') (lastDigits fractionLength nanosecond)

/-- A time of day as it is written. -/
def TimeOfDay.chars (t : TimeOfDay) : List Char :=
  lastDigits 2 t.hour ++ ':' :: lastDigits 2 t.minute ++ ':' :: lastDigits 2 t.second ++
    fractionChars t.nanosecond

/-! ## Offsets -/

/-- A difference from universal time and what follows it. -/
def Offset.read? : List Char → Option (Offset × List Char)
  | [] => none
  | c :: rest =>
    if c = 'Z' ∨ c = 'z' then some (.universal, rest)
    else if c = '+' ∨ c = '-' then do
      let (hour, rest) ← readDigits? 2 rest
      let rest ← Text.after? [':'] rest
      let (minute, rest) ← readDigits? 2 rest
      let count := 60 * hour + minute
      if 23 < hour ∨ 59 < minute then none
      else some (.minutes (if c = '-' then -(count : Int) else count), rest)
    else none

/-- An offset as it is written. No difference counts as one forward. -/
def Offset.chars : Offset → List Char
  | universal => ['Z']
  | minutes count =>
    (if count < 0 then '-' else '+') ::
      (lastDigits 2 (count.natAbs / 60) ++ ':' :: lastDigits 2 (count.natAbs % 60))

/-! ## Moments -/

namespace Moment

/-- What a date goes on with: a letter or a blank, a time, and perhaps an offset. -/
def readAfterDate? (value : Date) : List Char → Option (Moment × List Char)
  | [] => none
  | c :: rest =>
    if c = 'T' ∨ c = 't' ∨ c = ' ' then do
      let (clock, rest) ← TimeOfDay.read? rest
      match Offset.read? rest with
      | some (offset, rest) => some (.both value clock (some offset), rest)
      | none => some (.both value clock none, rest)
    else none

/-- A date, a time or both, and what follows. -/
def read? (cs : List Char) : Option (Moment × List Char) :=
  match Date.read? cs with
  | some (value, rest) => some ((readAfterDate? value rest).getD (.date value, rest))
  | none => (TimeOfDay.read? cs).map fun (value, rest) => (.time value, rest)

/-- The written form. -/
def chars : Moment → List Char
  | date value => value.chars
  | time value => value.chars
  | both day clock offset =>
    day.chars ++ 'T' :: clock.chars ++ (offset.map Offset.chars).getD []

/-- The written form as text. -/
def text (m : Moment) : String := String.ofList m.chars

end Moment

end TemplateCompiler.Toml
