import TemplateCompiler.Json.Double

/-!
# JSON numbers

A number is an integer of 64 bits, with a sign or without one, or a finite double. As text it has up
to three parts: the digits before the point, those behind it, and a power of ten.

Text without a point and without a power of ten is an integer if it is in the range of those, and
everything else is a double. Minus zero is a double, too. A number that exceeds all doubles is
refused, and because reading rounds several times so are some that do not.

## Main definitions

* `Json.Integer`, `Json.Number`
* `Json.NumberText` — the parts of a number as text
* `Json.Number.text` — how a number is written
* `Json.NumberText.value?` — what a number is read as
-/
namespace TemplateCompiler.Json

/-! ## Numbers -/

/-- An integer of 64 bits, with a sign or without one. -/
structure Integer where
  value : Int
  least : -0x8000000000000000 ≤ value
  greatest : value < 0x10000000000000000
  deriving DecidableEq, Repr

namespace Integer

/-- An integer that is in the range. -/
def ofInt? (value : Int) : Option Integer :=
  if inRange : -0x8000000000000000 ≤ value ∧ value < 0x10000000000000000 then
    some ⟨value, inRange.1, inRange.2⟩
  else none

/-- The last 64 bits of a natural number. -/
def ofNat (n : Nat) : Integer := ⟨(n % 0x10000000000000000 : Nat), by omega, by omega⟩

/-- The natural number, or zero for a negative one. -/
def toNat (n : Integer) : Nat := n.value.toNat

instance : NatCast Integer := ⟨ofNat⟩

instance (n : Nat) : OfNat Integer n := ⟨n⟩

instance : Inhabited Integer := ⟨0⟩

end Integer

/-- A number. -/
inductive Number where
  | integer (value : Integer)
  | float (value : Double)
  deriving DecidableEq, Repr, Inhabited

/-! ## Numbers as text -/

/-- The parts of a number as text. -/
structure NumberText where
  negative : Bool
  whole : List Char
  /-- The digits behind the point, if there is one. -/
  places : Option (List Char)
  /-- The power of ten, if one is given. -/
  exponent : Option Int
  deriving DecidableEq, Repr

/-- A minus sign in front of what is negative. -/
def sign (negative : Bool) : List Char := if negative then ['-'] else []

/-- The digits behind a point with the point in front of them. -/
def placeChars : Option (List Char) → List Char
  | none => []
  | some places => '.' :: places

/-- A power of ten. -/
def exponentChars : Option Int → List Char
  | none => []
  | some exponent => 'e' :: (sign (exponent < 0) ++ digits exponent.natAbs)

/-- The parts in their order. -/
def NumberText.chars (text : NumberText) : List Char :=
  sign text.negative ++ (text.whole ++ (placeChars text.places ++ exponentChars text.exponent))

/-! ## Writing -/

/-- How many digits may stand before the point of a number without a power of ten. -/
def mostWhole : Nat := 16

/-- How many zeros behind the point are too many for a number without a power of ten. -/
def tooManyZeros : Nat := 5

/-- A decimal as text, with a digit on either side of a point if there is one. -/
def Decimal.text (d : Decimal) (negative : Bool) : NumberText :=
  let all := digits d.mantissa
  let point := all.length + d.exponent
  if 0 ≤ d.exponent ∧ point ≤ mostWhole then
    ⟨negative, all ++ List.replicate d.exponent.toNat '0', some ['0'], none⟩
  else if 0 < point ∧ point ≤ mostWhole then
    ⟨negative, all.take point.toNat, some (all.drop point.toNat), none⟩
  else if -tooManyZeros < point ∧ point ≤ 0 then
    ⟨negative, ['0'], some (List.replicate (-point).toNat '0' ++ all), none⟩
  else
    ⟨negative, all.take 1, if all.length = 1 then none else some (all.drop 1), some (point - 1)⟩

/-- A double as text. -/
def Double.text (d : Double) : NumberText :=
  if d.magnitude.val = 0 then ⟨d.negative, ['0'], some ['0'], none⟩
  else (Magnitude.decimal d.magnitude).text d.negative

/-- How a number is written. -/
def Number.text : Number → NumberText
  | integer n => ⟨n.value < 0, digits n.value.natAbs, none, none⟩
  | float d => d.text

/-- The characters of a number. -/
def Number.chars (number : Number) : List Char := number.text.chars

/-! ## Reading -/

/-- A digit as a number. -/
def digitValue (c : Char) : Nat := c.toNat - '0'.toNat

/-- The number that decimal digits spell. -/
def ofDigits (ds : List Char) : Nat := ds.foldl (fun n d => 10 * n + digitValue d) 0

/-- Append digits to a number as long as it fits into 64 bits. The digits that are left begin with
the first one that does not fit. -/
def fill (n : Nat) : (digits : List Char) → Nat × List Char
  | [] => (n, [])
  | d :: rest =>
    let next := 10 * n + digitValue d
    if next < Nat.pow 2 64 then fill next rest else (n, d :: rest)

namespace NumberText

/-- The integer that is spelled, if one is. -/
def integer? (text : NumberText) : Option Integer :=
  let magnitude := ofDigits text.whole
  if text.places.isSome ∨ text.exponent.isSome ∨ (text.negative ∧ magnitude = 0) then none
  else Integer.ofInt? (if text.negative then -magnitude else magnitude)

/-- The double that is read, unless there is none. The digits that fit into 64 bits are scaled. A
digit before the point that does not fit raises the power of ten, and one behind it is passed
over. -/
def double? (text : NumberText) : Option Double :=
  let places := text.places.getD []
  let (upToPoint, beyond) := fill 0 text.whole
  let (significand, passedOver) := fill upToPoint places
  let exponent := text.exponent.getD 0 + beyond.length - (places.length - passedOver.length : Int)
  Double.ofMagnitude? text.negative (Magnitude.scale (Magnitude.ofNat significand) exponent)

/-- What the text is read as, unless it is refused. -/
def value? (text : NumberText) : Option Number :=
  match text.integer? with
  | some n => some (.integer n)
  | none => text.double?.map .float

end NumberText

end TemplateCompiler.Json
