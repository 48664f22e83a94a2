import TemplateCompiler.Text.Basic

/-!
# Doubles

A finite double is a sign and a magnitude. The magnitudes are numbered from zero on, which is how
their bits are read as a natural number: the last 52 bits are the fraction, and those in front of
them the exponent. In units of the least positive double every magnitude is a natural number.

A double is written with as few decimal digits as tell it from all others. Reading is done in
steps: the leading digits give a double, which is multiplied by the double for a power of ten or
divided by it, and each step rounds. So reading what is written need not give the double again.

## Main definitions

* `Json.Double` — a finite double
* `Json.Magnitude.units`, `Json.Magnitude.nearest` — from magnitudes to numbers and back
* `Json.Magnitude.scale` — a magnitude times a power of ten
* `Json.Decimal` — a number in decimal
* `Json.Magnitude.decimal` — the decimal that is written for a magnitude
-/
namespace TemplateCompiler.Json

/-- The decimal digits of a natural number. -/
def digits (n : Nat) : List Char := Nat.toDigits 10 n

/-! ## Magnitudes -/

namespace Magnitude

/-- The number of the first magnitude that is not finite. -/
def infinity : Nat := 2047 * Nat.pow 2 52

/-- The number one in units of the least positive double. -/
@[irreducible] def one : Nat := Nat.pow 2 1074

/-- A magnitude in units of the least positive double. -/
def units (magnitude : Nat) : Nat :=
  let exponent := magnitude / Nat.pow 2 52 - 1
  (magnitude - exponent * Nat.pow 2 52) * Nat.pow 2 exponent

/-- The natural number next to a quotient. Halfway between two of them, the even one is taken. -/
def roundQuotient (n d : Nat) : Nat :=
  let below := n / d
  let rest := n % d
  if d < 2 * rest ∨ (d = 2 * rest ∧ below % 2 = 1) then below + 1 else below

/-- The magnitude next to a quotient of units. Halfway between two of them, the even one is
taken. -/
def nearest (n d : Nat) : Nat :=
  let exponent := (n / d).log2 - 52
  exponent * Nat.pow 2 52 + roundQuotient n (d * Nat.pow 2 exponent)

/-- The product, rounded. -/
def multiply (a b : Nat) : Nat := nearest (units a * units b) one

/-- The quotient, rounded. -/
def divide (a b : Nat) : Nat := nearest (units a * one) (units b)

/-- The magnitude next to a natural number. -/
def ofNat (n : Nat) : Nat := nearest (n * one) 1

/-- The exponent of the greatest power of ten that is finite. -/
def greatestPower : Nat := 308

/-- A magnitude times a power of ten. Powers of ten that are no finite doubles are too great to
multiply by; a magnitude is divided by them in several steps. -/
def scale (magnitude : Nat) (exponent : Int) : Nat :=
  if magnitude = 0 then 0
  else if greatestPower < exponent then infinity
  else if 0 ≤ exponent then multiply magnitude (ofNat (Nat.pow 10 exponent.toNat))
  else if -greatestPower ≤ exponent then divide magnitude (ofNat (Nat.pow 10 (-exponent).toNat))
  else scale (divide magnitude (ofNat (Nat.pow 10 greatestPower))) (exponent + greatestPower)
termination_by (-exponent).toNat
decreasing_by
  simp only [greatestPower] at *
  omega

end Magnitude

/-- A finite double. -/
structure Double where
  negative : Bool
  magnitude : Fin Magnitude.infinity
  deriving DecidableEq, Repr

namespace Double

/-- The double with a sign and a magnitude, if the magnitude is finite. -/
def ofMagnitude? (negative : Bool) (magnitude : Nat) : Option Double :=
  if finite : magnitude < Magnitude.infinity then some ⟨negative, magnitude, finite⟩ else none

instance : Inhabited Double := ⟨⟨false, 0, by decide⟩⟩

end Double

/-! ## Decimals -/

/-- A number in decimal: some digits times a power of ten. -/
structure Decimal where
  mantissa : Nat
  exponent : Int
  deriving DecidableEq, Repr

/-- The magnitude next to a decimal. -/
def Decimal.magnitude (d : Decimal) : Nat :=
  Magnitude.nearest (d.mantissa * Nat.pow 10 d.exponent.toNat * Magnitude.one)
    (Nat.pow 10 (-d.exponent).toNat)

namespace Magnitude

/-- A power of ten that makes every magnitude but zero a number of 17 digits or more. -/
def fineness : Nat := 340

/-- How many digits a magnitude has before the point. For a magnitude that is less than one this is
the number of zeros behind the point, counted down from zero. -/
def point (magnitude : Nat) : Int :=
  (digits (units magnitude * Nat.pow 10 fineness / one)).length - fineness

/-- How many times a power of ten goes into a magnitude, rounded down. -/
def below (magnitude : Nat) (exponent : Int) : Nat :=
  units magnitude * Nat.pow 10 (-exponent).toNat / (one * Nat.pow 10 exponent.toNat)

/-- How many times a power of ten goes into a magnitude, rounded to the nearest number. -/
def near (magnitude : Nat) (exponent : Int) : Nat :=
  roundQuotient (units magnitude * Nat.pow 10 (-exponent).toNat) (one * Nat.pow 10 exponent.toNat)

/-- The two multiples of a power of ten around a magnitude, the nearer one first. -/
def neighbours (magnitude : Nat) (exponent : Int) : List Decimal :=
  let below := below magnitude exponent
  let near := near magnitude exponent
  [⟨near, exponent⟩, ⟨if near = below then below + 1 else below, exponent⟩]

/-- How many digits tell a magnitude from all others. -/
def enoughDigits : Nat := 17

/-- The decimal with the fewest digits that a magnitude is next to, if fewer are enough. -/
def short? (magnitude : Nat) : Option Decimal :=
  (List.range enoughDigits).findSome? fun count : Nat =>
    (neighbours magnitude (point magnitude - count)).find? fun d => d.magnitude == magnitude

/-- The decimal that is written for a magnitude. -/
def decimal (magnitude : Nat) : Decimal :=
  let exponent := point magnitude - enoughDigits
  (short? magnitude).getD ⟨near magnitude exponent, exponent⟩

end Magnitude

end TemplateCompiler.Json
