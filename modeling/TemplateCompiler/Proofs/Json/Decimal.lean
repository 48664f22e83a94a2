import Mathlib
import TemplateCompiler.Proofs.Json.Magnitude

/-!
# The decimals that are written

A magnitude is written with 17 digits or fewer. Reading the digits and scaling them rounds several
times, and close to the greatest double that might lead out of the doubles: some decimals to which
the greatest double is nearest are refused. None of them is ever written.

## Main definitions

* `Json.Decimal.Writable` — a decimal that is read without an overflow

## Main statements

* `Json.Magnitude.units_mul_lt`, `Json.Magnitude.le_units_mul` — between which powers of ten a
  magnitude lies
* `Json.Magnitude.writable_decimal` — what is written is read without an overflow
-/
namespace TemplateCompiler.Json

/-- A decimal that is read without an overflow. -/
structure Decimal.Writable (d : Decimal) : Prop where
  positive : 0 < d.mantissa
  few : d.mantissa ≤ 10 ^ Magnitude.enoughDigits
  finite : 0 ≤ d.exponent →
    Magnitude.scale (Magnitude.ofNat d.mantissa) d.exponent < Magnitude.infinity

namespace Magnitude

/-! ## Close to the greatest double -/

/-- The least natural number that no finite double is next to. -/
def limit : Nat := 2 ^ 1024 - 2 ^ 970

/-- The greatest finite double. -/
def greatest : Nat := 2 ^ 1024 - 2 ^ 971

theorem lt_limit {n : Nat} (finite : ofNat n < infinity) : n < limit := by
  by_contra beyond
  have above : infinity ≤ ofNat limit := by decide +kernel
  exact absurd (above.trans (ofNat_mono (Nat.le_of_not_lt beyond))) (Nat.not_le_of_lt finite)

theorem units_le_greatest {m : Nat} (finite : m < infinity) : units m ≤ greatest * one :=
  (units_mono (Nat.le_sub_one_of_lt finite)).trans (by decide +kernel)

/-- 17 digits can be scaled by any power of ten up to this one. -/
def safePower : Nat := 290

/-- The product of a number and a power of ten does not lead out of the doubles if that of a
greater number does not. -/
theorem multiply_lt_of_le {n n' k k' : Nat} (number : n ≤ n') (power : k ≤ k')
    (finite : multiply (ofNat n') (ofNat (10 ^ k')) < infinity) :
    multiply (ofNat n) (ofNat (10 ^ k)) < infinity :=
  Nat.lt_of_le_of_lt (multiply_mono (ofNat_mono number)
    (ofNat_mono (Nat.pow_le_pow_right (by decide) power))) finite

theorem multiply_lt_of_le_safePower {n k : Nat} (few : n ≤ 10 ^ enoughDigits)
    (safe : k ≤ safePower) : multiply (ofNat n) (ofNat (10 ^ k)) < infinity :=
  multiply_lt_of_le few safe (by decide +kernel)

/-- Up to 16 digits can be scaled wherever the product is less than the limit. -/
theorem multiply_lt_of_lt_limit {n k : Nat} (few : n ≤ 10 ^ 16) (less : n * 10 ^ k < limit)
    (power : k ≤ greatestPower) : multiply (ofNat n) (ofNat (10 ^ k)) < infinity := by
  have extreme : ∀ j < greatestPower - safePower, multiply
      (ofNat (min (10 ^ 16) ((limit - 1) / 10 ^ (safePower + 1 + j))))
        (ofNat (10 ^ (safePower + 1 + j))) < infinity := by
    decide +kernel
  by_cases safe : k ≤ safePower
  · exact multiply_lt_of_le_safePower (few.trans (by decide)) safe
  · obtain ⟨j, rfl⟩ := Nat.exists_eq_add_of_lt (Nat.lt_of_not_le safe)
    rw [Nat.add_right_comm] at less power ⊢
    refine multiply_lt_of_le (le_min few ?_) (Nat.le_refl _) (extreme j (by omega))
    exact (Nat.le_div_iff_mul_le (Nat.pow_pos (by decide))).mpr (Nat.le_sub_one_of_lt less)

/-- 17 digits can be scaled wherever the product exceeds a double by half the power of ten at
most. -/
theorem multiply_lt_of_le_greatest {n k : Nat} (few : n ≤ 10 ^ enoughDigits)
    (less : 2 * (n * 10 ^ k) ≤ 2 * greatest + 10 ^ k) (power : k ≤ safePower + 2) :
    multiply (ofNat n) (ofNat (10 ^ k)) < infinity := by
  have extreme : ∀ j < 2, multiply
      (ofNat ((2 * greatest + 10 ^ (safePower + 1 + j)) / (2 * 10 ^ (safePower + 1 + j))))
        (ofNat (10 ^ (safePower + 1 + j))) < infinity := by
    decide +kernel
  by_cases safe : k ≤ safePower
  · exact multiply_lt_of_le_safePower few safe
  · obtain ⟨j, rfl⟩ := Nat.exists_eq_add_of_lt (Nat.lt_of_not_le safe)
    rw [Nat.add_right_comm] at less power ⊢
    refine multiply_lt_of_le ?_ (Nat.le_refl _) (extreme j (by omega))
    refine (Nat.le_div_iff_mul_le (Nat.mul_pos (by decide) (Nat.pow_pos (by decide)))).mpr ?_
    rwa [Nat.mul_left_comm]

/-! ## The point -/

section Point

variable {m a b : Nat}

theorem length_digits_pos (n : Nat) : 0 < (digits n).length :=
  List.length_pos_iff.mpr Nat.toDigits_ne_nil

theorem lt_pow_length_digits (n : Nat) : n < 10 ^ (digits n).length :=
  (Nat.length_toDigits_le_iff (by decide) (length_digits_pos n)).mp (Nat.le_refl _)

theorem pow_le_of_lt_length_digits {n k : Nat} (positive : 0 < n) (less : k < (digits n).length) :
    10 ^ k ≤ n := by
  by_contra small
  rcases Nat.eq_zero_or_pos k with rfl | some
  · exact small positive
  · exact absurd ((Nat.length_toDigits_le_iff (by decide) some).mpr (Nat.lt_of_not_le small))
      (Nat.not_le_of_lt less)

/-- A magnitude is less than the power of ten that its point gives. -/
theorem units_mul_lt (place : (b : Int) - a = point m) : units m * 10 ^ a < one * 10 ^ b := by
  have below := lt_pow_length_digits (units m * 10 ^ fineness / one)
  rw [Nat.div_lt_iff_lt_mul one_positive] at below
  rw [point, Nat.pow_eq] at place
  generalize (digits (units m * 10 ^ fineness / one)).length = size at below place
  have exponents : size + a = b + fineness := by omega
  refine Nat.lt_of_mul_lt_mul_right (a := 10 ^ fineness) ?_
  calc units m * 10 ^ a * 10 ^ fineness
      = units m * 10 ^ fineness * 10 ^ a := Nat.mul_right_comm ..
    _ < 10 ^ size * one * 10 ^ a := Nat.mul_lt_mul_of_pos_right below (Nat.pow_pos (by decide))
    _ = one * 10 ^ b * 10 ^ fineness := by
      rw [Nat.mul_comm (10 ^ size), Nat.mul_assoc, Nat.mul_assoc, ← Nat.pow_add, ← Nat.pow_add,
        exponents]

theorem units_pos (nonzero : m ≠ 0) : 0 < units m := by
  rw [Nat.pos_iff_ne_zero]
  intro none
  have same := nearest_units m
  rw [none] at same
  exact nonzero same.symm

/-- A magnitude is not less than a tenth of the power of ten that its point gives. -/
theorem le_units_mul (nonzero : m ≠ 0) (place : (b : Int) - a = point m - 1) :
    one * 10 ^ b ≤ units m * 10 ^ a := by
  have fine : one ≤ 10 ^ fineness := by decide +kernel
  have positive : 0 < units m * 10 ^ fineness / one :=
    Nat.div_pos (fine.trans (Nat.le_mul_of_pos_left _ (units_pos nonzero))) one_positive
  have size := length_digits_pos (units m * 10 ^ fineness / one)
  have above := pow_le_of_lt_length_digits positive (Nat.sub_one_lt_of_lt size)
  rw [Nat.le_div_iff_mul_le one_positive] at above
  rw [point, Nat.pow_eq] at place
  generalize (digits (units m * 10 ^ fineness / one)).length = count at above place size
  have exponents : count - 1 + a = b + fineness := by omega
  refine Nat.le_of_mul_le_mul_right (c := 10 ^ fineness) ?_ (Nat.pow_pos (by decide))
  calc one * 10 ^ b * 10 ^ fineness
      = 10 ^ (count - 1) * one * 10 ^ a := by
        rw [Nat.mul_comm (10 ^ (count - 1)), Nat.mul_assoc, Nat.mul_assoc, ← Nat.pow_add,
          ← Nat.pow_add, exponents]
    _ ≤ units m * 10 ^ fineness * 10 ^ a := Nat.mul_le_mul_right _ above
    _ = units m * 10 ^ a * 10 ^ fineness := Nat.mul_right_comm ..

end Point

/-! ## Digits -/

section Digits

variable {m count : Nat} {exponent : Int}

theorem step_pos (exponent : Int) : 0 < one * 10 ^ exponent.toNat :=
  Nat.mul_pos one_positive (Nat.pow_pos (by decide))

/-- So many digits behind the point, there are so many digits in front. -/
theorem below_lt (place : exponent = point m - count) : below m exponent < 10 ^ count := by
  have less : units m * 10 ^ (-exponent).toNat < one * 10 ^ (exponent.toNat + count) :=
    units_mul_lt (by omega)
  rw [below, Nat.pow_eq, Nat.pow_eq, Nat.div_lt_iff_lt_mul (step_pos exponent), Nat.mul_comm (10 ^ count), Nat.mul_assoc,
    ← Nat.pow_add]
  exact less

theorem le_below (nonzero : m ≠ 0) (place : exponent = point m - (count + 1 : Nat)) :
    10 ^ count ≤ below m exponent := by
  have less : one * 10 ^ (exponent.toNat + count) ≤ units m * 10 ^ (-exponent).toNat :=
    le_units_mul nonzero (by omega)
  rw [below, Nat.pow_eq, Nat.pow_eq, Nat.le_div_iff_mul_le (step_pos exponent), Nat.mul_comm (10 ^ count), Nat.mul_assoc,
    ← Nat.pow_add]
  exact less

theorem near_le (place : exponent = point m - count) : near m exponent ≤ 10 ^ count :=
  (roundQuotient_le _ _).trans (below_lt place)

/-- Both of the neighbours have few digits. -/
theorem mantissa_le_of_mem_neighbours {d : Decimal} (mem : d ∈ neighbours m exponent)
    (place : exponent = point m - count) : d.mantissa ≤ 10 ^ count ∧ d.exponent = exponent := by
  have less : below m exponent < 10 ^ count := below_lt place
  rcases List.mem_pair.mp mem with rfl | rfl
  · exact ⟨near_le place, rfl⟩
  · refine ⟨?_, rfl⟩
    change (if near m exponent = below m exponent then below m exponent + 1
      else below m exponent) ≤ _
    split
    · exact less
    · exact less.le

end Digits

end Magnitude

/-! ## What is written -/

open Magnitude

/-- Scaling multiplies by a power of ten. -/
theorem Magnitude.scale_lt_infinity {m : Nat} {exponent : Int}
    (product : multiply m (ofNat (10 ^ exponent.toNat)) < infinity) (whole : 0 ≤ exponent)
    (power : exponent ≤ greatestPower) : scale m exponent < infinity := by
  rw [scale]
  split_ifs
  · decide
  · omega
  · exact product

/-- A decimal with up to 16 digits that a finite magnitude is next to. -/
theorem Decimal.writable_of_magnitude {d : Decimal} (nonzero : d.magnitude ≠ 0)
    (finite : d.magnitude < infinity) (few : d.mantissa ≤ 10 ^ 16) : d.Writable := by
  have positive : 0 < d.mantissa := by
    rw [Nat.pos_iff_ne_zero]
    intro none
    refine nonzero ?_
    rw [Decimal.magnitude, none, Nat.zero_mul, Nat.zero_mul]
    simp [nearest, roundQuotient]
  refine ⟨positive, few.trans (by decide), fun whole => ?_⟩
  have same : d.magnitude = ofNat (d.mantissa * 10 ^ d.exponent.toNat) := by
    have none : (-d.exponent).toNat = 0 := by omega
    rw [Decimal.magnitude, none]
    rfl
  rw [same] at finite
  have less := lt_limit finite
  have power : d.exponent.toNat ≤ greatestPower := by
    by_contra beyond
    have huge : limit ≤ 10 ^ (greatestPower + 1) := by decide +kernel
    have factor : 10 ^ (greatestPower + 1) ≤ 10 ^ d.exponent.toNat :=
      Nat.pow_le_pow_right (by decide) (Nat.lt_of_not_le beyond)
    have product : 10 ^ d.exponent.toNat ≤ d.mantissa * 10 ^ d.exponent.toNat :=
      Nat.le_mul_of_pos_left _ positive
    exact absurd less (Nat.not_lt_of_le (huge.trans (factor.trans product)))
  exact scale_lt_infinity (multiply_lt_of_lt_limit few less power) whole (by omega)

/-- The decimal with 17 digits that is nearest to a finite magnitude. -/
theorem Magnitude.writable_near {m : Nat} (nonzero : m ≠ 0) (finite : m < infinity)
    {exponent : Int} (place : exponent = point m - enoughDigits) :
    Decimal.Writable ⟨near m exponent, exponent⟩ := by
  have digits : 10 ^ 16 ≤ below m exponent := le_below nonzero place
  have positive : 0 < near m exponent :=
    Nat.lt_of_lt_of_le (Nat.pow_pos (by decide)) (digits.trans (div_le_roundQuotient _ _))
  refine ⟨positive, near_le place, fun whole => ?_⟩
  dsimp only at whole ⊢
  obtain ⟨power, rfl⟩ := Int.eq_ofNat_of_zero_le whole
  have bounded := units_le_greatest finite
  have small : power ≤ safePower + 2 := by
    have above : one * 10 ^ (power + 16) ≤ units m * 10 ^ 0 :=
      le_units_mul nonzero (by simp only [enoughDigits] at place; omega)
    rw [Nat.pow_zero, Nat.mul_one] at above
    have factor := above.trans bounded
    rw [Nat.mul_comm one, Nat.mul_le_mul_right_iff one_positive] at factor
    by_contra beyond
    have huge : greatest < 10 ^ (safePower + 3 + 16) := by decide +kernel
    have more : 10 ^ (safePower + 3 + 16) ≤ 10 ^ (power + 16) :=
      Nat.pow_le_pow_right (by decide) (by omega)
    omega
  have half : 2 * (near m power * 10 ^ power) ≤ 2 * greatest + 10 ^ power := by
    have rounded : 2 * (near m power * (one * 10 ^ power)) ≤ 2 * units m + one * 10 ^ power := by
      simpa [near] using two_mul_roundQuotient_le (units m * 10 ^ (-(power : Int)).toNat)
        (one * 10 ^ (power : Int).toNat)
    refine Nat.le_of_mul_le_mul_left ?_ one_positive
    calc one * (2 * (near m power * 10 ^ power))
        = 2 * (near m power * (one * 10 ^ power)) := by ring
      _ ≤ 2 * (greatest * one) + one * 10 ^ power := by omega
      _ = one * (2 * greatest + 10 ^ power) := by ring
  exact scale_lt_infinity (multiply_lt_of_le_greatest (near_le place) half small) whole
    (by simp only [safePower, greatestPower] at *; omega)

theorem Magnitude.of_short?_eq_some {m : Nat} {d : Decimal} (found : short? m = some d) :
    d.magnitude = m ∧ d.mantissa ≤ 10 ^ 16 := by
  obtain ⟨count, mem, here⟩ := List.exists_of_findSome?_eq_some found
  have few := (mantissa_le_of_mem_neighbours (List.mem_of_find?_eq_some here) rfl).1
  have less : count ≤ 16 := Nat.le_of_lt_succ (List.mem_range.mp mem)
  have same := List.find?_some (p := fun d : Decimal => d.magnitude == m) here
  exact ⟨beq_iff_eq.mp same, few.trans (Nat.pow_le_pow_right (by decide) less)⟩

/-- **What is written for a finite magnitude is read without an overflow.** -/
theorem Magnitude.writable_decimal {m : Nat} (nonzero : m ≠ 0) (finite : m < infinity) :
    (decimal m).Writable := by
  rw [decimal]
  cases found : short? m with
  | none => exact writable_near nonzero finite rfl
  | some d =>
    obtain ⟨rfl, few⟩ := of_short?_eq_some found
    exact Decimal.writable_of_magnitude nonzero finite few

/-- **A magnitude is next to what is written for it.** -/
theorem Magnitude.magnitude_decimal {m : Nat} (nonzero : m ≠ 0) : (decimal m).magnitude = m := by
  rw [decimal]
  cases found : short? m with
  | some d => exact (of_short?_eq_some found).1
  | none =>
    obtain ⟨exponent, place⟩ : ∃ exponent, exponent = point m - enoughDigits := ⟨_, rfl⟩
    have close : 10 ^ 16 * (one * 10 ^ exponent.toNat) ≤ units m * 10 ^ (-exponent).toNat :=
      (Nat.le_div_iff_mul_le (step_pos exponent)).mp (le_below nonzero place)
    have exact : near m exponent * 10 ^ exponent.toNat * one =
        near m exponent * (one * 10 ^ exponent.toNat) := by ring
    simp only [Option.getD_none, ← place, Decimal.magnitude, Nat.pow_eq]
    rw [exact]
    exact nearest_eq_of_close (Nat.pow_pos (by decide)) (two_mul_roundQuotient_le _ _)
      (two_mul_le_roundQuotient _ (step_pos exponent)) close

end TemplateCompiler.Json
