import Mathlib
import TemplateCompiler.Json.Double

/-!
# Rounding keeps the order

Rounding a greater quotient does not give a lesser magnitude, and a greater magnitude does not have
fewer units. So whether a number can be read without an overflow is decided by the greatest numbers
of its kind, and for them it can be computed.

## Main statements

* `Json.Magnitude.nearest_mono`, `Json.Magnitude.units_mono` — the order is kept
* `Json.Magnitude.scale_lt_infinity_of_neg` — negative powers of ten do not lead out of the doubles
-/
namespace TemplateCompiler.Json.Magnitude

/-! ## Rounded quotients -/

section Quotients

variable {n n' d c : Nat}

theorem div_le_roundQuotient (n d : Nat) : n / d ≤ roundQuotient n d := by
  simp only [roundQuotient]
  split <;> omega

theorem roundQuotient_le (n d : Nat) : roundQuotient n d ≤ n / d + 1 := by
  simp only [roundQuotient]
  split <;> omega

theorem roundQuotient_mono (h : n ≤ n') (d : Nat) : roundQuotient n d ≤ roundQuotient n' d := by
  rcases (Nat.div_le_div_right h : n / d ≤ n' / d).lt_or_eq with lt | same
  · exact (roundQuotient_le n d).trans (Nat.lt_of_lt_of_le lt (div_le_roundQuotient n' d))
  · have rest : n % d ≤ n' % d := by
      have split := Nat.div_add_mod n d
      have split' := Nat.div_add_mod n' d
      rw [same] at split
      omega
    simp only [roundQuotient, same]
    split_ifs <;> omega

/-- A common factor does not matter. -/
theorem roundQuotient_mul_right (n d : Nat) (positive : 0 < c) :
    roundQuotient (n * c) (d * c) = roundQuotient n d := by
  have less : d * c < 2 * (n % d * c) ↔ d < 2 * (n % d) := by
    rw [← Nat.mul_assoc, Nat.mul_lt_mul_right positive]
  have half : d * c = 2 * (n % d * c) ↔ d = 2 * (n % d) := by
    rw [← Nat.mul_assoc, Nat.mul_left_inj positive.ne']
  simp only [roundQuotient, Nat.mul_div_mul_right _ _ positive, Nat.mul_mod_mul_right, less, half]

/-- Rounding adds half a unit at most. -/
theorem two_mul_roundQuotient_le (n d : Nat) : 2 * (roundQuotient n d * d) ≤ 2 * n + d := by
  have split := Nat.div_add_mod n d
  rw [Nat.mul_comm] at split
  simp only [roundQuotient]
  split_ifs with up
  · rw [Nat.add_mul]
    omega
  · omega

/-- Rounding takes away half a unit at most. -/
theorem two_mul_le_roundQuotient (n : Nat) (positive : 0 < d) :
    2 * n ≤ 2 * (roundQuotient n d * d) + d := by
  have split := Nat.div_add_mod n d
  have rest := Nat.mod_lt n positive
  rw [Nat.mul_comm] at split
  simp only [roundQuotient]
  split_ifs with up
  · rw [Nat.add_mul]
    omega
  · omega

/-- A quotient is rounded to a number that is less than half a unit away. -/
theorem roundQuotient_eq {q : Nat} (above : 2 * (q * d) < 2 * n + d)
    (below : 2 * n < 2 * (q * d) + d) : roundQuotient n d = q := by
  have positive : 0 < d := by omega
  have least := two_mul_le_roundQuotient n positive
  have greatest := two_mul_roundQuotient_le n d
  refine Nat.le_antisymm ?_ ?_
  · refine Nat.le_of_lt_succ (Nat.lt_of_mul_lt_mul_right (a := d) ?_)
    rw [Nat.succ_mul]
    omega
  · refine Nat.le_of_lt_succ (Nat.lt_of_mul_lt_mul_right (a := d) ?_)
    rw [Nat.succ_mul]
    omega

end Quotients

/-! ## Rounded magnitudes -/

section Nearest

variable {n n' d c : Nat}

/-- A quotient is less than `2 ^ 53` times a unit in its last place. -/
theorem div_lt_two_pow (n d : Nat) : n / (d * 2 ^ ((n / d).log2 - 52)) < 2 ^ 53 := by
  rw [← Nat.div_div_eq_div_mul, Nat.div_lt_iff_lt_mul (Nat.two_pow_pos _), ← Nat.pow_add]
  exact Nat.lt_log2_self.trans_le (Nat.pow_le_pow_right (by decide) (by omega))

theorem two_pow_le_div (large : 52 < (n / d).log2) :
    2 ^ 52 ≤ n / (d * 2 ^ ((n / d).log2 - 52)) := by
  have some : n / d ≠ 0 := by
    intro none
    simp [none] at large
  rw [← Nat.div_div_eq_div_mul, Nat.le_div_iff_mul_le (Nat.two_pow_pos _), ← Nat.pow_add,
    Nat.add_sub_cancel' large.le]
  exact Nat.log2_self_le some

theorem log2_le_log2 (h : n ≤ n') : n.log2 ≤ n'.log2 := by
  by_cases zero : n = 0
  · simp [zero]
  · exact (Nat.le_log2 (by omega)).mpr ((Nat.log2_self_le zero).trans h)

/-- **Rounding keeps the order.** -/
theorem nearest_mono (h : n ≤ n') (d : Nat) : nearest n d ≤ nearest n' d := by
  have quotients : n / d ≤ n' / d := Nat.div_le_div_right h
  have logs : (n / d).log2 ≤ (n' / d).log2 := log2_le_log2 quotients
  simp only [nearest, Nat.pow_eq]
  by_cases same : (n / d).log2 - 52 = (n' / d).log2 - 52
  · rw [same]
    exact Nat.add_le_add_left (roundQuotient_mono h _) _
  · have below := roundQuotient_le n (d * 2 ^ ((n / d).log2 - 52))
    have above := div_le_roundQuotient n' (d * 2 ^ ((n' / d).log2 - 52))
    have low := div_lt_two_pow n d
    have high : 2 ^ 52 ≤ n' / (d * 2 ^ ((n' / d).log2 - 52)) := two_pow_le_div (by omega)
    omega

/-- A common factor does not matter. -/
theorem nearest_mul_right (n d : Nat) (positive : 0 < c) :
    nearest (n * c) (d * c) = nearest n d := by
  simp only [nearest, Nat.mul_div_mul_right _ _ positive]
  rw [Nat.mul_right_comm, roundQuotient_mul_right _ _ positive]

/-- A quotient of few binary digits is next to a finite magnitude. -/
theorem nearest_lt_infinity (small : (n / d).log2 < 2097) : nearest n d < infinity := by
  have below := roundQuotient_le n (d * 2 ^ ((n / d).log2 - 52))
  have low := div_lt_two_pow n d
  simp only [nearest, infinity, Nat.pow_eq]
  omega

/-- A greater magnitude does not have fewer units. -/
theorem units_mono {m m' : Nat} (h : m ≤ m') : units m ≤ units m' := by
  have exponents : m / 2 ^ 52 - 1 ≤ m' / 2 ^ 52 - 1 := by omega
  simp only [units, Nat.pow_eq]
  rcases exponents.lt_or_eq with lt | same
  · have fraction : m - (m / 2 ^ 52 - 1) * 2 ^ 52 ≤ 2 ^ 53 := by omega
    have fraction' : 2 ^ 52 ≤ m' - (m' / 2 ^ 52 - 1) * 2 ^ 52 := by omega
    calc (m - (m / 2 ^ 52 - 1) * 2 ^ 52) * 2 ^ (m / 2 ^ 52 - 1)
        ≤ 2 ^ 53 * 2 ^ (m / 2 ^ 52 - 1) := Nat.mul_le_mul_right _ fraction
      _ = 2 ^ 52 * 2 ^ (m / 2 ^ 52 - 1 + 1) := by ring
      _ ≤ 2 ^ 52 * 2 ^ (m' / 2 ^ 52 - 1) :=
        Nat.mul_le_mul_left _ (Nat.pow_le_pow_right (by decide) lt)
      _ ≤ _ := Nat.mul_le_mul_right _ fraction'
  · rw [same]
    exact Nat.mul_le_mul_right _ (by omega)

/-- The fraction and the exponent of a magnitude. -/
theorem exists_units_eq (m : Nat) : ∃ f e, units m = f * 2 ^ e ∧ m = e * 2 ^ 52 + f ∧
    f < 2 ^ 53 ∧ (e ≠ 0 → 2 ^ 52 ≤ f) :=
  ⟨m - (m / 2 ^ 52 - 1) * 2 ^ 52, m / 2 ^ 52 - 1, rfl, by omega, by omega, by omega⟩

/-- How a quotient is rounded that lies between two powers of two. -/
theorem nearest_eq {e q : Nat} (upper : n < 2 ^ (e + 53) * d)
    (lower : e ≠ 0 → 2 ^ (e + 52) * d ≤ n) (above : 2 * (q * (d * 2 ^ e)) < 2 * n + d * 2 ^ e)
    (below : 2 * n < 2 * (q * (d * 2 ^ e)) + d * 2 ^ e) : nearest n d = e * 2 ^ 52 + q := by
  have positive : 0 < d := Nat.pos_of_ne_zero fun none => by simp [none] at upper
  have few : (n / d) < 2 ^ (e + 53) := (Nat.div_lt_iff_lt_mul positive).mpr upper
  have exponent : (n / d).log2 - 52 = e := by
    by_cases zero : n / d = 0
    · have subnormal : e = 0 := by
        by_contra normal
        have many := (Nat.le_div_iff_mul_le positive).mpr (lower normal)
        rw [zero] at many
        exact absurd (Nat.two_pow_pos (e + 52)) (Nat.not_lt_of_le many)
      simp [zero, subnormal]
    · have log := (Nat.log2_lt zero).mpr few
      by_cases subnormal : e = 0
      · omega
      · have many := (Nat.le_log2 zero).mpr ((Nat.le_div_iff_mul_le positive).mpr (lower subnormal))
        omega
  rw [nearest, exponent, Nat.pow_eq, Nat.pow_eq, roundQuotient_eq above below]

/-- **A quotient that is as close to a magnitude as 17 digits are** is rounded to it. -/
theorem nearest_eq_of_close {m distance : Nat} (positive : 0 < d)
    (above : 2 * n ≤ 2 * (units m * d) + distance)
    (below : 2 * (units m * d) ≤ 2 * n + distance) (close : 10 ^ 16 * distance ≤ units m * d) :
    nearest n d = m := by
  obtain ⟨f, e, whole, same, few, normal⟩ := exists_units_eq m
  obtain ⟨unit, hunit⟩ : ∃ unit, unit = d * 2 ^ e := ⟨_, rfl⟩
  have unitPos : 0 < unit := hunit ▸ Nat.mul_pos positive (Nat.two_pow_pos e)
  have exact : units m * d = f * unit := by rw [whole, hunit]; ring
  have most : f * unit ≤ (2 ^ 53 - 1) * unit := Nat.mul_le_mul_right _ (Nat.le_sub_one_of_lt few)
  have binade (k : Nat) : 2 ^ (e + k) * d = 2 ^ k * unit := by rw [hunit]; ring
  rw [exact] at above below close
  -- below a power of two the magnitudes are closer to each other by half
  by_cases lowest : e ≠ 0 ∧ f = 2 ^ 52 ∧ n < f * unit
  · obtain ⟨nonzero, rfl, less⟩ := lowest
    obtain ⟨e, rfl⟩ := Nat.exists_eq_succ_of_ne_zero nonzero
    have half : unit = 2 * (d * 2 ^ e) := by rw [hunit, Nat.succ_eq_add_one]; ring
    have binade (k : Nat) : 2 ^ (e + k) * d = 2 ^ k * (d * 2 ^ e) := by ring
    rw [nearest_eq (e := e) (q := 2 ^ 53), same]
    · omega
    · rw [binade]; omega
    · intro _
      rw [binade]; omega
    · omega
    · omega
  · have least (nonzero : e ≠ 0) : 2 ^ 52 * unit ≤ n := by
      rcases (normal nonzero).lt_or_eq with more | boundary
      · have next : (2 ^ 52 + 1) * unit ≤ f * unit := Nat.mul_le_mul_right _ more
        omega
      · have beyond : f * unit ≤ n := Nat.le_of_not_lt fun less => lowest ⟨nonzero, boundary.symm, less⟩
        rwa [← boundary] at beyond
    rw [nearest_eq (e := e) (q := f), ← same]
    · rw [binade]; omega
    · intro nonzero
      rw [binade]
      exact least nonzero
    · rw [← hunit]; omega
    · rw [← hunit]; omega

/-- **A magnitude is next to itself.** -/
theorem nearest_units (m : Nat) : nearest (units m) 1 = m :=
  nearest_eq_of_close Nat.one_pos (by omega : 2 * units m ≤ 2 * (units m * 1) + 0) (by omega)
    (Nat.zero_le _)

end Nearest

/-! ## Scaling -/

section Scaling

variable {m m' k k' : Nat}

theorem one_positive : 0 < one := by decide +kernel

theorem multiply_mono (h : m ≤ m') (h' : k ≤ k') : multiply m k ≤ multiply m' k' :=
  nearest_mono (Nat.mul_le_mul (units_mono h) (units_mono h')) _

theorem ofNat_mono (h : m ≤ m') : ofNat m ≤ ofNat m' := nearest_mono (Nat.mul_le_mul_right _ h) 1

/-- A finite magnitude is divided by powers of ten without an overflow. -/
theorem divide_lt_infinity (finite : m < infinity) (positive : 0 < k) :
    divide m (ofNat (Nat.pow 10 k)) < infinity := by
  rw [Nat.pow_eq]
  have eight : 8 * one ≤ units (ofNat 10) := by decide +kernel
  have ten : 10 ^ 1 ≤ 10 ^ k := Nat.pow_le_pow_right (by decide) positive
  have power : 8 * one ≤ units (ofNat (10 ^ k)) := eight.trans (units_mono (ofNat_mono ten))
  have greatest : units m * one ≤ units (infinity - 1) * one :=
    Nat.mul_le_mul_right _ (units_mono (Nat.le_sub_one_of_lt finite))
  have quotient : units m * one / units (ofNat (10 ^ k)) ≤ units (infinity - 1) / 8 := by
    refine (Nat.div_le_div greatest power (by decide +kernel)).trans ?_
    rw [Nat.mul_div_mul_right _ _ one_positive]
  refine nearest_lt_infinity (Nat.lt_of_le_of_lt (log2_le_log2 quotient) ?_)
  decide +kernel

/-- **Negative powers of ten do not lead out of the doubles.** -/
theorem scale_lt_infinity_of_neg {exponent : Int} (finite : m < infinity) (negative : exponent < 0) :
    scale m exponent < infinity := by
  fun_induction scale m exponent with
  | case1 => decide
  | case2 magnitude exponent _ beyond =>
    have : (0 : Int) ≤ greatestPower := Int.natCast_nonneg _
    omega
  | case3 magnitude exponent _ _ positive => omega
  | case4 magnitude exponent _ _ _ near =>
    have positive : 0 < (-exponent).toNat := by omega
    exact divide_lt_infinity finite positive
  | case5 magnitude exponent _ _ _ far ih =>
    exact ih (divide_lt_infinity finite (by decide)) (by omega)

end Scaling

end TemplateCompiler.Json.Magnitude
