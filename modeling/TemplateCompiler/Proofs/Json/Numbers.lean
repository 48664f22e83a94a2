import Mathlib
import TemplateCompiler.Proofs.Json.Decimal
import TemplateCompiler.Proofs.Json.Leaves

/-!
# Numbers read back

Every number is written in such a way that it can be read. An integer is read as it was. A double
may be read as another one, because reading rounds several times.

A number only ends where no character follows that could belong to it.

## Main definitions

* `Json.EndsNumber` — text that does not go on with a number
* `Json.NumberText.Plain` — parts that can be read back
* `Json.Number.reread` — what a number is read as

## Main statements

* `Json.readNumberText_chars` — the parts of a number are read back
* `Json.Double.magnitude_text` — a double is next to what is written for it
* `Json.Number.isSome_value?_text` — no number is refused
* `Json.readNumber_chars` — what comes of reading a number
-/
namespace TemplateCompiler.Json

open Text Magnitude

/-! ## Digits -/

theorem all_isDigit_digits (n : Nat) : (digits n).all Char.isDigit = true :=
  List.all_eq_true.mpr fun _ mem => Nat.isDigit_of_mem_toDigits (by decide) (by decide) mem

/-- Digits spell their number. -/
theorem ofDigits_digits (n : Nat) : ofDigits (digits n) = n := by
  have spelled : Nat.ofDigitChars 10 (digits n) 0 = n := Nat.ofDigitChars_ten_toDigits
  rwa [Nat.ofDigitChars_eq_foldl] at spelled

/-- Zeros in front do not matter. -/
theorem ofDigits_zeros_append (count : Nat) (ds : List Char) :
    ofDigits (List.replicate count '0' ++ ds) = ofDigits ds := by
  rw [ofDigits, List.foldl_append]
  congr 1
  induction count with
  | zero => rfl
  | succ count ih => exact ih

/-- Zeros behind are factors of ten. -/
theorem ofDigits_append_zeros (ds : List Char) (count : Nat) :
    ofDigits (ds ++ List.replicate count '0') = ofDigits ds * 10 ^ count := by
  induction count with
  | zero => simp
  | succ count ih =>
    rw [List.replicate_succ', ← List.append_assoc, ofDigits, List.foldl_append]
    change 10 * ofDigits (ds ++ List.replicate count '0') + 0 = _
    rw [ih, Nat.pow_succ]
    ring

/-- A leading zero stands alone. -/
theorem digits_eq_zero_cons {n : Nat} {ds : List Char} (begins : digits n = '0' :: ds) :
    ds = [] := by
  induction n using Nat.strong_induction_on generalizing ds with
  | _ n ih =>
    rw [digits, Nat.toDigits_eq_if (by decide)] at begins
    split at begins
    · exact (List.cons.inj begins).2.symm
    · next large =>
      -- the number without its last digit is not zero
      exfalso
      obtain ⟨d, more, front⟩ := List.exists_cons_of_ne_nil
        (Nat.toDigits_ne_nil : Nat.toDigits 10 (n / 10) ≠ [])
      rw [front, List.cons_append] at begins
      obtain ⟨rfl, -⟩ := List.cons.inj begins
      obtain rfl := ih (n / 10) (by omega) front
      have zero := ofDigits_digits (n / 10)
      rw [digits, front] at zero
      have : ofDigits ['0'] = 0 := rfl
      omega

/-- A number that is not zero has no leading zero. -/
theorem head?_digits {n : Nat} (positive : 0 < n) : (digits n).head? ≠ some '0' := by
  intro zero
  obtain ⟨ds, begins⟩ := List.head?_eq_some_iff.mp zero
  have spelled := ofDigits_digits n
  rw [begins, digits_eq_zero_cons begins] at spelled
  exact positive.ne spelled

theorem ofDigits_append_singleton (ds : List Char) (d : Char) :
    ofDigits (ds ++ [d]) = 10 * ofDigits ds + digitValue d := by
  rw [ofDigits, List.foldl_append]
  rfl

theorem ofDigits_le_append (ds more : List Char) : ofDigits ds ≤ ofDigits (ds ++ more) := by
  induction more generalizing ds with
  | nil => rw [List.append_nil]
  | cons d more ih =>
    have next := ih (ds ++ [d])
    rw [ofDigits_append_singleton, List.append_assoc, List.singleton_append] at next
    omega

/-- Digits that spell a number of 64 bits all fit. -/
theorem fill_ofDigits {ds more : List Char} (fits : ofDigits (ds ++ more) < 2 ^ 64) :
    fill (ofDigits ds) more = (ofDigits (ds ++ more), []) := by
  induction more generalizing ds with
  | nil => rw [fill, List.append_nil]
  | cons d more ih =>
    have whole : ds ++ d :: more = (ds ++ [d]) ++ more := by simp
    rw [whole] at fits ⊢
    have next := Nat.lt_of_le_of_lt (ofDigits_le_append (ds ++ [d]) more) fits
    rw [fill, ← ih fits, ofDigits_append_singleton]
    rw [ofDigits_append_singleton] at next
    exact if_pos next

/-! ## The parts of a number -/

/-- Whether a number may go on with the character. -/
def isNumberChar (c : Char) : Bool := c.isDigit || c == '.' || c == 'e' || c == 'E'

/-- Text that does not go on with a number. -/
def EndsNumber (rest : List Char) : Prop := rest.head?.any isNumberChar = false

/-- Digits, at least one. -/
structure SomeDigits (ds : List Char) : Prop where
  ne_nil : ds ≠ []
  all : ds.all Char.isDigit = true

/-- Parts that can be read back. -/
structure NumberText.Plain (text : NumberText) : Prop where
  whole : SomeDigits text.whole
  leading : ∀ ds, text.whole = '0' :: ds → ds = []
  places : ∀ places ∈ text.places, SomeDigits places

theorem someDigits_digits (n : Nat) : SomeDigits (digits n) :=
  ⟨Nat.toDigits_ne_nil, all_isDigit_digits n⟩

/-- Text that does not go on with digits. -/
def EndsDigits (rest : List Char) : Prop := rest.head?.any Char.isDigit = false

section Reading

variable {rest : List Char}

theorem EndsNumber.endsDigits (ends : EndsNumber rest) : EndsDigits rest := by
  cases rest with
  | nil => rfl
  | cons c rest =>
    have other : isNumberChar c = false := by simpa [EndsNumber] using ends
    simp only [isNumberChar, Bool.or_eq_false_iff] at other
    exact other.1.1.1

theorem EndsNumber.head?_ne_point (ends : EndsNumber rest) : rest.head? ≠ some '.' := by
  intro point
  rw [EndsNumber, point] at ends
  cases ends

theorem ne_of_isDigit {c other : Char} (digit : c.isDigit = true)
    (differs : other.isDigit = false) : c ≠ other := by
  rintro rfl
  rw [digit] at differs
  cases differs

theorem SomeDigits.exists_cons {ds : List Char} (h : SomeDigits ds) :
    ∃ d more, ds = d :: more ∧ d.isDigit = true := by
  obtain ⟨d, more, rfl⟩ := List.exists_cons_of_ne_nil h.ne_nil
  exact ⟨d, more, rfl, (Bool.and_eq_true_iff.mp h.all).1⟩

theorem takeDigits_run {ds : List Char} (inside : ds.all Char.isDigit = true)
    (border : EndsDigits rest) : takeDigits (ds ++ rest) = .ok (ds, rest) := by
  rw [takeDigits, takeWhile_run inside border, dropWhile_run inside border]

theorem readSomeDigits_run {ds : List Char} (h : SomeDigits ds) (border : EndsDigits rest) :
    readSomeDigits (ds ++ rest) = .ok (ds, rest) := by
  obtain ⟨d, more, rfl, digit⟩ := h.exists_cons
  rw [readSomeDigits, List.cons_append, bind_of_ok (peek_cons d _)]
  simp only [digit, if_true]
  exact takeDigits_run h.all border

theorem readWhole_run {ds : List Char} (h : SomeDigits ds)
    (leading : ∀ more, ds = '0' :: more → more = []) (border : EndsDigits rest) :
    readWhole (ds ++ rest) = .ok (ds, rest) := by
  obtain ⟨d, more, rfl, digit⟩ := h.exists_cons
  rw [readWhole, List.cons_append, bind_of_ok (peek_cons d _)]
  by_cases zero : d = '0'
  · subst zero
    obtain rfl := leading more rfl
    change (advance >>= fun _ => _) _ = _
    rw [bind_of_ok (advance_cons _ _)]
    cases rest with
    | nil => rfl
    | cons c rest =>
      have other : c.isDigit = false := by simpa [EndsDigits] using border
      rw [List.nil_append, bind_of_ok (peek_cons c rest)]
      simp [other]
      rfl
  · simp only [digit]
    exact takeDigits_run h.all border

/-- Digits behind a point are read, and where there is no point nothing is. -/
theorem readPlaces_run {places : Option (List Char)} (h : ∀ ds ∈ places, SomeDigits ds)
    (border : EndsDigits rest) (noPoint : rest.head? ≠ some '.') :
    readPlaces (placeChars places ++ rest) = .ok (places, rest) := by
  rw [readPlaces]
  cases places with
  | none =>
    cases rest with
    | nil => rfl
    | cons c rest =>
      have point : c ≠ '.' := by simpa using noPoint
      rw [placeChars, List.nil_append, bind_of_ok (peek_cons c rest)]
      simp [point]
      rfl
  | some ds =>
    rw [placeChars, List.cons_append, bind_of_ok (peek_cons '.' _)]
    change (advance >>= fun _ => readSomeDigits >>= _) _ = _
    rw [bind_of_ok (advance_cons _ _), bind_of_ok (readSomeDigits_run (h ds rfl) border)]
    rfl

/-- A power of ten is read, and where there is none nothing is. -/
theorem readExponent_run (exponent : Option Int) (ends : EndsNumber rest) :
    readExponent (exponentChars exponent ++ rest) = .ok (exponent, rest) := by
  rw [readExponent]
  cases exponent with
  | none =>
    rw [exponentChars, List.nil_append]
    cases rest with
    | nil => rfl
    | cons c rest =>
      have other : isNumberChar c = false := by simpa [EndsNumber] using ends
      simp only [isNumberChar, Bool.or_eq_false_iff, beq_eq_false_iff_ne] at other
      rw [bind_of_ok (peek_cons c rest), if_neg (by simp [other])]
      rfl
  | some exponent =>
    have read := readSomeDigits_run (someDigits_digits exponent.natAbs) ends.endsDigits
    rw [exponentChars, List.cons_append, bind_of_ok (peek_cons 'e' _), if_pos (.inl rfl),
      bind_of_ok (advance_cons _ _)]
    by_cases negative : exponent < 0
    · have back : -(exponent.natAbs : Int) = exponent := by omega
      rw [sign, if_pos (decide_eq_true negative), List.append_assoc, List.singleton_append,
        bind_of_ok (peek_cons '-' _)]
      change (advance >>= fun _ => readSomeDigits >>= _) _ = _
      rw [bind_of_ok (advance_cons _ _), bind_of_ok read, ofDigits_digits, back]
      rfl
    · have back : (exponent.natAbs : Int) = exponent := by omega
      obtain ⟨d, more, spelled, digit⟩ := (someDigits_digits exponent.natAbs).exists_cons
      have minus : d ≠ '-' := ne_of_isDigit digit rfl
      have plus : d ≠ '+' := ne_of_isDigit digit rfl
      rw [sign, if_neg (by simpa using negative), List.nil_append]
      rw [spelled, List.cons_append] at read ⊢
      rw [bind_of_ok (peek_cons d _)]
      simp only [Option.some.injEq, minus, plus, imp_self]
      rw [bind_of_ok read, ← spelled, ofDigits_digits, back]
      rfl

/-- The parts of a number are read back. -/
theorem readNumberText_chars {text : NumberText} (plain : text.Plain) (ends : EndsNumber rest) :
    readNumberText (text.chars ++ rest) = .ok (text, rest) := by
  obtain ⟨negative, whole, places, exponent⟩ := text
  have power := readExponent_run exponent ends
  have noPoint : (exponentChars exponent ++ rest).head? ≠ some '.' := by
    cases exponent with
    | none => exact ends.head?_ne_point
    | some exponent => simp [exponentChars]
  have noDigits : EndsDigits (exponentChars exponent ++ rest) := by
    cases exponent with
    | none => exact ends.endsDigits
    | some exponent => rfl
  have border : EndsDigits (placeChars places ++ (exponentChars exponent ++ rest)) := by
    cases places with
    | none => exact noDigits
    | some ds => rfl
  have read : (do pure (⟨negative, ← readWhole, ← readPlaces, ← readExponent⟩ : NumberText) :
      Reader NumberText) (whole ++ (placeChars places ++ (exponentChars exponent ++ rest))) =
        .ok (⟨negative, whole, places, exponent⟩, rest) := by
    rw [bind_of_ok (readWhole_run plain.whole plain.leading border),
      bind_of_ok (readPlaces_run plain.places noDigits noPoint), bind_of_ok power]
    rfl
  rw [readNumberText, NumberText.chars]
  simp only [List.append_assoc]
  cases negative with
  | true =>
    rw [sign, if_pos rfl, List.singleton_append, bind_of_ok (peek_cons _ _)]
    change (advance >>= fun _ => _) _ = _
    rw [bind_of_ok (advance_cons _ _)]
    exact read
  | false =>
    obtain ⟨d, more, begins, digit⟩ := plain.whole.exists_cons
    obtain rfl : whole = d :: more := begins
    have minus : d ≠ '-' := ne_of_isDigit digit rfl
    rw [sign, if_neg Bool.false_ne_true, List.nil_append, List.cons_append,
      bind_of_ok (peek_cons _ _)]
    simp only [Option.some.injEq, minus, imp_self]
    exact read

end Reading

/-! ## The parts of what is written -/

section Parts

variable {ds more : List Char} {count : Nat}

theorem SomeDigits.append (h : SomeDigits ds) (inside : more.all Char.isDigit = true) :
    SomeDigits (ds ++ more) :=
  ⟨List.append_ne_nil_of_left_ne_nil h.ne_nil more, by rw [List.all_append, h.all, inside]; rfl⟩

theorem SomeDigits.take (h : SomeDigits ds) (positive : 0 < count) : SomeDigits (ds.take count) := by
  have inside := h.all
  rw [← List.take_append_drop count ds, List.all_append, Bool.and_eq_true] at inside
  exact ⟨by simp [h.ne_nil, positive.ne'], inside.1⟩

theorem SomeDigits.drop (h : SomeDigits ds) (less : count < ds.length) :
    SomeDigits (ds.drop count) := by
  have inside := h.all
  rw [← List.take_append_drop count ds, List.all_append, Bool.and_eq_true] at inside
  exact ⟨by simpa using less, inside.2⟩

/-- Digits that do not begin with a zero have no leading zero. -/
theorem leading_of_head? (first : ds.head? ≠ some '0') : ∀ more, ds = '0' :: more → more = [] := by
  rintro more rfl
  exact absurd rfl first

/-- A zero in front of the point. -/
theorem plain_zero (places : SomeDigits ds) (negative : Bool) :
    NumberText.Plain ⟨negative, ['0'], some ds, none⟩ where
  whole := ⟨by simp, rfl⟩
  leading _ zero := (List.cons.inj zero).2.symm
  places := by
    rintro _ ⟨⟩
    exact places

end Parts

/-- The decimal that the parts of a number spell. -/
def NumberText.decimal (text : NumberText) : Decimal :=
  ⟨ofDigits (text.whole ++ text.places.getD []),
    text.exponent.getD 0 - (text.places.getD []).length⟩

namespace Decimal

variable {d : Decimal} {negative : Bool}

/-- The parts of a decimal can be read back. -/
theorem plain_text (positive : 0 < d.mantissa) : (d.text negative).Plain := by
  have all := someDigits_digits d.mantissa
  have size := length_digits_pos d.mantissa
  have first := head?_digits positive
  have single : ((digits d.mantissa).take 1).head? ≠ some '0' := by
    rwa [List.head?_take, if_neg Nat.one_ne_zero]
  simp only [text]
  split_ifs with padded pointed small one
  · refine ⟨all.append (by simp), leading_of_head? ?_, ?_⟩
    · rwa [List.head?_append_of_ne_nil _ all.ne_nil]
    · rintro places ⟨⟩
      exact ⟨by simp, rfl⟩
  · refine ⟨all.take (by omega), leading_of_head? ?_, ?_⟩
    · rwa [List.head?_take, if_neg (by omega)]
    · rintro places ⟨⟩
      exact all.drop (by omega)
  · exact plain_zero ⟨by simp [all.ne_nil], by rw [List.all_append, all.all]; simp⟩ negative
  · exact ⟨all.take Nat.one_pos, leading_of_head? single, nofun⟩
  · refine ⟨all.take Nat.one_pos, leading_of_head? single, ?_⟩
    rintro places ⟨⟩
    exact all.drop (by omega)

/-- A decimal is written as it is, unless zeros stand at its end. They are written, too, and
another one behind the point. -/
theorem decimal_text (d : Decimal) (negative : Bool) :
    (d.text negative).decimal = d ∨
      0 ≤ d.exponent ∧ (digits d.mantissa).length + d.exponent ≤ mostWhole ∧
        (d.text negative).decimal = ⟨d.mantissa * 10 ^ (d.exponent.toNat + 1), -1⟩ := by
  obtain ⟨mantissa, exponent⟩ := d
  have size := length_digits_pos mantissa
  simp only [text]
  split_ifs with padded pointed small one
  · refine .inr ⟨padded.1, padded.2, ?_⟩
    simp only [NumberText.decimal, Option.getD_some, List.append_assoc]
    rw [← List.replicate_one, List.replicate_append_replicate, ofDigits_append_zeros,
      ofDigits_digits]
    rfl
  · refine .inl ?_
    simp only [NumberText.decimal, Option.getD_some, Option.getD_none, List.take_append_drop,
      ofDigits_digits, List.length_drop]
    congr 1
    omega
  · refine .inl ?_
    have zeros : ['0'] ++ (List.replicate (-((digits mantissa).length + exponent)).toNat '0' ++
        digits mantissa) = List.replicate ((-((digits mantissa).length + exponent)).toNat + 1) '0' ++
          digits mantissa := by
      rw [List.replicate_succ]
      rfl
    simp only [NumberText.decimal, Option.getD_some, Option.getD_none, zeros,
      ofDigits_zeros_append, ofDigits_digits, List.length_append, List.length_replicate]
    congr 1
    omega
  · refine .inl ?_
    have whole : (digits mantissa).take 1 = digits mantissa := List.take_of_length_le (by omega)
    simp only [NumberText.decimal, Option.getD_some, Option.getD_none, List.append_nil, whole,
      ofDigits_digits, List.length_nil, one]
    congr 1
    omega
  · refine .inl ?_
    simp only [NumberText.decimal, Option.getD_some, List.take_append_drop, ofDigits_digits,
      List.length_drop]
    congr 1
    omega

example : (text ⟨1, 15⟩ false).chars = "1000000000000000.0".toList ∧
    (text ⟨1, 16⟩ false).chars = "1e16".toList ∧
      (text ⟨12, -8⟩ true).chars = "-1.2e-7".toList := by
  decide

/-- The layout does not change which magnitude a decimal is next to. -/
theorem magnitude_text (d : Decimal) (negative : Bool) :
    (d.text negative).decimal.magnitude = d.magnitude := by
  obtain same | ⟨whole, -, same⟩ := decimal_text d negative
  · rw [same]
  · have none : (-d.exponent).toNat = 0 := by omega
    have factor : d.mantissa * 10 ^ (d.exponent.toNat + 1) * 10 ^ (-1 : Int).toNat * one =
        d.mantissa * 10 ^ d.exponent.toNat * one * 10 := by
      have negative : (-1 : Int).toNat = 0 := rfl
      rw [negative]
      ring
    simp only [same, magnitude, none, Nat.pow_eq]
    rw [factor]
    -- the zero behind the point is a factor of ten on either side of the quotient
    exact nearest_mul_right _ 1 (by decide)

/-- What is written has a point or a power of ten. -/
theorem integer?_text : (d.text negative).integer? = none := by
  simp only [text]
  split_ifs <;> rfl

/-- What is written for a decimal can be scaled if the decimal can. -/
theorem Writable.decimal_text (writable : d.Writable) (negative : Bool) :
    (d.text negative).decimal.Writable := by
  obtain same | ⟨whole, few, same⟩ := Decimal.decimal_text d negative
  · rwa [same]
  · rw [same]
    refine ⟨Nat.mul_pos writable.positive (Nat.pow_pos (by decide)), ?_, ?_⟩
    · have less := lt_pow_length_digits d.mantissa
      have size : (digits d.mantissa).length + (d.exponent.toNat + 1) ≤ enoughDigits := by
        simp only [mostWhole, enoughDigits] at *
        omega
      calc d.mantissa * 10 ^ (d.exponent.toNat + 1)
          ≤ 10 ^ (digits d.mantissa).length * 10 ^ (d.exponent.toNat + 1) :=
            Nat.mul_le_mul_right _ less.le
        _ = 10 ^ ((digits d.mantissa).length + (d.exponent.toNat + 1)) := (Nat.pow_add ..).symm
        _ ≤ 10 ^ enoughDigits := Nat.pow_le_pow_right (by decide) size
    · intro nonneg
      exact absurd nonneg (of_decide_eq_true rfl)

theorem Writable.scale_lt_infinity (writable : d.Writable) :
    scale (ofNat d.mantissa) d.exponent < infinity := by
  rcases le_or_gt 0 d.exponent with whole | negative
  · exact writable.finite whole
  · have small : ofNat (10 ^ enoughDigits) < infinity := by decide +kernel
    exact scale_lt_infinity_of_neg ((ofNat_mono writable.few).trans_lt small) negative

end Decimal

/-! ## Reading -/

/-- Digits that spell a number of 64 bits are scaled together. -/
theorem NumberText.double?_eq {text : NumberText} (fits : text.decimal.mantissa < 2 ^ 64) :
    text.double? = Double.ofMagnitude? text.negative
      (scale (ofNat text.decimal.mantissa) text.decimal.exponent) := by
  have first : ofDigits ([] ++ text.whole) < 2 ^ 64 :=
    (ofDigits_le_append text.whole _).trans_lt fits
  have whole : fill 0 text.whole = (ofDigits text.whole, []) := fill_ofDigits first
  simp only [double?, whole, fill_ofDigits fits]
  simp only [decimal, List.length_nil, Nat.cast_zero, add_zero, sub_zero]

theorem isSome_ofMagnitude? {magnitude : Nat} (finite : magnitude < infinity) (negative : Bool) :
    (Double.ofMagnitude? negative magnitude).isSome := by
  simp [Double.ofMagnitude?, finite]

theorem Double.isSome_double?_text (d : Double) : d.text.double?.isSome := by
  rw [Double.text]
  split_ifs with zero
  · cases d.negative <;> decide +kernel
  · have writable := (writable_decimal zero d.magnitude.isLt).decimal_text d.negative
    have fits := writable.few.trans_lt (by decide : 10 ^ enoughDigits < 2 ^ 64)
    rw [NumberText.double?_eq fits]
    exact isSome_ofMagnitude? writable.scale_lt_infinity _

theorem Double.integer?_text (d : Double) : d.text.integer? = none := by
  rw [Double.text]
  split_ifs
  · rfl
  · exact Decimal.integer?_text

/-- **A double is next to what is written for it.** -/
theorem Double.magnitude_text (d : Double) : d.text.decimal.magnitude = d.magnitude := by
  rw [Double.text]
  split_ifs with zero
  · rw [zero]
    exact (by decide +kernel : Decimal.magnitude ⟨0, -1⟩ = 0)
  · rw [Decimal.magnitude_text, magnitude_decimal zero]

theorem Double.plain_text (d : Double) : d.text.Plain := by
  rw [Double.text]
  split_ifs with zero
  · exact plain_zero ⟨by simp, rfl⟩ d.negative
  · exact Decimal.plain_text (writable_decimal zero d.magnitude.isLt).positive

namespace Number

theorem plain_text (number : Number) : number.text.Plain := by
  cases number with
  | integer n => exact ⟨someDigits_digits _, fun _ begins => digits_eq_zero_cons begins, nofun⟩
  | float d => exact d.plain_text

/-- An integer is read as it is written. -/
theorem value?_text_integer (n : Integer) : (integer n).text.value? = some (integer n) := by
  have back : (if decide (n.value < 0) = true then -(n.value.natAbs : Int) else n.value.natAbs) =
      n.value := by
    split_ifs with negative
    · have := of_decide_eq_true negative
      omega
    · have := of_decide_eq_false (Bool.eq_false_iff.mpr negative)
      omega
  have same : (integer n).text.integer? = some n := by
    simp only [NumberText.integer?, text, ofDigits_digits]
    rw [if_neg (by simp; omega), back]
    exact dif_pos ⟨n.least, n.greatest⟩
  rw [NumberText.value?, same]

/-- **No number is refused** when it is read as it is written. -/
theorem isSome_value?_text (number : Number) : number.text.value?.isSome := by
  cases number with
  | integer n => rw [value?_text_integer]; rfl
  | float d =>
    rw [text, NumberText.value?, d.integer?_text, Option.isSome_map]
    exact d.isSome_double?_text

/-- What a number is read as. -/
def reread (number : Number) : Number := number.text.value?.get number.isSome_value?_text

theorem value?_text (number : Number) : number.text.value? = some number.reread :=
  (Option.some_get _).symm

@[simp] theorem reread_integer (n : Integer) : (integer n).reread = integer n := by
  simp [reread, value?_text_integer]

end Number

/-- **What comes of reading a number.** -/
theorem readNumber_chars (number : Number) {rest : List Char} (ends : EndsNumber rest) :
    readNumber (number.chars ++ rest) = .ok (number.reread, rest) := by
  rw [readNumber, Number.chars, bind_of_ok (readNumberText_chars number.plain_text ends),
    number.value?_text]
  rfl

end TemplateCompiler.Json
