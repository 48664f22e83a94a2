import Mathlib
import TemplateCompiler.Json.Reader
import TemplateCompiler.Proofs.Text.Run

/-!
# Strings read back

A string is read back as it was, whatever characters are in it.

## Main statements

* `Json.bind_of_ok`, `Json.bind_of_error` — going on behind what has been read
* `Json.readString_quote` — strings
-/
namespace TemplateCompiler.Json

open Text

/-! ## Steps of a reader -/

section Steps

variable {α β : Type} {reader : Reader α} {next : α → Reader β} {here rest : List Char}

/-- Go on behind what has been read. -/
theorem bind_of_ok {value : α} (read : reader here = .ok (value, rest)) :
    (reader >>= next) here = next value rest := by
  change (reader here >>= fun read => next read.1 read.2) = _
  rw [read]
  rfl

/-- A fault ends it. -/
theorem bind_of_error {f : Fault} (fails : reader here = .error f) :
    (reader >>= next) here = .error f := by
  change (reader here >>= fun read => next read.1 read.2) = _
  rw [fails]
  rfl

theorem peek_cons (c : Char) (rest : List Char) : peek (c :: rest) = .ok (some c, c :: rest) := rfl

theorem advance_cons (c : Char) (rest : List Char) : advance (c :: rest) = .ok ((), rest) := rfl

theorem peekAfterBlanks_cons {c : Char} (solid : isBlank c = false) (rest : List Char) :
    peekAfterBlanks (c :: rest) = .ok (some c, c :: rest) := by
  simp [peekAfterBlanks, solid]

end Steps

/-! ## Strings -/

theorem ofHex?_hexDigits {n : Nat} (small : n < 0x20) :
    ofHex? ['0', '0', hexDigit (n / 16), hexDigit n] = some n := by
  revert n
  decide

/-- A character is escaped by a letter or by its number, or it stands for itself. -/
theorem escape_cases (c : Char) :
    (∃ letter, escape c = ['\\', letter] ∧ simpleEscape? letter = some c) ∨
      (c.toNat < 0x20 ∧
        escape c = ['\\', 'u', '0', '0', hexDigit (c.toNat / 16), hexDigit c.toNat]) ∨
      (c ≠ '"' ∧ c ≠ '\\' ∧ ¬ c.toNat < 0x20 ∧ escape c = [c]) := by
  unfold escape
  split_ifs with quote backslash back form feed ret tab control
  · exact .inl ⟨'"', rfl, by rw [quote]; rfl⟩
  · exact .inl ⟨'\\', rfl, by rw [backslash]; rfl⟩
  · exact .inl ⟨'b', rfl, by rw [back]; rfl⟩
  · exact .inl ⟨'f', rfl, by rw [form]; rfl⟩
  · exact .inl ⟨'n', rfl, by rw [feed]; rfl⟩
  · exact .inl ⟨'r', rfl, by rw [ret]; rfl⟩
  · exact .inl ⟨'t', rfl, by rw [tab]; rfl⟩
  · exact .inr (.inl ⟨control, rfl⟩)
  · exact .inr (.inr ⟨quote, backslash, control, rfl⟩)

/-- A control character is read by its number. -/
theorem readCodeUnits_hexDigits {c : Char} (control : c.toNat < 0x20) (rest : List Char) :
    readCodeUnits ('0' :: '0' :: hexDigit (c.toNat / 16) :: hexDigit c.toNat :: rest) =
      .ok (c, rest) := by
  have hex : readHex ('0' :: '0' :: hexDigit (c.toNat / 16) :: hexDigit c.toNat :: rest) =
      .ok (c.toNat, rest) := by
    have size (n : Nat) : (hexDigit n).utf8Size = 1 := by
      have digits : ∀ k < 16, (Nat.digitChar k).utf8Size = 1 := by decide
      exact digits _ (Nat.mod_lt n (by decide))
    have bytes : byteLength ['0', '0', hexDigit (c.toNat / 16), hexDigit c.toNat] = 4 := by
      simp only [byteLength_cons, byteLength_nil, size]
      rfl
    simp [readHex, bytes, ofHex?_hexDigits control]
  have low : isLowHalf c.toNat = false := by simp [isLowHalf]; omega
  have high : isHighHalf c.toNat = false := by simp [isHighHalf]; omega
  rw [readCodeUnits, bind_of_ok hex]
  simp only [low, high, Bool.false_eq_true, if_false]
  exact congrArg (fun d => Except.ok (d, rest)) (Char.ofNat_toNat c)

/-- The escape of a character is read as that character. -/
theorem readStringTail_escape (c : Char) (before rest : List Char) (fuel : Nat) :
    readStringTail before (fuel + 1) (escape c ++ rest) =
      readStringTail (c :: before) fuel rest := by
  rcases escape_cases c with ⟨letter, escaped, plain⟩ | ⟨control, escaped⟩ |
    ⟨quote, backslash, printable, escaped⟩
  · have read : readEscape (letter :: rest) = .ok (c, rest) := by
      rw [readEscape, bind_of_ok (peek_cons letter rest)]
      dsimp only
      rw [bind_of_ok (advance_cons letter rest), plain]
      rfl
    rw [escaped, List.cons_append, List.cons_append, List.nil_append, readStringTail,
      if_neg (by decide), if_pos rfl, read]
  · have read : readEscape ('u' :: '0' :: '0' :: hexDigit (c.toNat / 16) :: hexDigit c.toNat ::
        rest) = .ok (c, rest) :=
      readCodeUnits_hexDigits control rest
    rw [escaped]
    simp only [List.cons_append, List.nil_append]
    rw [readStringTail, if_neg (by decide), if_pos rfl, read]
  · rw [escaped, List.singleton_append, readStringTail, if_neg quote, if_neg backslash,
      if_neg printable]

/-- **A string is read back.** -/
theorem readString_quote (text : String) (rest : List Char) {fuel : Nat}
    (enough : text.length < fuel) :
    readString fuel (text.toList.flatMap escape ++ '"' :: rest) = .ok (text, rest) := by
  have general (cs : List Char) (before : List Char) (fuel : Nat) (enough : cs.length < fuel) :
      readStringTail before fuel (cs.flatMap escape ++ '"' :: rest) =
        .ok (before.reverse ++ cs, rest) := by
    induction cs generalizing before fuel with
    | nil =>
      obtain ⟨fuel, rfl⟩ := Nat.exists_eq_succ_of_ne_zero (Nat.ne_zero_of_lt enough)
      simp [readStringTail]
    | cons c cs ih =>
      obtain ⟨fuel, rfl⟩ := Nat.exists_eq_succ_of_ne_zero (Nat.ne_zero_of_lt enough)
      rw [List.flatMap_cons, List.append_assoc, readStringTail_escape,
        ih _ _ (Nat.lt_of_succ_lt_succ enough)]
      simp
  rw [← String.length_toList] at enough
  rw [readString, bind_of_ok (general _ [] fuel enough)]
  simp [pure, StateT.pure, Except.pure]

end TemplateCompiler.Json
