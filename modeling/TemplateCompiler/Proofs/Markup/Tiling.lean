import TemplateCompiler.Proofs.Markup.Restart

/-!
# Tokens tile the markup

The tokens of a text, put one after the other, are the text again, so the byte spans that `lex`
reports cut it between characters, leave no gap and do not overlap. The two kinds of token that
hold expressions have a shape of their own.

## Main definitions

* `Markup.Covers` — a span covers a given stretch of text

## Main statements

* `Markup.flatMap_text_tokens` — nothing is lost
* `Markup.covers_of_mem_lex` — a token's span covers its characters
* `Markup.ordered_lex` — the spans come one after the other
* `Markup.braces_of_mem_lex`, `Markup.brackets_of_mem_lex` — how interpolations and opening tags
  begin and end
-/
namespace TemplateCompiler.Markup

open Text

/-! ## Stretches of text -/

/-- In text that begins at byte `position`, the span covers exactly the characters `stretch`. -/
def Covers (position : Nat) (text : List Char) (span : Span) (stretch : List Char) : Prop :=
  ∃ before behind : List Char, text = before ++ (stretch ++ behind) ∧
    span = ⟨position + byteLength before, position + byteLength before + byteLength stretch⟩

namespace Covers

variable {position : Nat} {text stretch : List Char} {span : Span}

/-- A stretch of a part of the text is one of the whole text. -/
theorem behind (front : List Char)
    (h : Covers (position + byteLength front) text span stretch) :
    Covers position (front ++ text) span stretch := by
  obtain ⟨before, behind, rfl, rfl⟩ := h
  exact ⟨front ++ before, behind, by rw [List.append_assoc], by simp [Nat.add_assoc]⟩

/-- A stretch of the front of a text is one of the whole text. -/
theorem inFront (h : Covers position text span stretch) (rest : List Char) :
    Covers position (text ++ rest) span stretch := by
  obtain ⟨before, behind, rfl, rfl⟩ := h
  exact ⟨before, behind ++ rest, by simp only [List.append_assoc], rfl⟩

/-- Where the text begins does not matter. -/
theorem shift (h : Covers 0 text span stretch) (position : Nat) :
    Covers position text (span.shift position) stretch := by
  obtain ⟨before, behind, rfl, rfl⟩ := h
  exact ⟨before, behind, rfl, by simp [Span.shift, Nat.add_comm, Nat.add_left_comm]⟩

/-- A stretch of a stretch is a stretch. -/
theorem trans {inner : List Char} {innerSpan : Span} (h : Covers position text span stretch)
    (h' : Covers span.start stretch innerSpan inner) : Covers position text innerSpan inner := by
  obtain ⟨before, rest, rfl, rfl⟩ := h
  obtain ⟨innerBefore, innerRest, rfl, rfl⟩ := h'
  refine ⟨before ++ innerBefore, innerRest ++ rest, ?_, ?_⟩
  · simp only [List.append_assoc]
  · simp [Nat.add_assoc]

theorem le (h : Covers position text span stretch) :
    position ≤ span.start ∧ span.stop = span.start + byteLength stretch ∧
      span.stop ≤ position + byteLength text := by
  obtain ⟨before, behind, rfl, rfl⟩ := h
  simp only [byteLength_append, true_and]
  omega

end Covers

/-! ## Positions -/

/-- Tokens with their positions spell what they do without. -/
theorem flatMap_positioned (position : Nat) (all : List Token) :
    ((positioned position all).flatMap fun located => located.1.text) =
      all.flatMap Token.text := by
  induction all generalizing position with
  | nil => rfl
  | cons token all ih => rw [positioned, List.flatMap_cons, List.flatMap_cons, ih]

/-- The span of a token covers its characters. -/
theorem covers_of_mem_positioned {position : Nat} {all : List Token} {located : Token × Span}
    (mem : located ∈ positioned position all) :
    located.1 ∈ all ∧
      Covers position (all.flatMap Token.text) located.2 located.1.text := by
  induction all generalizing position with
  | nil => simp [positioned] at mem
  | cons token rest ih =>
    rw [List.flatMap_cons]
    rcases List.mem_cons.mp mem with rfl | mem
    · exact ⟨List.mem_cons_self, [], _, rfl, by simp⟩
    · obtain ⟨inRest, covers⟩ := ih mem
      exact ⟨List.mem_cons_of_mem _ inRest, covers.behind _⟩

/-- The spans of tokens come one after the other. -/
theorem ordered_positioned (position : Nat) (all : List Token) :
    (positioned position all).Pairwise fun a b => a.2.stop ≤ b.2.start := by
  induction all generalizing position with
  | nil => exact .nil
  | cons token rest ih =>
    refine .cons ?_ (ih _)
    intro located mem
    exact (covers_of_mem_positioned mem).2.le.1

/-! ## Tiling -/

section Tiling

variable [Matching]

/-- The tokens spell the markup. -/
theorem flatMap_text_tokens (cs : List Char) : (tokens cs).flatMap Token.text = cs := by
  fun_induction tokens cs with
  | case1 => rfl
  | case2 c rest ih =>
    rw [List.flatMap_cons, ih]
    exact cutToken_of c rest

/-- Every token has been cut from the front of some markup. -/
theorem exists_cutToken_of_mem_tokens {cs : List Char} {token : Token} (mem : token ∈ tokens cs) :
    ∃ c rest, token = ⟨(cutToken c rest).1, (cutToken c rest).2.taken⟩ := by
  fun_induction tokens cs with
  | case1 => cases mem
  | case2 c rest ih =>
    rcases List.mem_cons.mp mem with here | behind
    · exact ⟨c, rest, here⟩
    · exact ih behind

/-- **A token's span covers exactly its characters in the template.** -/
theorem covers_of_mem_lex {template : String} {located : Token × Span}
    (mem : located ∈ lex template) :
    Covers 0 template.toList located.2 located.1.text := by
  rw [lex_eq] at mem
  have h := (covers_of_mem_positioned mem).2
  rwa [flatMap_text_tokens] at h

theorem ordered_lex (template : String) :
    (lex template).Pairwise fun a b => a.2.stop ≤ b.2.start := by
  rw [lex_eq]
  exact ordered_positioned 0 _

/-- What is lexed is cut. -/
theorem mem_tokens_of_mem_lex {template : String} {located : Token × Span}
    (mem : located ∈ lex template) : located.1 ∈ tokens template.toList := by
  rw [lex_eq] at mem
  exact (covers_of_mem_positioned mem).1

end Tiling

/-! ## Shapes -/

theorem braces_of_interpolationTail {cs : List Char} {cut : Cut}
    (h : interpolationTail cs = some cut) : ∃ inner, cut.taken = inner ++ ['}', '}'] := by
  fun_induction interpolationTail cs generalizing cut with
  | case1 => simp at h
  | case2 rest => simp at h; subst h; exact ⟨[], rfl⟩
  | case3 c rest _ ih =>
    obtain ⟨inner, hi, rfl⟩ := Option.map_eq_some_iff.mp h
    obtain ⟨text, ht⟩ := ih hi
    exact ⟨'}' :: c :: text, by simp [ht]⟩
  | case4 c rest _ _ ih =>
    obtain ⟨inner, hi, rfl⟩ := Option.map_eq_some_iff.mp h
    obtain ⟨text, ht⟩ := ih hi
    exact ⟨c :: text, by simp [ht]⟩

theorem braces_of_interpolation? {cs : List Char} {cut : Cut} (h : interpolation? cs = some cut) :
    ∃ inner, cut.taken = '{' :: '{' :: (inner ++ ['}', '}']) := by
  obtain ⟨rest, _, h⟩ := Option.bind_eq_some_iff.mp h
  obtain ⟨tail, ht, rfl⟩ := Option.map_eq_some_iff.mp h
  obtain ⟨inner, hi⟩ := braces_of_interpolationTail ht
  exact ⟨inner, by simp [hi]⟩

theorem bracket_of_tagCloser? {cs : List Char} {cut : Cut} (h : tagCloser? cs = some cut) :
    ∃ inner, cut.taken = inner ++ ['>'] := by
  unfold tagCloser? at h
  split at h <;> simp at h <;> subst h
  · exact ⟨['/'], rfl⟩
  · exact ⟨[], rfl⟩

section OpenTag

variable [Matching]

theorem bracket_of_openTagTail {cs : List Char} {before : TagPart} {cut : Cut}
    (h : openTagTail before cs = some cut) : ∃ inner, cut.taken = inner ++ ['>'] := by
  fun_induction openTagTail before cs generalizing cut with
  | case1 before cs part attr _ ih =>
    obtain ⟨tail, ht, rfl⟩ := Option.map_eq_some_iff.mp h
    obtain ⟨inner, hi⟩ := ih ht
    exact ⟨attr.taken ++ inner, by simp [hi]⟩
  | case2 before cs _ =>
    simp only [openTagEnd?] at h
    split at h
    · obtain ⟨closer, hc, rfl⟩ := Option.map_eq_some_iff.mp h
      obtain ⟨inner, hi⟩ := bracket_of_tagCloser? hc
      exact ⟨(cutRun isMarkupBlank cs).taken ++ inner, by simp [hi]⟩
    · cases h

theorem brackets_of_openTag? {cs : List Char} {cut : Cut} (h : openTag? cs = some cut) :
    ∃ inner, cut.taken = '<' :: (inner ++ ['>']) := by
  simp only [openTag?, Option.bind_eq_bind, Option.bind_eq_some_iff] at h
  obtain ⟨_, _, name, _, h⟩ := h
  obtain ⟨tail, ht, rfl⟩ := Option.map_eq_some_iff.mp h
  obtain ⟨inner, hi⟩ := bracket_of_openTagTail ht
  exact ⟨name.taken ++ inner, by simp [hi]⟩

end OpenTag

/-- What the token at the front of markup looks like. -/
def Token.Shaped (token : Token) : Prop :=
  (token.kind = .interpolation → ∃ inner, token.text = '{' :: '{' :: (inner ++ ['}', '}'])) ∧
    (token.kind = .openTag → ∃ inner, token.text = '<' :: (inner ++ ['>']))

theorem shaped_splitOff (c : Char) (rest : List Char) :
    Token.Shaped ⟨(splitOff c rest).1, (splitOff c rest).2.taken⟩ := by
  unfold splitOff
  split <;> simp [Token.Shaped]

section Shapes

variable [Matching]

theorem shaped_of_bracketToken? {rest : List Char} {kind : Token.Kind} {cut : Cut}
    (h : bracketToken? rest = some (kind, cut)) : Token.Shaped ⟨kind, cut.taken⟩ := by
  simp only [bracketToken?] at h
  split at h
  · obtain ⟨rfl, rfl⟩ := Prod.mk.inj (Option.some.inj h)
    simp [Token.Shaped]
  · obtain ⟨rfl, rfl⟩ := Prod.mk.inj (Option.some.inj h)
    simp [Token.Shaped]
  · rename_i read
    obtain ⟨rfl, rfl⟩ := Prod.mk.inj (Option.some.inj h)
    exact ⟨by simp, fun _ => brackets_of_openTag? read⟩
  · cases h

theorem shaped_of_braceToken? {rest : List Char} {kind : Token.Kind} {cut : Cut}
    (h : braceToken? rest = some (kind, cut)) : Token.Shaped ⟨kind, cut.taken⟩ := by
  simp only [braceToken?] at h
  split at h
  · rename_i read
    obtain ⟨rfl, rfl⟩ := Prod.mk.inj (Option.some.inj h)
    exact ⟨fun _ => braces_of_interpolation? read, by simp⟩
  split at h
  · obtain ⟨rfl, rfl⟩ := Prod.mk.inj (Option.some.inj h)
    simp [Token.Shaped]
  · cases h

theorem shaped_of_mem_tokens {cs : List Char} {token : Token} (mem : token ∈ tokens cs) :
    token.Shaped := by
  obtain ⟨c, rest, rfl⟩ := exists_cutToken_of_mem_tokens mem
  cases long : longToken? c rest with
  | none =>
    rw [cutToken_eq_splitOff long]
    exact shaped_splitOff c rest
  | some token =>
    rw [cutToken_eq_some long]
    unfold longToken? at long
    split at long
    · exact shaped_of_bracketToken? long
    split at long
    · exact shaped_of_braceToken? long
    · obtain rfl := Option.some.inj long
      simp [Token.Shaped]

/-- An interpolation stands between two pairs of braces. -/
theorem braces_of_mem_lex {template : String} {located : Token × Span}
    (mem : located ∈ lex template) (kind : located.1.kind = .interpolation) :
    ∃ inner, located.1.text = '{' :: '{' :: (inner ++ ['}', '}']) :=
  (shaped_of_mem_tokens (mem_tokens_of_mem_lex mem)).1 kind

/-- An opening tag stands between brackets. -/
theorem brackets_of_mem_lex {template : String} {located : Token × Span}
    (mem : located ∈ lex template) (kind : located.1.kind = .openTag) :
    ∃ inner, located.1.text = '<' :: (inner ++ ['>']) :=
  (shaped_of_mem_tokens (mem_tokens_of_mem_lex mem)).2 kind

end Shapes

end TemplateCompiler.Markup
