import TemplateCompiler.Markup.Token

/-!
# Restarts do not show

The loop that lexes a template starts a fresh matcher behind every error and counts positions from
there. Still its result is that of cutting tokens off the front of the markup one after the other,
with spans that add up their lengths: a longer token where one is recognised, and what is split off
where none is, whether the matcher falls back to it or reports an error.

## Main definitions

* `Markup.tokens` — tokens cut off the front of the markup
* `Markup.positioned` — tokens with the spans that their lengths add up to

## Main statements

* `Markup.cutToken_bracket`, `Markup.cutToken_brace`, `Markup.cutToken_text` — what is at the front
* `Markup.lex_eq` — lexing is cutting
-/
namespace TemplateCompiler.Markup

open Text

/-! ## Tokens -/

section Front

variable [Matching]

/-- What is at the front does not depend on whether the matcher falls back or reports an error. -/
theorem cutToken_eq (c : Char) (rest : List Char) :
    cutToken c rest = (longToken? c rest).getD (splitOff c rest) := by
  rw [cutToken, match?]
  cases longToken? c rest with
  | some token => rfl
  | none => dsimp only; split <;> rfl

theorem cutToken_eq_some {c : Char} {rest : List Char} {token : Token.Kind × Cut}
    (h : longToken? c rest = some token) : cutToken c rest = token := by
  rw [cutToken_eq, h, Option.getD_some]

theorem cutToken_eq_splitOff {c : Char} {rest : List Char} (h : longToken? c rest = none) :
    cutToken c rest = splitOff c rest := by
  rw [cutToken_eq, h, Option.getD_none]

/-- What is at the front if that is a bracket. -/
theorem cutToken_bracket (rest : List Char) :
    cutToken '<' rest =
      match comment? ('<' :: rest), closeTag? ('<' :: rest), openTag? ('<' :: rest) with
      | some cut, _, _ => (.comment, cut)
      | none, some (name, cut), _ => (.closeTag (String.ofList name), cut)
      | none, none, some cut => (.openTag, cut)
      | none, none, none => (.stray, ⟨['<'], rest⟩) := by
  have long : longToken? '<' rest = bracketToken? rest := rfl
  rw [cutToken_eq, long, bracketToken?]
  cases comment? ('<' :: rest) with
  | some cut => rfl
  | none =>
    cases closeTag? ('<' :: rest) with
    | some read => rfl
    | none => cases openTag? ('<' :: rest) <;> rfl

/-- What is at the front if that is a brace. -/
theorem cutToken_brace (rest : List Char) :
    cutToken '{' rest =
      match interpolation? ('{' :: rest) with
      | some cut => (.interpolation, cut)
      | none =>
        if Matching.strayBraces && rest == ['{', '}'] then (.stray, ⟨['{', '{'], ['}']⟩)
        else splitOff '{' rest := by
  have long : longToken? '{' rest = braceToken? rest := rfl
  rw [cutToken_eq, long, braceToken?]
  cases interpolation? ('{' :: rest) with
  | some cut => rfl
  | none => dsimp only; split <;> rfl

/-- What is at the front if that is text. -/
theorem cutToken_text {c : Char} (text : isTextChar c = true) (rest : List Char) :
    cutToken c rest = (.text, (cutRun isTextChar rest).cons c) := by
  simp only [isTextChar, Bool.and_eq_true, bne_iff_ne] at text
  rw [cutToken_eq, longToken?, if_neg text.1, if_neg text.2, Option.getD_some]

end Front

/-- The tokens of the markup, in order. -/
def tokens [Matching] : List Char → List Token
  | [] => []
  | c :: rest =>
    ⟨(cutToken c rest).1, (cutToken c rest).2.taken⟩ :: tokens (cutToken c rest).2.rest
termination_by cs => cs.length
decreasing_by exact length_rest_cutToken_lt c rest

/-- Give each token its byte span; the first one begins at `offset`. -/
def positioned (offset : Nat) : List Token → List (Token × Span)
  | [] => []
  | token :: rest =>
    let stop := offset + byteLength token.text
    (token, ⟨offset, stop⟩) :: positioned stop rest

/-! ## The loop -/

section Loop

variable [Matching]

/-- The loop cuts tokens from its cursor on, wherever the source of the matcher begins. -/
theorem lexFrom_eq {markup : List Char} (cursor : Cursor markup) :
    lexFrom cursor = positioned cursor.place (tokens cursor.rest) := by
  fun_induction lexFrom cursor with
  | case1 cursor here => rw [here, tokens, positioned]
  | case2 cursor c rest here token behind ih =>
    rw [here, tokens, positioned, ih]
    simp only [behind, token, Cursor.rest_next, Cursor.place_next]

/-- **Lexing is cutting tokens** off the front of the template. -/
theorem lex_eq (template : String) : lex template = positioned 0 (tokens template.toList) :=
  lexFrom_eq _

end Loop

end TemplateCompiler.Markup
