import TemplateCompiler.Markup.Matching
import TemplateCompiler.Text.Blank
import TemplateCompiler.Text.Cut

/-!
# Markup tokens

Template markup is a sequence of tokens: text, interpolations, comments and tags. A matcher takes
them from the front of its source one after the other. Where it reports an error, two braces of an
unterminated interpolation or one stray character are split off, and a fresh matcher goes on with
what stands behind them, so that every character of the markup belongs to a token.

How much of a pattern the matcher recognises is a parameter, a `Matching`.

## Main definitions

* `Markup.Token` — a kind and the characters it covers
* `Markup.comment?`, `Markup.closeTag?`, `Markup.openTag?`, `Markup.interpolation?` — the tokens
  that have a shape
* `Markup.match?` — the token at the front of a source, or an error
* `Markup.splitOff` — what is split off where there is an error
* `Markup.Cursor` — the source of the matcher and how far it has come
* `Markup.lex` — the tokens of a template with their byte spans

## Main statements

* `Markup.cutToken_of`, `Markup.taken_cutToken_ne_nil` — taking a token loses nothing and goes on
* `Markup.Cursor.left`, `Markup.Cursor.rest_restart` — no restart loses anything
-/
namespace TemplateCompiler.Markup

open Text

/-- What a token of markup is. -/
inductive Token.Kind where
  | comment
  /-- A closing tag and the name in it. -/
  | closeTag (name : String)
  | openTag
  | interpolation
  /-- Two opening braces without matching closing ones. -/
  | unterminatedInterpolation
  | text
  /-- An opening bracket or brace that begins nothing. -/
  | stray
  deriving DecidableEq, Repr

/-- A token of markup with the characters it covers. -/
structure Token where
  kind : Token.Kind
  text : List Char
  deriving DecidableEq, Repr

/-! ## Character classes -/

/-- How a tag's name may go on. -/
def isTagNameChar (c : Char) : Bool :=
  c.isAlphanum || c == ':' || c == '.' || c == '_' || c == '-'

/-- What an attribute's name is made of. -/
def isAttributeNameChar (c : Char) : Bool :=
  !(isMarkupBlank c || c == '"' || c == '\'' || c == '<' || c == '>' || c == '/' || c == '=')

/-- What a value without quotes is made of. Unlike a name it may hold slashes. -/
def isUnquotedChar (c : Char) : Bool :=
  !(isMarkupBlank c || c == '"' || c == '\'' || c == '<' || c == '>' || c == '=')

/-! ## Comments, interpolations and closing tags -/

/-- The rest of a comment. Two hyphens end it and must be followed by a bracket; a single hyphen
is taken together with the character after it. -/
def commentTail : List Char → Option Cut
  | [] => none
  | '-' :: '-' :: '>' :: rest => some ⟨['-', '-', '>'], rest⟩
  | '-' :: '-' :: _ => none
  | '-' :: c :: rest => (commentTail rest).map fun cut => (cut.cons c).cons '-'
  | c :: rest => (commentTail rest).map (Cut.cons c)

/-- A comment. -/
def comment? (cs : List Char) : Option Cut :=
  (after? ['<', '!', '-', '-'] cs).bind fun rest =>
    (commentTail rest).map (Cut.append ['<', '!', '-', '-'])

/-- The rest of an interpolation. Two closing braces end it; a single one is taken together with
the character after it. -/
def interpolationTail : List Char → Option Cut
  | [] => none
  | '}' :: '}' :: rest => some ⟨['}', '}'], rest⟩
  | '}' :: c :: rest => (interpolationTail rest).map fun cut => (cut.cons c).cons '}'
  | c :: rest => (interpolationTail rest).map (Cut.cons c)

/-- An expression between double braces. -/
def interpolation? (cs : List Char) : Option Cut :=
  (after? ['{', '{'] cs).bind fun rest =>
    (interpolationTail rest).map (Cut.append ['{', '{'])

/-- The name of a tag: a letter, then letters, digits and four marks. -/
def tagName? : List Char → Option Cut
  | [] => none
  | c :: rest => if c.isAlpha then some ((cutRun isTagNameChar rest).cons c) else none

/-- A closing tag and its name. -/
def closeTag? (cs : List Char) : Option (List Char × Cut) := do
  let rest ← after? ['<', '/'] cs
  let name ← tagName? rest
  let blanks := cutRun isMarkupBlank name.rest
  let rest ← after? ['>'] blanks.rest
  pure (name.taken, ⟨'<' :: '/' :: (name.taken ++ (blanks.taken ++ ['>'])), rest⟩)

/-! ## Opening tags -/

/-- A quoted text, quotes included. -/
def quoted? : List Char → Option Cut
  | [] => none
  | q :: rest =>
    if q = '"' ∨ q = '\'' then
      let inner := cutRun (· != q) rest
      (after? [q] inner.rest).map fun rest => ⟨q :: (inner.taken ++ [q]), rest⟩
    else none

/-- The value of an attribute: a quoted text, or a run of characters without quotes. -/
def attributeValue? (cs : List Char) : Option Cut :=
  match quoted? cs with
  | some cut => some cut
  | none =>
    let cut := cutRun isUnquotedChar cs
    if cut.taken = [] then none else some cut

/-- The equals sign and value that may follow an attribute's name. An equals sign has to lead to a
value. -/
def assignment? (cs : List Char) : Option (TagPart × Cut) :=
  let blanks := cutRun isMarkupBlank cs
  match after? ['='] blanks.rest with
  | some rest =>
    let gap := cutRun isMarkupBlank rest
    (attributeValue? gap.rest).map fun value =>
      (.value, value.append (blanks.taken ++ '=' :: gap.taken))
  | none => some (.bare, ⟨[], cs⟩)

/-- One attribute behind a part of the tag: blanks, a name and perhaps a value. -/
def attribute? [Matching] (before : TagPart) (cs : List Char) : Option (TagPart × Cut) :=
  let blanks := cutRun isMarkupBlank cs
  let name := cutRun isAttributeNameChar blanks.rest
  if blanks.taken = [] ∨ name.taken = [] ∨ Matching.toAttribute before = false then none
  else (assignment? name.rest).map fun read => (read.1, read.2.append (blanks.taken ++ name.taken))

/-- The bracket that closes an opening tag, and the slash of a tag that closes itself. -/
def tagCloser? : List Char → Option Cut
  | '/' :: '>' :: rest => some ⟨['/', '>'], rest⟩
  | '>' :: rest => some ⟨['>'], rest⟩
  | _ => none

/-- The end of an opening tag behind a part of it, with blanks in front where they may lead there. -/
def openTagEnd? [Matching] (before : TagPart) (cs : List Char) : Option Cut :=
  let blanks := cutRun isMarkupBlank cs
  if blanks.taken = [] ∨ Matching.toEnd before = true then
    (tagCloser? blanks.rest).map (Cut.append blanks.taken)
  else none

/-! Each reader cuts its input. -/

theorem of_commentTail {cs : List Char} {cut : Cut} (h : commentTail cs = some cut) :
    cut.Of cs := by
  fun_induction commentTail cs generalizing cut with
  | case1 => simp at h
  | case2 rest => simp at h; subst h; rfl
  | case3 => simp at h
  | case4 c rest _ _ ih =>
    obtain ⟨inner, hi, rfl⟩ := Option.map_eq_some_iff.mp h
    exact ((ih hi).cons _).cons _
  | case5 c rest _ _ _ ih =>
    obtain ⟨inner, hi, rfl⟩ := Option.map_eq_some_iff.mp h
    exact (ih hi).cons _

theorem of_interpolationTail {cs : List Char} {cut : Cut} (h : interpolationTail cs = some cut) :
    cut.Of cs := by
  fun_induction interpolationTail cs generalizing cut with
  | case1 => simp at h
  | case2 rest => simp at h; subst h; rfl
  | case3 c rest _ ih =>
    obtain ⟨inner, hi, rfl⟩ := Option.map_eq_some_iff.mp h
    exact ((ih hi).cons _).cons _
  | case4 c rest _ _ ih =>
    obtain ⟨inner, hi, rfl⟩ := Option.map_eq_some_iff.mp h
    exact (ih hi).cons _

theorem of_comment? {cs : List Char} {cut : Cut} (h : comment? cs = some cut) : cut.Of cs := by
  obtain ⟨rest, hr, h⟩ := Option.bind_eq_some_iff.mp h
  obtain ⟨inner, hi, rfl⟩ := Option.map_eq_some_iff.mp h
  rw [after?_eq_some_iff.mp hr]
  exact (of_commentTail hi).append _

theorem of_interpolation? {cs : List Char} {cut : Cut} (h : interpolation? cs = some cut) :
    cut.Of cs := by
  obtain ⟨rest, hr, h⟩ := Option.bind_eq_some_iff.mp h
  obtain ⟨inner, hi, rfl⟩ := Option.map_eq_some_iff.mp h
  rw [after?_eq_some_iff.mp hr]
  exact (of_interpolationTail hi).append _

theorem of_tagName? {cs : List Char} {cut : Cut} (h : tagName? cs = some cut) : cut.Of cs := by
  cases cs with
  | nil => simp [tagName?] at h
  | cons c rest =>
    simp only [tagName?] at h
    split at h
    · simp only [Option.some.injEq] at h
      subst h
      exact (cutRun_of _ _).cons _
    · simp at h

theorem of_closeTag? {cs name : List Char} {cut : Cut} (h : closeTag? cs = some (name, cut)) :
    cut.Of cs := by
  simp only [closeTag?, Option.bind_eq_bind, Option.bind_eq_some_iff, Option.pure_def,
    Option.some.injEq, Prod.mk.injEq] at h
  obtain ⟨rest, hr, inner, hn, tail, ht, rfl, rfl⟩ := h
  have hname := of_tagName? hn
  have htail := after?_eq_some_iff.mp ht
  have hblank : inner.rest.takeWhile isMarkupBlank ++ (['>'] ++ tail) = inner.rest := by
    rw [← htail]; exact cutRun_of isMarkupBlank inner.rest
  rw [after?_eq_some_iff.mp hr, ← hname]
  simp only [Cut.Of, cutRun_taken, List.cons_append, List.append_assoc, List.nil_append] at hblank ⊢
  rw [hblank]

theorem of_quoted? {cs : List Char} {cut : Cut} (h : quoted? cs = some cut) : cut.Of cs := by
  cases cs with
  | nil => simp [quoted?] at h
  | cons q rest =>
    simp only [quoted?] at h
    split at h
    · obtain ⟨tail, ht, rfl⟩ := Option.map_eq_some_iff.mp h
      have hinner := cutRun_of (· != q) rest
      simp only [Cut.Of, cutRun_taken, after?_eq_some_iff.mp ht] at hinner
      simp only [Cut.Of, cutRun_taken, List.cons_append, List.append_assoc]
      exact congrArg (q :: ·) hinner
    · simp at h

theorem of_attributeValue? {cs : List Char} {cut : Cut} (h : attributeValue? cs = some cut) :
    cut.Of cs := by
  simp only [attributeValue?] at h
  split at h
  · rename_i inner hq
    simp only [Option.some.injEq] at h
    exact h ▸ of_quoted? hq
  · split at h
    · simp at h
    · simp only [Option.some.injEq] at h
      exact h ▸ cutRun_of _ _

theorem of_assignment? {cs : List Char} {part : TagPart} {cut : Cut}
    (h : assignment? cs = some (part, cut)) : cut.Of cs := by
  simp only [assignment?] at h
  split at h
  · rename_i rest hr
    obtain ⟨value, hv, same⟩ := Option.map_eq_some_iff.mp h
    obtain ⟨rfl, rfl⟩ := Prod.mk.inj same
    have hvalue := of_attributeValue? hv
    have hgap : _ ++ _ = _ := cutRun_of isMarkupBlank rest
    have hblank : _ ++ _ = _ := cutRun_of isMarkupBlank cs
    rw [after?_eq_some_iff.mp hr] at hblank
    have := (hvalue.append ((cutRun isMarkupBlank cs).taken ++
      '=' :: (cutRun isMarkupBlank rest).taken))
    rw [List.append_assoc, List.cons_append, hgap] at this
    exact Eq.trans this hblank
  · obtain ⟨rfl, rfl⟩ := Prod.mk.inj (Option.some.inj h)
    rfl

theorem of_tagCloser? {cs : List Char} {cut : Cut} (h : tagCloser? cs = some cut) :
    cut.Of cs := by
  unfold tagCloser? at h
  split at h <;> simp at h <;> subst h <;> rfl

section OpenTag

variable [Matching]

theorem of_attribute? {cs : List Char} {before part : TagPart} {cut : Cut}
    (h : attribute? before cs = some (part, cut)) : cut.Of cs ∧ cut.taken ≠ [] := by
  simp only [attribute?] at h
  split at h
  · simp at h
  · rename_i hne
    obtain ⟨⟨_, value⟩, hv, same⟩ := Option.map_eq_some_iff.mp h
    obtain ⟨rfl, rfl⟩ := Prod.mk.inj same
    have hvalue := of_assignment? hv
    have hname := cutRun_of isAttributeNameChar (cutRun isMarkupBlank cs).rest
    have hblank := cutRun_of isMarkupBlank cs
    refine ⟨?_, fun e => hne (Or.inl ?_)⟩
    · simp only [Cut.Of, Cut.taken_append, Cut.rest_append, List.append_assoc] at *
      rw [hvalue, hname, hblank]
    · simp only [Cut.taken_append, List.append_eq_nil_iff] at e
      exact e.1.1

theorem of_openTagEnd? {cs : List Char} {before : TagPart} {cut : Cut}
    (h : openTagEnd? before cs = some cut) : cut.Of cs := by
  simp only [openTagEnd?] at h
  split at h
  · obtain ⟨closer, hc, rfl⟩ := Option.map_eq_some_iff.mp h
    have whole := (of_tagCloser? hc).append (cutRun isMarkupBlank cs).taken
    have hblank : _ ++ _ = _ := cutRun_of isMarkupBlank cs
    rwa [hblank] at whole
  · simp at h

end OpenTag

/-- The attributes of an opening tag behind a part of it, and its end. -/
def openTagTail [Matching] (before : TagPart) (cs : List Char) : Option Cut :=
  match _h : attribute? before cs with
  | some (part, cut) => (openTagTail part cut.rest).map (Cut.append cut.taken)
  | none => openTagEnd? before cs
termination_by cs.length
decreasing_by exact (of_attribute? _h).1.length_rest_lt (of_attribute? _h).2

/-- An opening tag. -/
def openTag? [Matching] (cs : List Char) : Option Cut := do
  let rest ← after? ['<'] cs
  let name ← tagName? rest
  (openTagTail .name name.rest).map (Cut.append ('<' :: name.taken))

section OpenTag

variable [Matching]

theorem of_openTagTail {cs : List Char} {before : TagPart} {cut : Cut}
    (h : openTagTail before cs = some cut) : cut.Of cs := by
  fun_induction openTagTail before cs generalizing cut with
  | case1 before cs part attr ha ih =>
    obtain ⟨inner, hi, rfl⟩ := Option.map_eq_some_iff.mp h
    have := (ih hi).append attr.taken
    rwa [(of_attribute? ha).1] at this
  | case2 before cs ha => exact of_openTagEnd? h

theorem of_openTag? {cs : List Char} {cut : Cut} (h : openTag? cs = some cut) : cut.Of cs := by
  simp only [openTag?, Option.bind_eq_bind, Option.bind_eq_some_iff] at h
  obtain ⟨rest, hr, name, hn, h⟩ := h
  obtain ⟨tail, ht, rfl⟩ := Option.map_eq_some_iff.mp h
  have := (of_openTagTail ht).append name.taken
  rw [of_tagName? hn] at this
  rw [after?_eq_some_iff.mp hr]
  exact this.cons '<'

end OpenTag

/-! ## The matcher -/

/-- The longer token that an opening bracket begins, given what follows the bracket. -/
def bracketToken? [Matching] (rest : List Char) : Option (Token.Kind × Cut) :=
  let cs := '<' :: rest
  match comment? cs, closeTag? cs, openTag? cs with
  | some cut, _, _ => some (.comment, cut)
  | none, some (name, cut), _ => some (.closeTag (String.ofList name), cut)
  | none, none, some cut => some (.openTag, cut)
  | none, none, none => none

/-- The longer token that an opening brace begins, given what follows the brace. -/
def braceToken? [Matching] (rest : List Char) : Option (Token.Kind × Cut) :=
  match interpolation? ('{' :: rest) with
  | some cut => some (.interpolation, cut)
  | none =>
    if Matching.strayBraces && rest == ['{', '}'] then some (.stray, ⟨['{', '{'], ['}']⟩) else none

/-- Whether the character belongs to plain text. -/
def isTextChar (c : Char) : Bool := c != '<' && c != '{'

/-- The longer token at the front of a source that begins with `c`. -/
def longToken? [Matching] (c : Char) (rest : List Char) : Option (Token.Kind × Cut) :=
  if c = '<' then bracketToken? rest
  else if c = '{' then braceToken? rest
  else some (.text, (cutRun isTextChar rest).cons c)

/-- What a longer token would begin with: two braces, or a character that stands for itself. -/
def splitOff (c : Char) (rest : List Char) : Token.Kind × Cut :=
  match after? ['{', '{'] (c :: rest) with
  | some tail => (.unterminatedInterpolation, ⟨['{', '{'], tail⟩)
  | none => (.stray, ⟨[c], rest⟩)

/-- The token that the matcher finds at the front of its source; `none` is an error. -/
def match? [Matching] (c : Char) (rest : List Char) : Option (Token.Kind × Cut) :=
  match longToken? c rest with
  | some token => some token
  | none => if Matching.fallsBack (c :: rest) then some (splitOff c rest) else none

theorem splitOff_of (c : Char) (rest : List Char) :
    (splitOff c rest).2.Of (c :: rest) ∧ (splitOff c rest).2.taken ≠ [] := by
  unfold splitOff
  split
  · rename_i tail h
    exact ⟨(after?_eq_some_iff.mp h).symm, by simp⟩
  · exact ⟨rfl, by simp⟩

theorem ne_nil_of_comment? {cs : List Char} {cut : Cut} (h : comment? cs = some cut) :
    cut.taken ≠ [] := by
  obtain ⟨rest, _, h⟩ := Option.bind_eq_some_iff.mp h
  obtain ⟨inner, _, rfl⟩ := Option.map_eq_some_iff.mp h
  simp

theorem ne_nil_of_interpolation? {cs : List Char} {cut : Cut} (h : interpolation? cs = some cut) :
    cut.taken ≠ [] := by
  obtain ⟨rest, _, h⟩ := Option.bind_eq_some_iff.mp h
  obtain ⟨inner, _, rfl⟩ := Option.map_eq_some_iff.mp h
  simp

theorem ne_nil_of_closeTag? {cs name : List Char} {cut : Cut}
    (h : closeTag? cs = some (name, cut)) : cut.taken ≠ [] := by
  simp only [closeTag?, Option.bind_eq_bind, Option.bind_eq_some_iff, Option.pure_def,
    Option.some.injEq, Prod.mk.injEq] at h
  obtain ⟨_, _, _, _, _, _, _, rfl⟩ := h
  simp

section Matcher

variable [Matching]

theorem ne_nil_of_openTag? {cs : List Char} {cut : Cut} (h : openTag? cs = some cut) :
    cut.taken ≠ [] := by
  simp only [openTag?, Option.bind_eq_bind, Option.bind_eq_some_iff] at h
  obtain ⟨_, _, _, _, h⟩ := h
  obtain ⟨_, _, rfl⟩ := Option.map_eq_some_iff.mp h
  simp

theorem bracketToken?_of {rest : List Char} {kind : Token.Kind} {cut : Cut}
    (h : bracketToken? rest = some (kind, cut)) : cut.Of ('<' :: rest) ∧ cut.taken ≠ [] := by
  simp only [bracketToken?] at h
  split at h
  · rename_i read
    obtain ⟨rfl, rfl⟩ := Prod.mk.inj (Option.some.inj h)
    exact ⟨of_comment? read, ne_nil_of_comment? read⟩
  · rename_i read
    obtain ⟨rfl, rfl⟩ := Prod.mk.inj (Option.some.inj h)
    exact ⟨of_closeTag? read, ne_nil_of_closeTag? read⟩
  · rename_i read
    obtain ⟨rfl, rfl⟩ := Prod.mk.inj (Option.some.inj h)
    exact ⟨of_openTag? read, ne_nil_of_openTag? read⟩
  · cases h

theorem braceToken?_of {rest : List Char} {kind : Token.Kind} {cut : Cut}
    (h : braceToken? rest = some (kind, cut)) : cut.Of ('{' :: rest) ∧ cut.taken ≠ [] := by
  simp only [braceToken?] at h
  split at h
  · rename_i read
    obtain ⟨rfl, rfl⟩ := Prod.mk.inj (Option.some.inj h)
    exact ⟨of_interpolation? read, ne_nil_of_interpolation? read⟩
  · split at h
    · rename_i last
      obtain ⟨rfl, rfl⟩ := Prod.mk.inj (Option.some.inj h)
      rw [Bool.and_eq_true, beq_iff_eq] at last
      exact ⟨by rw [last.2]; rfl, by simp⟩
    · cases h

theorem longToken?_of {c : Char} {rest : List Char} {kind : Token.Kind} {cut : Cut}
    (h : longToken? c rest = some (kind, cut)) : cut.Of (c :: rest) ∧ cut.taken ≠ [] := by
  unfold longToken? at h
  split at h
  · rename_i bracket
    subst bracket
    exact bracketToken?_of h
  split at h
  · rename_i brace
    subst brace
    exact braceToken?_of h
  · obtain ⟨rfl, rfl⟩ := Prod.mk.inj (Option.some.inj h)
    exact ⟨(cutRun_of _ _).cons c, by simp⟩

/-- **Matching a token loses nothing**, and it covers at least one character. -/
theorem match?_of {c : Char} {rest : List Char} {kind : Token.Kind} {cut : Cut}
    (h : match? c rest = some (kind, cut)) : cut.Of (c :: rest) ∧ cut.taken ≠ [] := by
  unfold match? at h
  split at h
  · rename_i read
    obtain rfl := Option.some.inj h
    exact longToken?_of read
  split at h
  · have same := Option.some.inj h
    have whole := splitOff_of c rest
    rwa [same] at whole
  · cases h

end Matcher

/-! ## The loop around the matcher -/

/-- The token at the front of what is left of a source: the one that is matched, or what is split
off where there is an error. -/
def cutToken [Matching] (c : Char) (rest : List Char) : Token.Kind × Cut :=
  (match? c rest).getD (splitOff c rest)

section Front

variable [Matching]

private theorem cutToken_spec (c : Char) (rest : List Char) :
    (cutToken c rest).2.Of (c :: rest) ∧ (cutToken c rest).2.taken ≠ [] := by
  rw [cutToken]
  cases found : match? c rest with
  | some token => exact match?_of found
  | none => exact splitOff_of c rest

/-- Cutting a token loses nothing. -/
theorem cutToken_of (c : Char) (rest : List Char) : (cutToken c rest).2.Of (c :: rest) :=
  (cutToken_spec c rest).1

/-- Every token covers at least one character. -/
theorem taken_cutToken_ne_nil (c : Char) (rest : List Char) :
    (cutToken c rest).2.taken ≠ [] :=
  (cutToken_spec c rest).2

theorem length_rest_cutToken_lt (c : Char) (rest : List Char) :
    (cutToken c rest).2.rest.length < (c :: rest).length :=
  (cutToken_of c rest).length_rest_lt (taken_cutToken_ne_nil c rest)

end Front

/-- How far some markup has been lexed. -/
structure Cursor (markup : List Char) where
  /-- Where the source of the matcher begins in the markup, in bytes. -/
  offset : Nat
  /-- How far the matcher has come in its source, in bytes. -/
  position : Nat
  /-- What it has not come to. -/
  rest : List Char
  /-- That is what the markup has not been lexed of. -/
  left : ∃ front, markup = front ++ rest ∧ byteLength front = offset + position

namespace Cursor

variable {markup : List Char}

/-- A matcher whose source is the whole markup. -/
def start (markup : List Char) : Cursor markup := ⟨0, 0, markup, [], rfl, rfl⟩

/-- The place in the markup that has been come to. -/
def place (cursor : Cursor markup) : Nat := cursor.offset + cursor.position

/-- The matcher goes on behind a token. -/
def advance (cursor : Cursor markup) (cut : Cut) (of : cut.Of cursor.rest) : Cursor markup where
  offset := cursor.offset
  position := cursor.position + byteLength cut.taken
  rest := cut.rest
  left := by
    obtain ⟨front, whole, length⟩ := cursor.left
    refine ⟨front ++ cut.taken, ?_, ?_⟩
    · rw [whole, List.append_assoc, of]
    · rw [byteLength_append, length, Nat.add_assoc]

/-- A fresh matcher takes what is left of the markup behind the characters of `cut` as its
source. -/
def restart (cursor : Cursor markup) (cut : Cut) (of : cut.Of cursor.rest) : Cursor markup where
  offset := cursor.place + byteLength cut.taken
  position := 0
  rest := dropBytes (cursor.place + byteLength cut.taken) markup
  left := by
    obtain ⟨front, whole, length⟩ := cursor.left
    have place : cursor.place + byteLength cut.taken = byteLength (front ++ cut.taken) := by
      rw [byteLength_append, length, Cursor.place]
    refine ⟨front ++ cut.taken, ?_, place.symm⟩
    rw [place, whole, ← of, ← List.append_assoc, dropBytes_byteLength]

@[simp] theorem rest_advance (cursor : Cursor markup) (cut : Cut) (of : cut.Of cursor.rest) :
    (cursor.advance cut of).rest = cut.rest := rfl

@[simp] theorem place_advance (cursor : Cursor markup) (cut : Cut) (of : cut.Of cursor.rest) :
    (cursor.advance cut of).place = cursor.place + byteLength cut.taken :=
  (Nat.add_assoc ..).symm

/-- The source of a fresh matcher is what the other one has not come to. -/
@[simp] theorem rest_restart (cursor : Cursor markup) (cut : Cut) (of : cut.Of cursor.rest) :
    (cursor.restart cut of).rest = cut.rest := by
  obtain ⟨front, whole, length⟩ := cursor.left
  have place : cursor.place + byteLength cut.taken = byteLength (front ++ cut.taken) := by
    rw [byteLength_append, length, Cursor.place]
  have split : markup = (front ++ cut.taken) ++ cut.rest := by
    rw [whole, ← of, List.append_assoc]
  show dropBytes (cursor.place + byteLength cut.taken) markup = cut.rest
  rw [place]
  conv => lhs; rw [split]
  exact dropBytes_byteLength _ _

@[simp] theorem place_restart (cursor : Cursor markup) (cut : Cut) (of : cut.Of cursor.rest) :
    (cursor.restart cut of).place = cursor.place + byteLength cut.taken := rfl

/-- The cursor behind a token. The matcher goes on, and behind an error there is a fresh one. -/
def next (cursor : Cursor markup) (isMatched : Bool) (cut : Cut) (of : cut.Of cursor.rest) :
    Cursor markup :=
  if isMatched then cursor.advance cut of else cursor.restart cut of

@[simp] theorem rest_next (cursor : Cursor markup) (isMatched : Bool) (cut : Cut)
    (of : cut.Of cursor.rest) : (cursor.next isMatched cut of).rest = cut.rest := by
  cases isMatched
  · exact cursor.rest_restart cut of
  · exact cursor.rest_advance cut of

@[simp] theorem place_next (cursor : Cursor markup) (isMatched : Bool) (cut : Cut)
    (of : cut.Of cursor.rest) :
    (cursor.next isMatched cut of).place = cursor.place + byteLength cut.taken := by
  cases isMatched
  · exact cursor.place_restart cut of
  · exact cursor.place_advance cut of

end Cursor

/-- The tokens from the cursor on with their byte spans. -/
def lexFrom [Matching] {markup : List Char} (cursor : Cursor markup) : List (Token × Span) :=
  match here : cursor.rest with
  | [] => []
  | c :: rest =>
    let token := cutToken c rest
    let behind := cursor.next (match? c rest).isSome token.2 (here ▸ cutToken_of c rest)
    (⟨token.1, token.2.taken⟩, ⟨cursor.place, behind.place⟩) :: lexFrom behind
termination_by cursor.rest.length
decreasing_by
  rw [Cursor.rest_next, here]
  exact length_rest_cutToken_lt c rest

/-- The tokens of a template with their byte spans. -/
def lex [Matching] (template : String) : List (Token × Span) := lexFrom (.start template.toList)

end TemplateCompiler.Markup
