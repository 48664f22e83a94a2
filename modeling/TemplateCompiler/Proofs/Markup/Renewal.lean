import TemplateCompiler.Proofs.Markup.TagParts
import TemplateCompiler.Proofs.Text.Splice

/-!
# Tags with other values

The attributes of an opening tag can be read from its parts one by one, if it is kept in mind which
name and which equals sign wait for a value. So it is known which parts are values, and other texts
can be put in their place. The tag stays an opening tag then, and the same attributes are read from
it with the texts as their values.

## Main definitions

* `Markup.Pending`, `Markup.readParts` — attributes, part by part
* `Markup.renewParts` — parts with other values
* `Markup.Welcome` — a text that may be put in the place of a value

## Main statements

* `Markup.attributesOf_tail` — the attributes of a tag are those of its parts
* `Markup.exists_renewed_tag` — every opening tag can be given other values
-/
namespace TemplateCompiler.Markup

open Text

/-! ## Attributes, part by part -/

/-- What waits for a value. -/
inductive Pending where
  | idle
  | named (name : Located)
  /-- An equals sign stands behind the name. -/
  | assigned (name : Located)

namespace Pending

/-- The attribute if no value comes. -/
def valueless : Pending → List Attribute
  | idle => []
  | named name | assigned name => [⟨name, none⟩]

/-- An equals sign. -/
def assign : Pending → List Attribute × Pending
  | idle => ([], idle)
  | named name => ([], assigned name)
  | assigned name => ([⟨name, none⟩], idle)

/-- Go on with a part that begins at byte `position`: the attributes that are complete with it, and
what waits behind it. -/
def step : Pending → Nat → Part → List Attribute × Pending
  | pending, _, .mark c => if c = '=' then pending.assign else ([], pending)
  | assigned name, position, .word text =>
    ([⟨name, some ⟨String.ofList text, ⟨position, position + byteLength text⟩⟩⟩], idle)
  | assigned name, position, .quoted _ text =>
    ([⟨name, some ⟨String.ofList text, ⟨position + 1, position + 1 + byteLength text⟩⟩⟩], idle)
  | pending, position, .word text =>
    (pending.valueless, named ⟨String.ofList text, ⟨position, position + byteLength text⟩⟩)
  | pending, _, .quoted _ _ => (pending.valueless, idle)

/-- The tokens that have been read of what waits; the equals sign has the given span. -/
def tokens (span : Span) : Pending → List (TagToken × Span)
  | idle => []
  | named name => [(.word name.text, name.span)]
  | assigned name => [(.word name.text, name.span), (.equals, span)]

end Pending

/-- The attributes of parts that begin at byte `position`. -/
def readParts : Pending → Nat → List Part → List Attribute
  | pending, _, [] => pending.valueless
  | pending, position, part :: parts =>
    (pending.step position part).1 ++
      readParts (pending.step position part).2 (position + byteLength part.text) parts

section Step

variable (pending : Pending) (position : Nat) (parts : List Part)

@[simp] theorem readParts_nil : readParts pending position [] = pending.valueless := rfl

@[simp] theorem readParts_equals :
    readParts pending position (.mark '=' :: parts) =
      pending.assign.1 ++ readParts pending.assign.2 (position + 1) parts := rfl

theorem readParts_mark {c : Char} (other : c ≠ '=') :
    readParts pending position (.mark c :: parts) =
      readParts pending (position + c.utf8Size) parts := by
  rw [readParts, Pending.step, if_neg other, List.nil_append]
  rfl

end Step

/-- **The attributes of a tag are those of its parts.** -/
theorem attributesOf_tail {parts : List Part} (fitting : Fitting parts) (pending : Pending)
    (position : Nat) (span : Span) :
    attributesOf (pending.tokens span ++ lexTag (tail parts []) position) =
      readParts pending position parts := by
  induction fitting generalizing pending position span with
  | nil =>
    rw [tail_nil, lexTag_close]
    cases pending <;> simp [Pending.tokens, attributesOf, Pending.valueless]
  | @mark c parts char behind ih =>
    rw [tail_mark]
    by_cases equals : c = '='
    · subst equals
      rw [lexTag_equals, readParts_equals, ← ih _ _ ⟨position, position + 1⟩]
      cases pending <;> simp [Pending.tokens, Pending.assign, attributesOf]
    · rw [readParts_mark _ _ _ equals, ← ih _ _ span]
      by_cases closes : c = '/' ∧ parts = []
      · obtain ⟨rfl, rfl⟩ := closes
        rw [tail_nil, lexTag_selfClose, lexTag_close]
        cases pending <;> simp [Pending.tokens, attributesOf]
      · have skipped : isMarkupBlank c = true ∨ c = '/' ∧ (tail parts []).head? ≠ some '>' := by
          rcases char with blank | rfl | rfl
          · exact .inl blank
          · refine .inr ⟨rfl, fun bracket => closes ⟨rfl, ?_⟩⟩
            obtain ⟨cs, same⟩ := List.head?_eq_some_iff.mp bracket
            exact (eq_nil_of_tail behind same).1
          · exact absurd rfl equals
        rw [lexTag_skip skipped]
  | @word text parts word first behind ih =>
    rw [tail_word, lexTag_word word.1 word.2 (first.head?_tail behind []), readParts]
    cases pending <;>
      simp [Pending.tokens, Pending.step, Pending.valueless, attributesOf, Part.text, ← ih _ _ span]
  | @quoted quote text parts isQuote absent behind ih =>
    have inner : position + byteLength (quote :: (text ++ [quote])) - 1 =
        position + 1 + byteLength text := by
      simp [utf8Size_of_isFence isQuote.isFence]
      omega
    rw [tail_quoted, lexTag_quoted isQuote absent, readParts]
    cases pending <;>
      simp only [Pending.tokens, Pending.step, Pending.valueless, Part.text, ← ih _ _ span,
        List.nil_append, List.cons_append, attributesOf, inner]

/-! ## Other values -/

/-- What waits is the same, wherever its name stands. -/
def Pending.Same : Pending → Pending → Prop
  | idle, idle => True
  | named name, named other | assigned name, assigned other => name.text = other.text
  | _, _ => False

section Renewal

variable (new : Span → Option String)

/-- The name and the value of an attribute, with the new text if there is one for the span of the
value. -/
def Attribute.renewedTexts (a : Attribute) : String × Option String :=
  (a.name.text, a.value.map fun value => (new value.span).getD value.text)

/-- The edits that put new texts in the place of values. -/
def renewals (attributes : List Attribute) : List Edit :=
  (valuesOf attributes).filterMap fun value => (new value.span).map (Edit.mk value.span)

theorem renewals_append (attributes more : List Attribute) :
    renewals new (attributes ++ more) = renewals new attributes ++ renewals new more := by
  rw [renewals, valuesOf, List.filterMap_append, List.filterMap_append]
  rfl

/-- A part with another text, if it is a value that there is a new text for. -/
def Pending.renew : Pending → Nat → Part → Part
  | assigned _, position, .word text =>
    .word (((new ⟨position, position + byteLength text⟩).map String.toList).getD text)
  | assigned _, position, .quoted quote text =>
    .quoted quote
      (((new ⟨position + 1, position + 1 + byteLength text⟩).map String.toList).getD text)
  | _, _, part => part

/-- Parts with other values. -/
def renewParts : Pending → Nat → List Part → List Part
  | _, _, [] => []
  | pending, position, part :: parts =>
    pending.renew new position part ::
      renewParts (pending.step position part).2 (position + byteLength part.text) parts

/-- What a part with another text makes of what waits: the same attributes with other values. -/
theorem texts_renew {pending other : Pending} (same : pending.Same other)
    (position otherPosition : Nat) (part : Part) :
    (other.step otherPosition (pending.renew new position part)).1.map Attribute.texts =
        (pending.step position part).1.map (Attribute.renewedTexts new) ∧
      (pending.step position part).2.Same
        (other.step otherPosition (pending.renew new position part)).2 := by
  cases part with
  | mark c =>
    rw [show pending.renew new position (.mark c) = .mark c by cases pending <;> rfl]
    by_cases equals : c = '='
    · subst equals
      cases pending <;> cases other <;>
        simp_all [Pending.Same, Pending.step, Pending.assign, Attribute.texts,
          Attribute.renewedTexts]
    · simp [Pending.step, equals, same]
  | word text =>
    cases pending <;> cases other <;>
      simp_all [Pending.Same, Pending.step, Pending.valueless, Pending.renew, Attribute.texts,
        Attribute.renewedTexts]
    cases new ⟨position, position + byteLength text⟩ <;> simp
  | quoted quote text =>
    cases pending <;> cases other <;>
      simp_all [Pending.Same, Pending.step, Pending.valueless, Pending.renew, Attribute.texts,
        Attribute.renewedTexts]
    cases new ⟨position + 1, position + 1 + byteLength text⟩ <;> simp

/-- **The attributes of renewed parts** are those of the parts with new values. -/
theorem texts_renewParts {pending other : Pending} (same : pending.Same other)
    (position otherPosition : Nat) (parts : List Part) :
    (readParts other otherPosition (renewParts new pending position parts)).map Attribute.texts =
      (readParts pending position parts).map (Attribute.renewedTexts new) := by
  induction parts generalizing pending other position otherPosition with
  | nil =>
    cases pending <;> cases other <;>
      simp_all [Pending.Same, renewParts, Pending.valueless, Attribute.texts,
        Attribute.renewedTexts]
  | cons part parts ih =>
    obtain ⟨texts, behind⟩ := texts_renew new same position otherPosition part
    rw [renewParts, readParts, readParts, List.map_append, List.map_append, texts, ih behind]

/-- A text that is a value is what the edit makes of it. -/
theorem spliced_value (name : Located) (text : List Char) (start : Nat) :
    Spliced start text
      (renewals new [⟨name, some ⟨String.ofList text, ⟨start, start + byteLength text⟩⟩⟩])
      (((new ⟨start, start + byteLength text⟩).map String.toList).getD text) := by
  simp only [renewals, valuesOf, List.filterMap_cons, List.filterMap_nil]
  cases new ⟨start, start + byteLength text⟩ with
  | none => exact .refl _ _
  | some other => exact .single start text other

/-- What waits gives no value to renew. -/
theorem renewals_valueless (pending : Pending) : renewals new pending.valueless = [] := by
  cases pending <;> rfl

theorem renewals_assign (pending : Pending) : renewals new pending.assign.1 = [] := by
  cases pending <;> rfl

/-- A part with another text is what the edits make of it. -/
theorem spliced_renew {part : Part} (fits : part.Fits) (pending : Pending) (position : Nat) :
    Spliced position part.text (renewals new (pending.step position part).1)
      (pending.renew new position part).text := by
  cases part with
  | mark c =>
    have none : renewals new (pending.step position (.mark c)).1 = [] := by
      rw [Pending.step]
      split
      · exact renewals_assign new pending
      · rfl
    rw [none, show pending.renew new position (.mark c) = .mark c by cases pending <;> rfl]
    exact .refl _ _
  | word text =>
    cases pending with
    | assigned name => exact spliced_value new name text position
    | idle => exact .refl _ _
    | named name => exact .refl _ _
  | quoted quote text =>
    cases pending with
    | assigned name =>
      have inner := spliced_value new name text (position + 1)
      have size := utf8Size_of_isFence fits.1.isFence
      rw [← size] at inner
      have whole := Spliced.keep quote (inner.append (.refl _ [quote]))
      simpa [Pending.step, Pending.renew, Part.text, size] using whole
    | idle => exact .refl _ _
    | named name => exact .refl _ _

/-- **Renewed parts are what the edits make of the parts.** -/
theorem spliced_renewParts {parts : List Part} (fitting : Fitting parts) (pending : Pending)
    (position : Nat) :
    Spliced position (tail parts []) (renewals new (readParts pending position parts))
      (tail (renewParts new pending position parts) []) := by
  induction parts generalizing pending position with
  | nil =>
    rw [readParts_nil, renewals_valueless]
    exact .refl _ _
  | cons part parts ih =>
    rw [readParts, renewParts, renewals_append, tail_cons, tail_cons]
    exact (spliced_renew new fitting.uncons.1 pending position).append (ih fitting.uncons.2 _ _)

/-- In text that begins at byte `position`, the value stands between two quotes. -/
def InQuotes (position : Nat) (text : List Char) (value : Located) : Prop :=
  ∃ quote, IsQuote quote ∧ Covers position text ⟨value.span.start - 1, value.span.stop + 1⟩
    (quote :: (value.text.toList ++ [quote]))

/-- What may be put in the place of a value: a text without quotes, and unless the value stands
between quotes it has to be a word. -/
structure Welcome (position : Nat) (text : List Char) (value : Located) (other : String) :
    Prop where
  quotes : ∀ c ∈ other.toList, ¬ IsQuote c
  word : IsWordText other.toList ∨ InQuotes position text value

/-- Texts that begin a text and take as many bytes are the same. -/
theorem eq_of_byteLength_eq {front other rest otherRest : List Char}
    (same : front ++ rest = other ++ otherRest) (bytes : byteLength front = byteLength other) :
    front = other ∧ rest = otherRest := by
  have fronts : front = other := by
    rw [← takeBytes_byteLength front rest, same, bytes, takeBytes_byteLength]
  subst fronts
  exact ⟨rfl, List.append_cancel_left same⟩

/-- A word does not stand between quotes, because no quote comes behind it. -/
theorem not_inQuotes_word {position : Nat} {front text : List Char} {parts : List Part}
    (fitting : Fitting (.word text :: parts)) :
    ¬ InQuotes position (front ++ tail (.word text :: parts) [])
      ⟨String.ofList text, ⟨position + byteLength front,
        position + byteLength front + byteLength text⟩⟩ := by
  rintro ⟨quote, isQuote, before, behind, split, spans⟩
  have size := utf8Size_of_isFence isQuote.isFence
  have stop := congrArg Span.stop spans
  simp only [String.toList_ofList, byteLength_cons, byteLength_append, byteLength_nil, size]
    at stop
  rw [String.toList_ofList, tail_word] at split
  have same : front ++ (text ++ tail parts []) =
      (before ++ [quote]) ++ (text ++ quote :: behind) := by
    rw [split]
    simp
  obtain ⟨-, same⟩ := eq_of_byteLength_eq same (by simp [size]; omega)
  have fence := List.append_cancel_left same
  cases fitting with
  | word _ first fitting =>
    cases fitting with
    | nil =>
      obtain rfl := (List.cons.inj fence).1
      rcases isQuote with same | same <;> cases same
    | mark char _ =>
      obtain rfl := (List.cons.inj fence).1
      exact char.not_isQuote isQuote
    | word _ _ _ => exact first _ rfl
    | quoted _ _ _ => exact first _ rfl

/-- **Renewed parts are like the parts**, if the new texts may stand there. -/
theorem alike_renewParts {position : Nat} (front : List Char) {parts : List Part}
    (fitting : Fitting parts) (pending : Pending)
    (welcome : ∀ value ∈ valuesOf (readParts pending (position + byteLength front) parts),
      ∀ other ∈ new value.span, Welcome position (front ++ tail parts []) value other) :
    Alike parts (renewParts new pending (position + byteLength front) parts) := by
  induction parts generalizing pending front with
  | nil => exact .nil
  | cons part parts ih =>
    have behind : Alike parts (renewParts new (pending.step (position + byteLength front) part).2
        (position + byteLength front + byteLength part.text) parts) := by
      have more := ih (front ++ part.text) fitting.uncons.2
        (pending.step (position + byteLength front) part).2
      rw [byteLength_append, ← Nat.add_assoc, List.append_assoc, ← tail_cons] at more
      refine more fun value mem => welcome value ?_
      rw [readParts, valuesOf, List.filterMap_append]
      exact List.mem_append_right _ mem
    -- a value is read in this step only behind an equals sign
    have here {name value : Located} (read : pending.step (position + byteLength front) part =
        ([⟨name, some value⟩], .idle)) : ∀ other ∈ new value.span,
          Welcome position (front ++ tail (part :: parts) []) value other := by
      refine welcome value ?_
      rw [readParts, read]
      exact List.mem_cons_self
    rw [renewParts]
    cases fitting with
    | mark char _ =>
      have kept {c : Char} {at_ : Nat} : pending.renew new at_ (.mark c) = .mark c := by
        cases pending <;> rfl
      rw [kept]
      exact .mark char behind
    | @word text _ word first fitting =>
      cases pending with
      | idle => exact .word word word first behind
      | named name => exact .word word word first behind
      | assigned name =>
        refine .word word ?_ first behind
        have welcome := here rfl
        generalize new _ = other at welcome ⊢
        cases other with
        | none => exact word
        | some other =>
          refine (welcome other rfl).word.resolve_right ?_
          exact not_inQuotes_word (.word word first fitting)
    | @quoted quote text _ isQuote absent _ =>
      cases pending with
      | idle => exact .quoted isQuote absent absent behind
      | named name => exact .quoted isQuote absent absent behind
      | assigned name =>
        refine .quoted isQuote absent ?_ behind
        have welcome := here rfl
        generalize new _ = other at welcome ⊢
        cases other with
        | none => exact absent
        | some other => exact fun mem => (welcome other rfl).quotes quote mem isQuote

end Renewal

/-! ## Renewed tags -/

/-- The attributes of a tag with the given parts. -/
theorem attributes_ofTag {name : List Char} (named : tagName? name = some ⟨name, []⟩)
    {parts : List Part} (fitting : Fitting parts) (first : MarkFirst parts) (offset : Nat) :
    (Element.ofTag ('<' :: (name ++ tail parts [])) offset).attributes =
      readParts .idle (offset + byteLength ('<' :: name)) parts := by
  rw [← attributesOf_tail fitting .idle _ ⟨0, 0⟩]
  simp only [Element.ofTag, lexTag_tagName named (first.head?_tail fitting [])]
  rfl

/-- **Every opening tag can be given other values.** It stays an opening tag, whatever follows it,
and has the same attributes with the other values. -/
theorem exists_renewed_tag [Matching] {cs : List Char} {cut : Cut} (opens : openTag? cs = some cut)
    (offset : Nat) (new : Span → Option String)
    (welcome : ∀ value ∈ valuesOf (Element.ofTag cut.taken offset).attributes,
      ∀ other ∈ new value.span, Welcome offset cut.taken value other) :
    ∃ tag, Spliced offset cut.taken
        (renewals new (Element.ofTag cut.taken offset).attributes) tag ∧
      (∀ rest, openTag? (tag ++ rest) = some ⟨tag, rest⟩) ∧
      ∀ otherOffset, (Element.ofTag tag otherOffset).attributes.map Attribute.texts =
        (Element.ofTag cut.taken offset).attributes.map (Attribute.renewedTexts new) := by
  obtain ⟨name, parts, named, fitting, first, taken⟩ := exists_parts opens
  have whole : cut.taken ++ cut.rest = cs := of_openTag? opens
  rw [taken] at welcome whole ⊢
  rw [attributes_ofTag named fitting first] at welcome ⊢
  have alike := alike_renewParts new ('<' :: name) fitting .idle welcome
  refine ⟨'<' :: (name ++ tail (renewParts new .idle (offset + byteLength ('<' :: name)) parts) []),
    ?_, ?_, ?_⟩
  · have spliced := spliced_renewParts new fitting .idle (offset + byteLength ('<' :: name))
    exact (Spliced.refl offset ('<' :: name)).append spliced
  · intro rest
    rw [← whole, List.cons_append, List.append_assoc, ← tail_eq_append] at opens
    rw [List.cons_append, List.append_assoc, ← tail_eq_append]
    exact openTag?_alike named alike first opens rest
  · intro otherOffset
    rw [attributes_ofTag named alike.fitting.2 (alike.markFirst first)]
    have idle : Pending.idle.Same .idle := trivial
    exact texts_renewParts new idle _ _ parts

end TemplateCompiler.Markup
