import TemplateCompiler.Proofs.Markup.Renewal

/-!
# Names and values stand in their places

The attributes of an opening tag are names and values with spans. They can be told by their spans
alone: every name and every value is the text of the template at its span, inside the tag, and each
of them ends before the next one begins. A value with quotes is what stands between them. This is
what makes it safe to put other texts at the spans without looking at the template again.

## Main definitions

* `Markup.placesOf` — names and values in the order of reading
* `Markup.Delimited` — a value stands between quotes, or it is a word that nothing continues
* `Markup.InPlace` — what the attributes of a tag have to do with the text around the tag
* `Markup.placesFrom` — names and values, part by part

## Main statements

* `Markup.placesOf_readParts` — names and values are parts of the tag, in their order
* `Markup.ordered_placesFrom` — parts of which one ends before the next begins
* `Markup.delimited_of_mem_values` — what stands on either side of a value
* `Markup.attributes_stand_in_place` — the attributes of the opening tags of a template
-/
namespace TemplateCompiler.Markup

open Text

/-! ## Places -/

/-- The names and values of attributes, in the order in which they are read. -/
def placesOf (attributes : List Attribute) : List Located :=
  attributes.flatMap fun a => a.name :: a.value.toList

/-- A character that neither belongs to a word nor is a quote. -/
def IsSeparator (c : Char) : Prop := isFence c = true ∧ ¬ IsQuote c

/-- In text that begins at byte `position`, the value stands between two quotes that it does not
have inside, or it is a word between separators. -/
def Delimited (position : Nat) (text : List Char) (value : Located) : Prop :=
  ∃ left right, Covers position text ⟨value.span.start - 1, value.span.stop + 1⟩
      (left :: (value.text.toList ++ [right])) ∧
    (IsQuote left ∧ right = left ∧ left ∉ value.text.toList ∨
      IsWordText value.text.toList ∧ IsSeparator left ∧ IsSeparator right)

/-- What the attributes of a tag with the given span have to do with the text that the tag stands
in. -/
structure InPlace (text : List Char) (tag : Span) (attributes : List Attribute) : Prop where
  /-- Every name and every value is the text at its span, which lies on character boundaries. -/
  covers : ∀ place ∈ placesOf attributes, Covers 0 text place.span place.text.toList
  inside : ∀ place ∈ placesOf attributes,
    tag.start < place.span.start ∧ place.span.stop < tag.stop
  ordered : (placesOf attributes).Pairwise fun a b => a.span.stop < b.span.start
  delimited : ∀ value ∈ valuesOf attributes, Delimited 0 text value

/-- A value in a part of a text is one in the text. -/
theorem Covers.delimited {position : Nat} {text stretch : List Char} {span : Span} {value : Located}
    (h : Covers position text span stretch) (h' : Delimited span.start stretch value) :
    Delimited position text value := by
  obtain ⟨left, right, covers, ends⟩ := h'
  exact ⟨left, right, h.trans covers, ends⟩

/-! ## Places, part by part -/

namespace Pending

/-- The name that waits. -/
def names : Pending → List Located
  | idle => []
  | named name | assigned name => [name]

/-- The name or value that a part is, if it is one. -/
def place? : Pending → Nat → Part → Option Located
  | _, position, .word text => some ⟨String.ofList text, ⟨position, position + byteLength text⟩⟩
  | assigned _, position, .quoted _ text =>
    some ⟨String.ofList text, ⟨position + 1, position + 1 + byteLength text⟩⟩
  | idle, _, .quoted _ _ | named _, _, .quoted _ _ | _, _, .mark _ => none

end Pending

/-- The names and values among parts that begin at byte `position`. -/
def placesFrom : Pending → Nat → List Part → List Located
  | _, _, [] => []
  | pending, position, part :: parts =>
    (pending.place? position part).toList ++
      placesFrom (pending.step position part).2 (position + byteLength part.text) parts

/-- A part comes behind the name that waits. -/
theorem placesOf_step (pending : Pending) (position : Nat) (part : Part) :
    placesOf (pending.step position part).1 ++ (pending.step position part).2.names =
      pending.names ++ (pending.place? position part).toList := by
  cases part with
  | mark c =>
    by_cases equals : c = '='
    · subst equals
      cases pending <;> rfl
    · cases pending <;> simp [Pending.step, equals, placesOf, Pending.names, Pending.place?]
  | word text => cases pending <;> rfl
  | quoted quote text => cases pending <;> rfl

/-- **Names and values are parts of the tag**, in their order. -/
theorem placesOf_readParts (pending : Pending) (position : Nat) (parts : List Part) :
    placesOf (readParts pending position parts) =
      pending.names ++ placesFrom pending position parts := by
  induction parts generalizing pending position with
  | nil => cases pending <;> rfl
  | cons part parts ih =>
    rw [readParts, placesFrom, ← List.append_assoc, ← placesOf_step, List.append_assoc, ← ih,
      placesOf, placesOf, placesOf, List.flatMap_append]

/-- A name or value stands in the part that it is. -/
theorem covers_of_mem_place? {pending : Pending} {position : Nat} {part : Part} (fits : part.Fits)
    {place : Located} (mem : place ∈ pending.place? position part) :
    Covers position part.text place.span place.text.toList := by
  cases part with
  | mark c => cases pending <;> cases mem
  | word text =>
    obtain rfl : ⟨String.ofList text, ⟨position, position + byteLength text⟩⟩ = place := by
      cases pending <;> exact Option.some.inj mem
    exact ⟨[], [], by simp [Part.text], by simp⟩
  | quoted quote text =>
    cases pending with
    | idle => cases mem
    | named name => cases mem
    | assigned name =>
      cases mem
      exact ⟨[quote], [quote], by simp [Part.text],
        by simp [utf8Size_of_isFence fits.1.isFence]⟩

theorem covers_of_mem_placesFrom {parts : List Part} (fitting : Fitting parts) {pending : Pending}
    {position : Nat} {place : Located} (mem : place ∈ placesFrom pending position parts) :
    Covers position (parts.flatMap Part.text) place.span place.text.toList := by
  induction parts generalizing pending position with
  | nil => cases mem
  | cons part parts ih =>
    rw [List.flatMap_cons]
    rcases List.mem_append.mp mem with here | later
    · exact (covers_of_mem_place? fitting.uncons.1 (Option.mem_toList.mp here)).inFront _
    · exact (ih fitting.uncons.2 later).behind part.text

/-- Behind a mark nothing stands in front. -/
theorem lt_start_of_mem_placesFrom {parts : List Part} (fitting : Fitting parts)
    (first : MarkFirst parts) {pending : Pending} {position : Nat} {place : Located}
    (mem : place ∈ placesFrom pending position parts) : position < place.span.start := by
  cases fitting with
  | nil => cases mem
  | @mark c parts _ behind =>
    have later : place ∈ placesFrom (pending.step position (.mark c)).2
        (position + byteLength [c]) parts := by
      cases pending <;> exact mem
    have start := (covers_of_mem_placesFrom behind later).le.1
    have size := c.utf8Size_pos
    rw [byteLength_cons] at start
    omega
  | word _ _ _ => exact (first _ rfl).elim
  | quoted _ _ _ => exact (first _ rfl).elim

/-- **Each name or value ends before the next one begins.** -/
theorem ordered_placesFrom {parts : List Part} (fitting : Fitting parts) (pending : Pending)
    (position : Nat) :
    (placesFrom pending position parts).Pairwise fun a b => a.span.stop < b.span.start := by
  induction fitting generalizing pending position with
  | nil => exact .nil
  | @mark c parts _ _ ih => cases pending <;> exact ih _ _
  | @word text parts word first behind ih =>
    have others := ih (pending.step position (.word text)).2 (position + byteLength text)
    cases pending <;>
      exact .cons (fun other mem => lt_start_of_mem_placesFrom behind first mem) others
  | @quoted quote text parts isQuote absent behind ih =>
    have others := ih (pending.step position (.quoted quote text)).2
      (position + byteLength (quote :: (text ++ [quote])))
    cases pending with
    | idle => exact others
    | named name => exact others
    | assigned name =>
      refine .cons (fun other mem => ?_) others
      have start := (covers_of_mem_placesFrom behind mem).le.1
      simp only [Part.text, byteLength_cons, byteLength_append, byteLength_nil,
        utf8Size_of_isFence isQuote.isFence] at start
      show position + 1 + byteLength text < _
      omega

/-! ## What stands on either side -/

theorem IsMarkChar.isSeparator {c : Char} (h : IsMarkChar c) : IsSeparator c :=
  ⟨h.isFence, h.not_isQuote⟩

/-- A word is followed by a separator. -/
theorem exists_separator_tail {parts : List Part} (fitting : Fitting parts)
    (first : MarkFirst parts) : ∃ right behind, tail parts [] = right :: behind ∧
      IsSeparator right := by
  cases fitting with
  | nil => exact ⟨'>', [], rfl, rfl, by rintro (same | same) <;> cases same⟩
  | mark char _ => exact ⟨_, _, tail_mark .., char.isSeparator⟩
  | word _ _ _ => exact (first _ rfl).elim
  | quoted _ _ _ => exact (first _ rfl).elim

/-- Behind a word or quotes no name waits for its value. -/
theorem Pending.step_ne_assigned {part : Part} (noMark : ∀ c, part ≠ .mark c) (pending : Pending)
    (position : Nat) (name : Located) : (pending.step position part).2 ≠ .assigned name := by
  cases part with
  | mark c => exact absurd rfl (noMark c)
  | word text => cases pending <;> rintro ⟨⟩
  | quoted quote text => cases pending <;> rintro ⟨⟩

/-- What waits has no value. -/
theorem valuesOf_valueless (pending : Pending) : valuesOf pending.valueless = [] := by
  cases pending <;> rfl

theorem valuesOf_step_mark (pending : Pending) (position : Nat) (c : Char) :
    valuesOf (pending.step position (.mark c)).1 = [] := by
  by_cases equals : c = '='
  · subst equals
    cases pending <;> rfl
  · cases pending <;> simp [Pending.step, equals, valuesOf]

/-- A text and what stands on either side of it. -/
theorem covers_between {left right : Char} (leftFence : isFence left = true)
    (rightFence : isFence right = true) (position : Nat) (init text behind : List Char) :
    Covers position (init ++ left :: (text ++ right :: behind))
      ⟨position + byteLength init + 1 - 1, position + byteLength init + 1 + byteLength text + 1⟩
      (left :: (text ++ [right])) := by
  refine ⟨init, behind, by simp, ?_⟩
  simp [utf8Size_of_isFence leftFence, utf8Size_of_isFence rightFence]
  omega

/-- **What stands on either side of a value.** If a name waits for its value, a separator stands in
front of the parts: the equals sign or what follows it. -/
theorem delimited_of_mem_values {parts : List Part} (fitting : Fitting parts) {pending : Pending}
    {position : Nat} {front : List Char}
    (separated : ∀ name, pending = .assigned name → ∃ init left, front = init ++ [left] ∧
      IsSeparator left) {value : Located}
    (mem : value ∈ valuesOf (readParts pending (position + byteLength front) parts)) :
    Delimited position (front ++ tail parts []) value := by
  induction fitting generalizing pending front with
  | nil =>
    rw [readParts_nil, valuesOf_valueless] at mem
    cases mem
  | @mark c parts char behind ih =>
    rw [readParts, valuesOf, List.filterMap_append, ← valuesOf, valuesOf_step_mark,
      List.nil_append, Nat.add_assoc, ← byteLength_append] at mem
    have later : Delimited position ((front ++ [c]) ++ tail parts []) value :=
      ih (fun _ _ => ⟨front, c, rfl, char.isSeparator⟩) mem
    rwa [List.append_assoc] at later
  | @word text parts word first behind ih =>
    rw [readParts, valuesOf, List.filterMap_append, ← valuesOf, ← valuesOf] at mem
    rcases List.mem_append.mp mem with here | later
    · cases pending with
      | idle => cases here
      | named name => cases here
      | assigned name =>
        obtain rfl := List.mem_singleton.mp here
        obtain ⟨init, left, rfl, leftSeparates⟩ := separated name rfl
        obtain ⟨right, more, ends, rightSeparates⟩ := exists_separator_tail behind first
        have covers := covers_between leftSeparates.1 rightSeparates.1 position init text more
        refine ⟨left, right, ?_, .inr ⟨by simpa using word, leftSeparates, rightSeparates⟩⟩
        rw [tail_word, ends]
        simpa [utf8Size_of_isFence leftSeparates.1, Nat.add_assoc] using covers
    · rw [Nat.add_assoc, Part.text, ← byteLength_append] at later
      rw [tail_word, ← List.append_assoc]
      exact ih (fun name assigned =>
        absurd assigned (pending.step_ne_assigned (by rintro _ ⟨⟩) _ name)) later
  | @quoted quote text parts isQuote absent behind ih =>
    rw [readParts, valuesOf, List.filterMap_append, ← valuesOf, ← valuesOf] at mem
    rcases List.mem_append.mp mem with here | later
    · cases pending with
      | idle => cases here
      | named name => cases here
      | assigned name =>
        obtain rfl := List.mem_singleton.mp here
        have covers := covers_between isQuote.isFence isQuote.isFence position front text
          (tail parts [])
        refine ⟨quote, quote, ?_, .inl ⟨isQuote, rfl, by simpa using absent⟩⟩
        rw [tail_quoted]
        simpa using covers
    · rw [Nat.add_assoc, ← byteLength_append] at later
      rw [tail_cons, ← List.append_assoc]
      exact ih (fun name assigned =>
        absurd assigned (pending.step_ne_assigned (by rintro _ ⟨⟩) _ name)) later

/-! ## Tags -/

/-- **Names and values stand in their places** in the template. They are the text at their spans,
inside the tag and between characters, and each one ends before the next begins. A value stands
between quotes, or it is a word between separators. -/
theorem attributes_stand_in_place [Matching] {template : String} {located : Token × Span}
    (mem : located ∈ lex template) (kind : located.1.kind = .openTag) :
    InPlace template.toList located.2
      (Element.ofTag located.1.text located.2.start).attributes := by
  have tag := covers_of_mem_lex mem
  obtain ⟨front, cut, opens, taken⟩ :=
    exists_openTag_of_mem_tokens (mem_tokens_of_mem_lex mem) kind
  obtain ⟨name, parts, named, fitting, first, spelled⟩ := exists_parts opens
  have text : located.1.text = ('<' :: name) ++ (parts.flatMap Part.text ++ ['>']) :=
    taken.symm.trans spelled
  have length := tag.le.2.1
  rw [text] at tag length ⊢
  have attributes : (Element.ofTag (('<' :: name) ++ (parts.flatMap Part.text ++ ['>']))
      located.2.start).attributes =
        readParts .idle (located.2.start + byteLength ('<' :: name)) parts :=
    attributes_ofTag named fitting first located.2.start
  rw [attributes]
  have places := placesOf_readParts .idle (located.2.start + byteLength ('<' :: name)) parts
  rw [Pending.names, List.nil_append] at places
  have stands : ∀ place ∈ placesFrom .idle (located.2.start + byteLength ('<' :: name)) parts,
      Covers (located.2.start + byteLength ('<' :: name)) (parts.flatMap Part.text) place.span
        place.text.toList :=
    fun place mem => covers_of_mem_placesFrom fitting mem
  exact
    { covers := by
        rw [places]
        intro place mem
        exact tag.trans (((stands place mem).inFront ['>']).behind ('<' :: name))
      inside := by
        rw [places]
        intro place mem
        have bounds := (stands place mem).le
        have bracket : Char.utf8Size '<' = 1 := rfl
        have close : Char.utf8Size '>' = 1 := rfl
        simp only [byteLength_append, byteLength_cons, byteLength_nil, bracket, close]
          at bounds length
        omega
      ordered := by
        rw [places]
        exact ordered_placesFrom fitting .idle _
      delimited := fun value mem =>
        tag.delimited (delimited_of_mem_values fitting (by rintro _ ⟨⟩) mem) }

/-- Values with and without quotes, one of them empty, and letters of two bytes in front, in a name
and in a value. The slash ends the value that has no quotes. -/
theorem multibyte_attributes_stand_in_place :
    (⟨.openTag, "<p :é=\"ö x\" b='' v-if = y/z/>".toList⟩, ⟨2, 33⟩) ∈
        lex "ß<p :é=\"ö x\" b='' v-if = y/z/>" ∧
      InPlace "ß<p :é=\"ö x\" b='' v-if = y/z/>".toList ⟨2, 33⟩
        [⟨⟨":é", ⟨5, 8⟩⟩, some ⟨"ö x", ⟨10, 14⟩⟩⟩, ⟨⟨"b", ⟨16, 17⟩⟩, some ⟨"", ⟨19, 19⟩⟩⟩,
          ⟨⟨"v-if", ⟨21, 25⟩⟩, some ⟨"y", ⟨28, 29⟩⟩⟩, ⟨⟨"z", ⟨30, 31⟩⟩, none⟩] := by
  have second : (lex "ß<p :é=\"ö x\" b='' v-if = y/z/>")[1]? =
      some (⟨.openTag, "<p :é=\"ö x\" b='' v-if = y/z/>".toList⟩, ⟨2, 33⟩) := by
    cbv
  have mem := List.mem_of_getElem? second
  have attributes : (Element.ofTag "<p :é=\"ö x\" b='' v-if = y/z/>".toList 2).attributes =
      [⟨⟨":é", ⟨5, 8⟩⟩, some ⟨"ö x", ⟨10, 14⟩⟩⟩, ⟨⟨"b", ⟨16, 17⟩⟩, some ⟨"", ⟨19, 19⟩⟩⟩,
        ⟨⟨"v-if", ⟨21, 25⟩⟩, some ⟨"y", ⟨28, 29⟩⟩⟩, ⟨⟨"z", ⟨30, 31⟩⟩, none⟩] := by
    cbv
  have inPlace := attributes_stand_in_place mem rfl
  rw [attributes] at inPlace
  exact ⟨mem, inPlace⟩

end TemplateCompiler.Markup
