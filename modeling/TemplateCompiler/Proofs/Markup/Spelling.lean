import Mathlib
import TemplateCompiler.Proofs.Markup.TagLexing

/-!
# How opening tags are spelled

Two readers look at an opening tag. The one that finds the token in the markup knows names, blanks
and values; the other one takes the token apart again, with classes of characters of its own. An
unquoted value may hold slashes for the first and not for the second.

A `SpelledTag` is a tag as its pattern is written, its parts with the proofs that they may stand
where they do. Whichever of these tags the first reader recognises, the two readers agree about the
attributes exactly if no unquoted value of the tag holds a slash.

## Main definitions

* `Markup.SpelledValue`, `Markup.SpelledAttribute`, `Markup.SpelledTag`

## Main statements

* `Markup.exists_spelledTag` — every opening tag is spelled
* `Markup.SpelledTag.texts_ofTag_iff` — what attributes are read from a spelled one
* `Markup.readers_agree_iff` — when the two readers agree
-/
namespace TemplateCompiler.Markup

open Text

/-! ## Spelled tags -/

/-- The value of an attribute. -/
inductive SpelledValue where
  | quoted (quote : Char) (text : List Char) (isQuote : quote = '"' ∨ quote = '\'')
    (absent : quote ∉ text)
  | unquoted (run : List Char) (nonempty : run ≠ []) (all : run.all isUnquotedChar = true)

namespace SpelledValue

/-- The value with its quotes. -/
def text : SpelledValue → List Char
  | quoted quote text _ _ => quote :: (text ++ [quote])
  | unquoted run _ _ => run

/-- The value without quotes around it. -/
def content : SpelledValue → List Char
  | quoted _ text _ _ => text
  | unquoted run _ _ => run

/-- The value is not quoted and has a slash in it. -/
def HasSlash : SpelledValue → Prop
  | quoted _ _ _ _ => False
  | unquoted run _ _ => '/' ∈ run

end SpelledValue

/-- An equals sign with blanks around it, and a value. -/
structure Assignment where
  left : List Char
  right : List Char
  value : SpelledValue
  left_blank : left.all isMarkupBlank = true
  right_blank : right.all isMarkupBlank = true

/-- The characters of an assignment. -/
def Assignment.text (a : Assignment) : List Char := a.left ++ '=' :: (a.right ++ a.value.text)

/-- Blanks and an attribute. -/
structure SpelledAttribute where
  blanks : List Char
  name : List Char
  assignment : Option Assignment
  blanks_ne_nil : blanks ≠ []
  blanks_blank : blanks.all isMarkupBlank = true
  name_ne_nil : name ≠ []
  name_all : name.all isAttributeNameChar = true

namespace SpelledAttribute

/-- The value that is assigned. -/
def value? (a : SpelledAttribute) : Option SpelledValue := a.assignment.map Assignment.value

/-- The characters of an attribute with the blanks in front of it. -/
def text (a : SpelledAttribute) : List Char :=
  a.blanks ++ (a.name ++ (a.assignment.map Assignment.text).getD [])

/-- The name and the value, if there is one. -/
def texts (a : SpelledAttribute) : String × Option String :=
  (String.ofList a.name, a.value?.map fun value => String.ofList value.content)

/-- The value is not quoted and has a slash in it. -/
def HasSlash (a : SpelledAttribute) : Prop := ∃ value ∈ a.value?, value.HasSlash

/-- An unquoted value does not end in a slash, unless nothing would be left of it without. -/
def Settled (a : SpelledAttribute) : Prop :=
  ∀ run nonempty all, a.value? = some (.unquoted run nonempty all) →
    run.getLast? = some '/' → run = ['/']

end SpelledAttribute

/-- What closes an opening tag. -/
def closing (selfClosing : Bool) : List Char := if selfClosing then ['/', '>'] else ['>']

/-- An opening tag. -/
structure SpelledTag where
  name : List Char
  attributes : List SpelledAttribute
  /-- The blanks in front of what closes the tag. -/
  gap : List Char
  selfClosing : Bool
  named : tagName? name = some ⟨name, []⟩
  gap_blank : gap.all isMarkupBlank = true
  /-- A slash in front of the closing bracket belongs to the bracket. -/
  settled : selfClosing = false → gap = [] → ∀ a ∈ attributes.getLast?, a.Settled

/-- The characters of an opening tag. -/
def SpelledTag.text (tag : SpelledTag) : List Char :=
  '<' :: (tag.name ++ (tag.attributes.flatMap SpelledAttribute.text ++
    (tag.gap ++ closing tag.selfClosing)))

/-! ## Every opening tag is spelled -/

theorem exists_spelledValue {cs : List Char} {cut : Cut} (h : attributeValue? cs = some cut) :
    ∃ value : SpelledValue, cut.taken = value.text := by
  rw [attributeValue?] at h
  split at h
  · rename_i quoted hquoted
    obtain rfl := Option.some.inj h
    cases cs with
    | nil => cases hquoted
    | cons q rest =>
      rw [quoted?] at hquoted
      split at hquoted
      · rename_i quote
        obtain ⟨tail, -, rfl⟩ := Option.map_eq_some_iff.mp hquoted
        refine ⟨.quoted q _ quote ?_, rfl⟩
        intro mem
        exact absurd rfl (bne_iff_ne.mp (List.all_eq_true.mp (all_cutRun (· != q) rest) q mem))
      · cases hquoted
  · dsimp only at h
    split at h
    · cases h
    · rename_i nonempty
      obtain rfl := Option.some.inj h
      exact ⟨.unquoted _ nonempty (all_cutRun _ _), rfl⟩

theorem exists_assignment {cs : List Char} {part : TagPart} {cut : Cut}
    (h : assignment? cs = some (part, cut)) :
    ∃ assignment : Option Assignment, cut.taken = (assignment.map Assignment.text).getD [] := by
  simp only [assignment?] at h
  split at h
  · rename_i rest _
    obtain ⟨inner, hvalue, same⟩ := Option.map_eq_some_iff.mp h
    obtain ⟨rfl, rfl⟩ := Prod.mk.inj same
    obtain ⟨value, same⟩ := exists_spelledValue hvalue
    refine ⟨some ⟨_, _, value, all_cutRun isMarkupBlank cs, all_cutRun isMarkupBlank rest⟩, ?_⟩
    rw [Cut.taken_append, same]
    simp [Assignment.text]
  · obtain ⟨rfl, rfl⟩ := Prod.mk.inj (Option.some.inj h)
    exact ⟨none, rfl⟩

section Recognised

variable [Matching]

theorem exists_spelledAttribute {cs : List Char} {before part : TagPart} {cut : Cut}
    (h : attribute? before cs = some (part, cut)) :
    ∃ a : SpelledAttribute, cut.taken = a.text := by
  simp only [attribute?] at h
  split at h
  · cases h
  · rename_i nonempty
    simp only [not_or] at nonempty
    obtain ⟨⟨_, inner⟩, hvalue, same⟩ := Option.map_eq_some_iff.mp h
    obtain ⟨rfl, rfl⟩ := Prod.mk.inj same
    obtain ⟨assignment, same⟩ := exists_assignment hvalue
    refine ⟨⟨_, _, assignment, nonempty.1, all_cutRun _ _, nonempty.2.1, all_cutRun _ _⟩, ?_⟩
    rw [Cut.taken_append, same]
    simp [SpelledAttribute.text]

theorem exists_closing {cs : List Char} {before : TagPart} {cut : Cut}
    (h : openTagEnd? before cs = some cut) :
    ∃ gap selfClosing, gap.all isMarkupBlank = true ∧ cut.taken = gap ++ closing selfClosing := by
  simp only [openTagEnd?] at h
  split at h
  · obtain ⟨closer, hcloser, rfl⟩ := Option.map_eq_some_iff.mp h
    refine ⟨(cutRun isMarkupBlank cs).taken, ?_⟩
    unfold tagCloser? at hcloser
    split at hcloser
    · obtain rfl := Option.some.inj hcloser
      exact ⟨true, all_cutRun _ _, rfl⟩
    · obtain rfl := Option.some.inj hcloser
      exact ⟨false, all_cutRun _ _, rfl⟩
    · cases hcloser
  · cases h

theorem exists_spelledAttributes {cs : List Char} {before : TagPart} {cut : Cut}
    (h : openTagTail before cs = some cut) :
    ∃ (attributes : List SpelledAttribute) (gap : List Char) (selfClosing : Bool),
      gap.all isMarkupBlank = true ∧
        cut.taken = attributes.flatMap SpelledAttribute.text ++ (gap ++ closing selfClosing) := by
  fun_induction openTagTail before cs generalizing cut with
  | case1 before cs part first hfirst ih =>
    obtain ⟨inner, hinner, rfl⟩ := Option.map_eq_some_iff.mp h
    obtain ⟨a, same⟩ := exists_spelledAttribute hfirst
    obtain ⟨attributes, gap, selfClosing, blank, rest⟩ := ih hinner
    refine ⟨a :: attributes, gap, selfClosing, blank, ?_⟩
    rw [Cut.taken_append, same, rest, List.flatMap_cons, List.append_assoc]
  | case2 before cs _ =>
    obtain ⟨gap, selfClosing, blank, same⟩ := exists_closing h
    exact ⟨[], gap, selfClosing, blank, same⟩

end Recognised

/-- A slash at the end of an unquoted value can be split off. -/
theorem exists_without_slash {a : SpelledAttribute} (h : ¬ a.Settled) :
    ∃ other : SpelledAttribute, a.text = other.text ++ ['/'] := by
  simp only [SpelledAttribute.Settled, not_forall] at h
  obtain ⟨run, nonempty, all, value, slash, more⟩ := h
  obtain ⟨blanks, name, assignment, blanks_ne_nil, blanks_blank, name_ne_nil, name_all⟩ := a
  obtain ⟨⟨left, right, value, left_blank, right_blank⟩, rfl, rfl⟩ :=
    Option.map_eq_some_iff.mp value
  obtain ⟨front, rfl⟩ := List.getLast?_eq_some_iff.mp slash
  have kept : front ≠ [] := by
    rintro rfl
    exact more rfl
  rw [List.all_append, Bool.and_eq_true] at all
  refine ⟨⟨blanks, name, some ⟨left, right, .unquoted front kept all.1, left_blank, right_blank⟩,
    blanks_ne_nil, blanks_blank, name_ne_nil, name_all⟩, ?_⟩
  simp [SpelledAttribute.text, Assignment.text, SpelledValue.text]

/-- A slash in front of the closing bracket can be taken from the last value. -/
theorem exists_settled (attributes : List SpelledAttribute) (gap : List Char) (selfClosing : Bool) :
    ∃ (others : List SpelledAttribute) (otherClosing : Bool),
      attributes.flatMap SpelledAttribute.text ++ (gap ++ closing selfClosing) =
          others.flatMap SpelledAttribute.text ++ (gap ++ closing otherClosing) ∧
        (otherClosing = false → gap = [] → ∀ a ∈ others.getLast?, a.Settled) := by
  by_cases settled : selfClosing = false → gap = [] → ∀ a ∈ attributes.getLast?, a.Settled
  · exact ⟨attributes, selfClosing, rfl, settled⟩
  · simp only [not_forall] at settled
    obtain ⟨rfl, rfl, a, last, unsettled⟩ := settled
    obtain ⟨init, rfl⟩ := List.getLast?_eq_some_iff.mp last
    obtain ⟨other, same⟩ := exists_without_slash unsettled
    refine ⟨init ++ [other], true, ?_, nofun⟩
    simp [same, closing]

/-- The name of a tag is read as a whole. -/
theorem tagName?_taken {cs : List Char} {name : Cut} (h : tagName? cs = some name) :
    tagName? name.taken = some ⟨name.taken, []⟩ := by
  cases cs with
  | nil => cases h
  | cons c rest =>
    rw [tagName?] at h
    split at h
    · rename_i alpha
      obtain rfl := Option.some.inj h
      have whole : cutRun isTagNameChar ((cutRun isTagNameChar rest).taken ++ []) =
          ⟨(cutRun isTagNameChar rest).taken, []⟩ :=
        cutRun_run (all_cutRun isTagNameChar rest) rfl
      rw [List.append_nil] at whole
      rw [Cut.taken_cons, tagName?, if_pos alpha, whole]
      rfl
    · cases h

/-- **Every opening tag is spelled.** -/
theorem exists_spelledTag [Matching] {cs : List Char} {cut : Cut}
    (h : openTag? cs = some cut) : ∃ tag : SpelledTag, cut.taken = tag.text := by
  simp only [openTag?, Option.bind_eq_bind, Option.bind_eq_some_iff] at h
  obtain ⟨rest, -, name, hname, h⟩ := h
  obtain ⟨tail, htail, rfl⟩ := Option.map_eq_some_iff.mp h
  obtain ⟨attributes, gap, selfClosing, blank, same⟩ := exists_spelledAttributes htail
  obtain ⟨others, otherClosing, text, settled⟩ := exists_settled attributes gap selfClosing
  refine ⟨⟨name.taken, others, gap, otherClosing, tagName?_taken hname, blank, settled⟩, ?_⟩
  rw [Cut.taken_append, same, text]
  rfl

/-! ## What is read -/

/-- The name and the value of an attribute that has been read. -/
def Attribute.texts (a : Attribute) : String × Option String :=
  (a.name.text, a.value.map Located.text)

/-- A token that is neither an equals sign nor a quoted text nor a word with a slash in it. -/
def TagToken.Plain : TagToken → Prop
  | .equals | .quoted _ => False
  | .word text => '/' ∉ text.toList
  | .tagName _ | .selfClose | .close => True

/-- Text behind an attribute: it begins with a fence, and the first token in it is plain. -/
structure Follows (cs : List Char) : Prop where
  fence : cs.head?.all isFence = true
  slash : cs.head? = some '/' → cs = ['/', '>']
  plain : ∀ offset, ∃ token span rest, lexTag cs offset = (token, span) :: rest ∧ token.Plain

theorem slash_not_mem_name {name : List Char} (all : name.all isAttributeNameChar = true) :
    '/' ∉ name := by
  intro mem
  exact absurd (List.all_eq_true.mp all '/' mem) (by decide)

/-- A blank is a fence. -/
theorem isFence_of_isMarkupBlank {c : Char} (h : isMarkupBlank c = true) : isFence c = true := by
  simp [isFence, isAttributeNameChar, h]

/-- Behind the last attribute comes what closes the tag. -/
theorem follows_closing {gap : List Char} (blank : gap.all isMarkupBlank = true)
    (selfClosing : Bool) : Follows (gap ++ closing selfClosing) := by
  refine ⟨?_, ?_, fun offset => ?_⟩
  · cases gap with
    | nil => cases selfClosing <;> rfl
    | cons c gap =>
      rw [List.all_cons, Bool.and_eq_true] at blank
      exact isFence_of_isMarkupBlank blank.1
  · cases gap with
    | nil => cases selfClosing <;> simp [closing]
    | cons c gap =>
      rw [List.all_cons, Bool.and_eq_true] at blank
      rintro ⟨⟩
      cases blank.1
  · rw [lexTag_blanks blank]
    cases selfClosing with
    | false => exact ⟨_, _, _, lexTag_close [] _, trivial⟩
    | true => exact ⟨_, _, _, lexTag_selfClose [] _, trivial⟩

/-- Text that begins with an attribute's name is read as that word. -/
theorem lexTag_attribute (a : SpelledAttribute) {cs : List Char}
    (border : cs.head?.all isFence = true) (offset : Nat) :
    ∃ span stop, lexTag (a.blanks ++ (a.name ++ cs)) offset =
      (.word (String.ofList a.name), span) :: lexTag cs stop := by
  rw [lexTag_blanks a.blanks_blank, lexTag_word a.name_ne_nil a.name_all border]
  exact ⟨_, _, rfl⟩

/-- What an attribute's name is followed by begins with a fence. -/
theorem head?_assignment (assignment : Option Assignment) {cs : List Char}
    (fence : cs.head?.all isFence = true) :
    ((assignment.map Assignment.text).getD [] ++ cs).head?.all isFence = true := by
  cases assignment with
  | none => exact fence
  | some assignment =>
    obtain ⟨left, right, value, left_blank, right_blank⟩ := assignment
    cases left with
    | nil => rfl
    | cons c left =>
      rw [List.all_cons, Bool.and_eq_true] at left_blank
      exact isFence_of_isMarkupBlank left_blank.1

/-- Another attribute may follow. -/
theorem follows_attribute (a : SpelledAttribute) {cs : List Char} (follows : Follows cs) :
    Follows (a.text ++ cs) := by
  have border := head?_assignment a.assignment follows.fence
  have whole : a.text ++ cs =
      a.blanks ++ (a.name ++ ((a.assignment.map Assignment.text).getD [] ++ cs)) := by
    simp [SpelledAttribute.text]
  obtain ⟨c, blanks, same⟩ := List.exists_cons_of_ne_nil a.blanks_ne_nil
  have blank : isMarkupBlank c = true :=
    List.all_eq_true.mp a.blanks_blank c (same ▸ List.mem_cons_self)
  refine ⟨?_, ?_, ?_⟩
  · rw [whole, same]
    exact isFence_of_isMarkupBlank blank
  · rw [whole, same]
    rintro ⟨⟩
    cases blank
  · intro offset
    obtain ⟨span, stop, read⟩ := lexTag_attribute a border offset
    rw [whole, read]
    refine ⟨_, _, _, rfl, ?_⟩
    rw [TagToken.Plain, String.toList_ofList]
    exact slash_not_mem_name a.name_all

theorem follows_attributes (attributes : List SpelledAttribute) {gap : List Char}
    (blank : gap.all isMarkupBlank = true) (selfClosing : Bool) :
    Follows (attributes.flatMap SpelledAttribute.text ++ (gap ++ closing selfClosing)) := by
  induction attributes with
  | nil => exact follows_closing blank selfClosing
  | cons a rest ih =>
    rw [List.flatMap_cons, List.append_assoc]
    exact follows_attribute a ih

/-- The first token of an unquoted value is plain, or if the value has no token the first one
behind it. -/
theorem plain_unquoted {run cs : List Char} (all : run.all isUnquotedChar = true)
    (follows : Follows cs) (offset : Nat) :
    ∃ token span rest, lexTag (run ++ cs) offset = (token, span) :: rest ∧ token.Plain := by
  induction run generalizing offset with
  | nil => exact follows.plain offset
  | cons c run ih =>
    rw [List.all_cons, Bool.and_eq_true] at all
    by_cases slash : c = '/'
    · subst slash
      by_cases closes : (run ++ cs).head? = some '>'
      · obtain ⟨rest, same⟩ := List.head?_eq_some_iff.mp closes
        rw [List.cons_append, same, lexTag_selfClose]
        exact ⟨_, _, _, rfl, trivial⟩
      · rw [List.cons_append, lexTag_skip (.inr ⟨rfl, closes⟩)]
        exact ih all.2 _
    · have name : isAttributeNameChar c = true := by
        have unquoted := all.1
        simp only [isUnquotedChar, Bool.not_eq_true', Bool.or_eq_false_iff] at unquoted
        simp [isAttributeNameChar, unquoted, slash]
      have split : c :: run ++ cs = (c :: run.takeWhile isAttributeNameChar) ++
          (run.dropWhile isAttributeNameChar ++ cs) := by
        rw [List.cons_append, List.cons_append, ← List.append_assoc,
          List.takeWhile_append_dropWhile]
      have names : (c :: run.takeWhile isAttributeNameChar).all isAttributeNameChar = true := by
        rw [List.all_cons, name, List.all_takeWhile]
        rfl
      have border : (run.dropWhile isAttributeNameChar ++ cs).head?.all isFence = true := by
        have behind := head_dropWhile_fence run
        cases stop : run.dropWhile isAttributeNameChar with
        | nil => exact follows.fence
        | cons d rest => simpa [stop] using behind
      rw [split, lexTag_word (List.cons_ne_nil _ _) names border]
      refine ⟨_, _, _, rfl, ?_⟩
      rw [TagToken.Plain, String.toList_ofList]
      exact slash_not_mem_name names

/-- An unquoted value without slashes is made of the characters of names. -/
theorem all_name_of_unquoted {run : List Char} (all : run.all isUnquotedChar = true)
    (slash : '/' ∉ run) : run.all isAttributeNameChar = true := by
  rw [List.all_eq_true] at all ⊢
  intro c mem
  have unquoted := all c mem
  have other : c ≠ '/' := fun same => slash (same ▸ mem)
  simp only [isUnquotedChar, Bool.not_eq_true', Bool.or_eq_false_iff] at unquoted
  simp [isAttributeNameChar, unquoted, other]

/-! ## Attributes -/

/-- A name that no equals sign follows has no value. -/
theorem texts_valueless {name : String} {at_ span : Span} {token : TagToken} (plain : token.Plain)
    (rest : List (TagToken × Span)) :
    (attributesOf ((.word name, at_) :: (token, span) :: rest)).map Attribute.texts =
      (name, none) :: (attributesOf ((token, span) :: rest)).map Attribute.texts := by
  cases token with
  | equals => cases plain
  | quoted text => cases plain
  | word text => rfl
  | tagName name => rfl
  | selfClose => rfl
  | close => rfl

/-- The value behind an equals sign never has a slash in it unless it is quoted. -/
theorem texts_plain (name : String) (at_ span span' : Span) {token : TagToken}
    (plain : token.Plain) (rest : List (TagToken × Span)) :
    ∃ value more,
      (attributesOf ((.word name, at_) :: (.equals, span) :: (token, span') :: rest)).map
        Attribute.texts = (name, value) :: more ∧ ∀ text ∈ value, '/' ∉ text.toList := by
  cases token with
  | equals => cases plain
  | quoted text => cases plain
  | word text =>
    refine ⟨some text, _, rfl, ?_⟩
    rintro _ ⟨⟩
    exact plain
  | tagName name => exact ⟨none, _, rfl, nofun⟩
  | selfClose => exact ⟨none, _, rfl, nofun⟩
  | close => exact ⟨none, _, rfl, nofun⟩

/-- An assigned value is read behind the name and the equals sign. -/
theorem lexTag_assignment (a : Assignment) (cs : List Char) (offset : Nat) :
    ∃ span stop, lexTag (a.text ++ cs) offset =
      (.equals, span) :: lexTag (a.value.text ++ cs) stop := by
  have whole : a.text ++ cs = a.left ++ ('=' :: (a.right ++ (a.value.text ++ cs))) := by
    simp [Assignment.text]
  rw [whole, lexTag_blanks a.left_blank, lexTag_equals, lexTag_blanks a.right_blank]
  exact ⟨_, _, rfl⟩

/-- **One attribute at the front of a tag.** It is read as it is spelled, and then the others
behind it, unless its value has a slash and no quotes. -/
theorem texts_attribute (a : SpelledAttribute) {cs : List Char} (follows : Follows cs)
    (offset : Nat) :
    (¬ a.HasSlash ∧ ∃ stop, (attributesOf (lexTag (a.text ++ cs) offset)).map Attribute.texts =
        a.texts :: (attributesOf (lexTag cs stop)).map Attribute.texts) ∨
      (a.HasSlash ∧ ∀ more,
        (attributesOf (lexTag (a.text ++ cs) offset)).map Attribute.texts ≠ a.texts :: more) := by
  have whole : a.text ++ cs =
      a.blanks ++ (a.name ++ ((a.assignment.map Assignment.text).getD [] ++ cs)) := by
    simp [SpelledAttribute.text]
  obtain ⟨span, stop, read⟩ := lexTag_attribute a (head?_assignment a.assignment follows.fence) offset
  rw [whole, read, SpelledAttribute.HasSlash, SpelledAttribute.texts, SpelledAttribute.value?]
  cases a.assignment with
  | none =>
    obtain ⟨token, span', rest, front, plain⟩ := follows.plain stop
    refine .inl ⟨by simp, stop, ?_⟩
    simp only [Option.map_none, Option.getD_none, List.nil_append]
    rw [front, texts_valueless plain]
  | some assignment =>
    obtain ⟨span', stop', assigned⟩ := lexTag_assignment assignment cs stop
    simp only [Option.map_some, Option.getD_some, Option.mem_some_iff, exists_eq_left']
    rw [assigned]
    cases assignment.value with
    | quoted quote text isQuote absent =>
      have split : (SpelledValue.quoted quote text isQuote absent).text ++ cs =
          quote :: (text ++ quote :: cs) := by
        simp [SpelledValue.text]
      refine .inl ⟨id, stop' + byteLength (quote :: (text ++ [quote])), ?_⟩
      rw [split, lexTag_quoted isQuote absent]
      rfl
    | unquoted run nonempty all =>
      by_cases slash : '/' ∈ run
      · obtain ⟨token, span'', rest, front, plain⟩ := plain_unquoted all follows stop'
        obtain ⟨value, others, read, noSlash⟩ :=
          texts_plain (String.ofList a.name) span span' span'' plain rest
        refine .inr ⟨slash, fun more same => ?_⟩
        rw [SpelledValue.text, front, read] at same
        obtain ⟨heads, -⟩ := List.cons.inj same
        obtain ⟨-, rfl⟩ := Prod.mk.inj heads
        refine noSlash _ rfl ?_
        rw [String.toList_ofList]
        exact slash
      · refine .inl ⟨slash, stop' + byteLength run, ?_⟩
        rw [SpelledValue.text, lexTag_word nonempty (all_name_of_unquoted all slash) follows.fence]
        rfl

/-- Attributes are read as they are spelled if no unquoted value has a slash, and not otherwise. -/
theorem texts_attributes_iff (attributes : List SpelledAttribute) {gap : List Char}
    (blank : gap.all isMarkupBlank = true) (selfClosing : Bool) (offset : Nat) :
    (attributesOf (lexTag (attributes.flatMap SpelledAttribute.text ++
        (gap ++ closing selfClosing)) offset)).map Attribute.texts =
        attributes.map SpelledAttribute.texts ↔
      ∀ a ∈ attributes, ¬ a.HasSlash := by
  induction attributes generalizing offset with
  | nil =>
    refine iff_of_true ?_ nofun
    rw [List.flatMap_nil, List.nil_append, lexTag_blanks blank]
    cases selfClosing with
    | false => simp [closing, lexTag_close, attributesOf]
    | true => simp [closing, lexTag_selfClose, attributesOf]
  | cons a rest ih =>
    rw [List.flatMap_cons, List.append_assoc, List.map_cons, List.forall_mem_cons]
    rcases texts_attribute a (follows_attributes rest blank selfClosing) offset with
      ⟨noSlash, stop, read⟩ | ⟨slash, never⟩
    · rw [read, List.cons.injEq, ih]
      exact and_congr_left fun _ => iff_of_true rfl noSlash
    · exact iff_of_false (never _) fun all => all.1 slash

/-- **The attributes of a spelled tag** are read as they are spelled exactly if no unquoted value
has a slash. -/
theorem SpelledTag.texts_ofTag_iff (tag : SpelledTag) (offset : Nat) :
    (Element.ofTag tag.text offset).attributes.map Attribute.texts =
        tag.attributes.map SpelledAttribute.texts ↔
      ∀ a ∈ tag.attributes, ¬ a.HasSlash := by
  have follows := follows_attributes tag.attributes tag.gap_blank tag.selfClosing
  simp only [Element.ofTag, SpelledTag.text]
  rw [lexTag_tagName tag.named follows.fence]
  exact texts_attributes_iff tag.attributes tag.gap_blank tag.selfClosing _

section Agreement

variable [Matching]

/-- What is cut as an opening tag has been recognised as one. -/
theorem openTag?_of_cutToken {c : Char} {rest : List Char}
    (kind : (cutToken c rest).1 = .openTag) : openTag? (c :: rest) = some (cutToken c rest).2 := by
  cases long : longToken? c rest with
  | none =>
    rw [cutToken_eq_splitOff long, splitOff] at kind
    split at kind <;> cases kind
  | some token =>
    rw [cutToken_eq_some long] at kind ⊢
    unfold longToken? at long
    split at long
    · rename_i bracket
      subst bracket
      simp only [bracketToken?] at long
      split at long
      · obtain rfl := Option.some.inj long
        cases kind
      · obtain rfl := Option.some.inj long
        cases kind
      · rename_i read
        obtain rfl := Option.some.inj long
        exact read
      · cases long
    split at long
    · simp only [braceToken?] at long
      split at long
      · obtain rfl := Option.some.inj long
        cases kind
      split at long
      · obtain rfl := Option.some.inj long
        cases kind
      · cases long
    · obtain rfl := Option.some.inj long
      cases kind

theorem exists_openTag_of_mem_tokens {cs : List Char} {token : Token} (mem : token ∈ tokens cs)
    (kind : token.kind = .openTag) :
    ∃ front cut, openTag? front = some cut ∧ cut.taken = token.text := by
  obtain ⟨c, rest, rfl⟩ := exists_cutToken_of_mem_tokens mem
  exact ⟨c :: rest, _, openTag?_of_cutToken kind, rfl⟩

/-- **The two readers of opening tags agree** about the names and the values of attributes, their
number and their order, exactly if no value without quotes has a slash. An unquoted value ends in
front of blanks or of what closes the tag. -/
theorem readers_agree_iff {template : String} {located : Token × Span}
    (mem : located ∈ lex template) (kind : located.1.kind = .openTag) :
    (∃ tag : SpelledTag, tag.text = located.1.text) ∧
      ∀ tag : SpelledTag, tag.text = located.1.text →
        ((Element.ofTag located.1.text located.2.start).attributes.map Attribute.texts =
            tag.attributes.map SpelledAttribute.texts ↔
          ∀ a ∈ tag.attributes, ¬ a.HasSlash) := by
  obtain ⟨front, cut, opens, taken⟩ :=
    exists_openTag_of_mem_tokens (mem_tokens_of_mem_lex mem) kind
  obtain ⟨tag, same⟩ := exists_spelledTag opens
  refine ⟨⟨tag, same.symm.trans taken⟩, ?_⟩
  intro other spelled
  rw [← spelled]
  exact other.texts_ofTag_iff _

end Agreement

/-- A tag with a slash between quotes and one in front of its closing bracket. -/
def tagWithSlashes : SpelledTag where
  name := ['a']
  attributes :=
    [⟨[' '], ['b'], some ⟨[], [], .quoted '"' ['/', 'c'] (.inl rfl) (by decide), rfl, rfl⟩,
        by decide, rfl, by decide, rfl⟩,
      ⟨[' '], ['d'], some ⟨[' '], [' '], .unquoted ['e'] (by decide) rfl, rfl, rfl⟩,
        by decide, rfl, by decide, rfl⟩,
      ⟨[' '], ['f'], none, by decide, rfl, by decide, rfl⟩]
  gap := []
  selfClosing := true
  named := rfl
  gap_blank := rfl
  settled := nofun

/-- Such slashes do no harm. -/
theorem readers_agree_on_slashes :
    ∃ located ∈ lex "<a b=\"/c\" d = e f/>", located.1.kind = .openTag ∧
      tagWithSlashes.text = located.1.text ∧
      (Element.ofTag located.1.text located.2.start).attributes.map Attribute.texts =
        [("b", some "/c"), ("d", some "e"), ("f", none)] := by
  have tokens : lex "<a b=\"/c\" d = e f/>" = [(⟨.openTag, tagWithSlashes.text⟩, ⟨0, 19⟩)] := by
    cbv
  have mem : (⟨.openTag, tagWithSlashes.text⟩, ⟨0, 19⟩) ∈ lex "<a b=\"/c\" d = e f/>" := by
    rw [tokens]
    exact List.mem_cons_self
  refine ⟨_, mem, rfl, rfl, ?_⟩
  refine ((readers_agree_iff mem rfl).2 tagWithSlashes rfl).mpr ?_
  rintro a ha ⟨value, assigned, slash⟩
  rcases List.mem_cons.mp ha with rfl | ha
  · obtain rfl := Option.some.inj assigned
    exact slash
  · rcases List.mem_cons.mp ha with rfl | ha
    · obtain rfl := Option.some.inj assigned
      exact absurd slash (by simp [SpelledValue.HasSlash])
    · obtain rfl := List.mem_singleton.mp ha
      cases assigned

/-- A tag whose value has a slash and no quotes. -/
def tagWithPath : SpelledTag where
  name := ['a']
  attributes := [⟨[' '], [':', 'h', 'r', 'e', 'f'],
    some ⟨[], [], .unquoted ['a', '/', 'b'] (by decide) rfl, rfl, rfl⟩,
    by decide, rfl, by decide, rfl⟩]
  gap := []
  selfClosing := false
  named := rfl
  gap_blank := rfl
  settled := by
    rintro - - a ⟨⟩ run nonempty all ⟨⟩ slash
    cases slash

/-- **A slash in a value without quotes is not read**, and what stands behind it becomes an
attribute of its own. -/
theorem unquoted_slash_is_lost :
    ∃ located ∈ lex "<a :href=a/b>", located.1.kind = .openTag ∧
      tagWithPath.text = located.1.text ∧
      tagWithPath.attributes.map SpelledAttribute.texts = [(":href", some "a/b")] ∧
      (Element.ofTag located.1.text located.2.start).attributes.map Attribute.texts =
        [(":href", some "a"), ("b", none)] := by
  have tokens : lex "<a :href=a/b>" = [(⟨.openTag, tagWithPath.text⟩, ⟨0, 13⟩)] := by
    cbv
  refine ⟨(⟨.openTag, tagWithPath.text⟩, ⟨0, 13⟩), ?_, rfl, rfl, rfl, ?_⟩
  · rw [tokens]
    exact List.mem_cons_self
  · cbv

end TemplateCompiler.Markup
