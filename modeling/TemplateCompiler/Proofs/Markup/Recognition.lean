import Mathlib
import TemplateCompiler.Proofs.Markup.Spelling

/-!
# Which opening tags are recognised

A matcher of the patterns as they are written recognises an opening tag wherever one is spelled,
with blanks before its end or without. What the other matchers recognise are some of these tags.

A tag may be spelled in two ways where a slash stands behind an unquoted value. The matcher takes
the slash as a part of the value, so the proof goes over the spelling in which no unquoted value
touches the slash of the end.

## Main statements

* `Markup.openTag?_text` — a spelled tag is recognised
* `Markup.openTag?_eq_some_iff` — the opening tags of the written patterns
-/
namespace TemplateCompiler.Markup

open Text

/-! ## Parts of a tag -/

/-- A value ends in front of the text. -/
def SpelledValue.EndsAt (cs : List Char) : SpelledValue → Prop
  | quoted _ _ _ _ => True
  | unquoted _ _ _ => cs.head?.any isUnquotedChar = false

/-- A value that has been assigned begins without a blank. -/
theorem SpelledValue.head?_text (value : SpelledValue) (cs : List Char) :
    (value.text ++ cs).head?.any isMarkupBlank = false := by
  cases value with
  | quoted quote text isQuote absent =>
    rcases isQuote with rfl | rfl <;> rfl
  | unquoted run nonempty all =>
    obtain ⟨c, run, rfl⟩ := List.exists_cons_of_ne_nil nonempty
    rw [List.all_cons, Bool.and_eq_true] at all
    have first := all.1
    simp only [isUnquotedChar, Bool.not_eq_true', Bool.or_eq_false_iff] at first
    exact first.1.1.1.1.1

theorem attributeValue?_text (value : SpelledValue) {cs : List Char} (ends : value.EndsAt cs) :
    attributeValue? (value.text ++ cs) = some ⟨value.text, cs⟩ := by
  cases value with
  | quoted quote text isQuote absent =>
    have inner : cutRun (· != quote) (text ++ quote :: cs) = ⟨text, quote :: cs⟩ := by
      refine cutRun_run (List.all_eq_true.mpr fun c mem => ?_) (by simp)
      exact bne_iff_ne.mpr fun same => absent (same ▸ mem)
    simp [attributeValue?, SpelledValue.text, quoted?, if_pos isQuote, inner, after?]
  | unquoted run nonempty all =>
    have unquoted : quoted? (run ++ cs) = none := by
      obtain ⟨c, run, rfl⟩ := List.exists_cons_of_ne_nil nonempty
      rw [List.all_cons, Bool.and_eq_true] at all
      rw [List.cons_append, quoted?, if_neg]
      rintro (rfl | rfl) <;> exact absurd all.1 (by decide)
    simp [attributeValue?, SpelledValue.text, unquoted, cutRun_run all ends, nonempty]

/-- Text that may stand behind an attribute: names end in front of it, and it assigns nothing. -/
structure Resumes (cs : List Char) : Prop where
  fence : cs.head?.all isFence = true
  unassigned : after? ['='] (cs.dropWhile isMarkupBlank) = none

/-- A text in front of which a value of the attribute ends. -/
def SpelledAttribute.EndsAt (a : SpelledAttribute) (cs : List Char) : Prop :=
  ∀ value ∈ a.value?, value.EndsAt cs

/-- An assignment is read up to the end of the value. -/
theorem exists_assignment?_text (assignment : Option Assignment) {cs : List Char}
    (resumes : Resumes cs) (ends : ∀ a ∈ assignment, a.value.EndsAt cs) :
    ∃ part, assignment? ((assignment.map Assignment.text).getD [] ++ cs) =
      some (part, ⟨(assignment.map Assignment.text).getD [], cs⟩) := by
  cases assignment with
  | none =>
    refine ⟨.bare, ?_⟩
    rw [assignment?]
    simp only [Option.map_none, Option.getD_none, List.nil_append, cutRun_rest, resumes.unassigned]
  | some a =>
    obtain ⟨left, right, value, left_blank, right_blank⟩ := a
    have blanks : cutRun isMarkupBlank (left ++ '=' :: (right ++ (value.text ++ cs))) =
        ⟨left, '=' :: (right ++ (value.text ++ cs))⟩ := cutRun_run left_blank rfl
    have gap : cutRun isMarkupBlank (right ++ (value.text ++ cs)) = ⟨right, value.text ++ cs⟩ :=
      cutRun_run right_blank (value.head?_text cs)
    have read := attributeValue?_text value (ends _ rfl)
    refine ⟨.value, ?_⟩
    simp [assignment?, Assignment.text, blanks, gap, read, after?, Cut.append]

/-- What a name is followed by begins with a fence. -/
theorem Resumes.border {cs : List Char} (resumes : Resumes cs) (assignment : Option Assignment) :
    ((assignment.map Assignment.text).getD [] ++ cs).head?.any isAttributeNameChar = false := by
  have fence := head?_assignment assignment resumes.fence
  cases first : ((assignment.map Assignment.text).getD [] ++ cs).head? with
  | none => rfl
  | some c => simpa [first, isFence] using fence

namespace SpelledAttribute

variable (a : SpelledAttribute)

/-- An attribute begins with a blank. -/
theorem head?_text (cs : List Char) : (a.text ++ cs).head?.any isMarkupBlank = true := by
  obtain ⟨c, blanks, same⟩ := List.exists_cons_of_ne_nil a.blanks_ne_nil
  rw [text, same]
  exact List.all_eq_true.mp a.blanks_blank c (same ▸ List.mem_cons_self)

/-- The first character of the name is no blank and no equals sign. -/
theorem exists_name : ∃ c name, a.name = c :: name ∧ isMarkupBlank c = false ∧ c ≠ '=' := by
  obtain ⟨c, name, same⟩ := List.exists_cons_of_ne_nil a.name_ne_nil
  have first := List.all_eq_true.mp a.name_all c (same ▸ List.mem_cons_self)
  simp only [isAttributeNameChar, Bool.not_eq_true', Bool.or_eq_false_iff, beq_eq_false_iff_ne]
    at first
  exact ⟨c, name, same, first.1.1.1.1.1.1, first.2⟩

/-- The blanks of an attribute end in front of its name. -/
theorem cutRun_text (cs : List Char) : cutRun isMarkupBlank (a.text ++ cs) =
    ⟨a.blanks, a.name ++ ((a.assignment.map Assignment.text).getD [] ++ cs)⟩ := by
  rw [text, List.append_assoc, List.append_assoc]
  obtain ⟨c, name, same, first, -⟩ := a.exists_name
  refine cutRun_run a.blanks_blank ?_
  rw [same]
  exact first

/-- Another attribute may stand behind an attribute. -/
theorem resumes_text (cs : List Char) : Resumes (a.text ++ cs) where
  fence := by
    have blank := a.head?_text cs
    cases first : (a.text ++ cs).head? with
    | none => rfl
    | some c => exact isFence_of_isMarkupBlank (by simpa [first] using blank)
  unassigned := by
    have rest := congrArg Cut.rest (a.cutRun_text cs)
    rw [cutRun_rest] at rest
    obtain ⟨c, name, same, -, sign⟩ := a.exists_name
    simp [rest, same, after?, Ne.symm sign]

/-- A value ends in front of another attribute. -/
theorem endsAt_text (value : SpelledValue) (cs : List Char) : value.EndsAt (a.text ++ cs) := by
  cases value with
  | quoted => exact trivial
  | unquoted run nonempty all =>
    have blank := a.head?_text cs
    cases first : (a.text ++ cs).head? with
    | none => simp [SpelledValue.EndsAt, first]
    | some c =>
      have blank : isMarkupBlank c = true := by simpa [first] using blank
      simp [SpelledValue.EndsAt, first, isUnquotedChar, blank]

end SpelledAttribute

/-- Behind the last attribute comes what closes the tag. -/
theorem resumes_closing {gap : List Char} (blank : gap.all isMarkupBlank = true)
    (selfClosing : Bool) (cs : List Char) : Resumes (gap ++ (closing selfClosing ++ cs)) where
  fence := by
    cases gap with
    | nil => cases selfClosing <;> rfl
    | cons c gap =>
      rw [List.all_cons, Bool.and_eq_true] at blank
      exact isFence_of_isMarkupBlank blank.1
  unassigned := by
    rw [dropWhile_run blank (by cases selfClosing <;> rfl)]
    cases selfClosing <;> simp [closing, after?]

/-! ## Whole tags -/

/-- No unquoted value touches the slash of the end. -/
def Apart (attributes : List SpelledAttribute) (gap : List Char) (selfClosing : Bool) : Prop :=
  selfClosing = true → gap = [] → ∀ a ∈ attributes.getLast?, ∀ value ∈ a.value?,
    ∀ run nonempty all, value ≠ .unquoted run nonempty all

/-- A value of the last attribute ends in front of what closes the tag. -/
theorem endsAt_closing {gap : List Char} (blank : gap.all isMarkupBlank = true)
    {selfClosing : Bool} {cs : List Char} {value? : Option SpelledValue}
    (apart : selfClosing = true → gap = [] → ∀ value ∈ value?,
      ∀ run nonempty all, value ≠ .unquoted run nonempty all) :
    ∀ value ∈ value?, value.EndsAt (gap ++ (closing selfClosing ++ cs)) := by
  intro value mem
  cases value with
  | quoted => exact trivial
  | unquoted run nonempty all =>
    cases gap with
    | nil =>
      cases selfClosing with
      | false => rfl
      | true => exact absurd rfl (apart rfl rfl _ mem run nonempty all)
    | cons c gap =>
      rw [List.all_cons, Bool.and_eq_true] at blank
      simp [SpelledValue.EndsAt, isUnquotedChar, blank.1]

/-- A slash of the end that is touched can be made a part of the value. -/
theorem exists_apart (attributes : List SpelledAttribute) (gap : List Char) (selfClosing : Bool) :
    ∃ (others : List SpelledAttribute) (otherClosing : Bool),
      attributes.flatMap SpelledAttribute.text ++ (gap ++ closing selfClosing) =
          others.flatMap SpelledAttribute.text ++ (gap ++ closing otherClosing) ∧
        Apart others gap otherClosing := by
  by_cases apart : Apart attributes gap selfClosing
  · exact ⟨attributes, selfClosing, rfl, apart⟩
  · simp only [Apart, not_forall, not_not] at apart
    obtain ⟨rfl, rfl, a, last, value, mem, run, nonempty, all, rfl⟩ := apart
    obtain ⟨init, rfl⟩ := List.getLast?_eq_some_iff.mp last
    obtain ⟨blanks, name, assignment, blanks_ne_nil, blanks_blank, name_ne_nil, name_all⟩ := a
    obtain ⟨⟨left, right, value, left_blank, right_blank⟩, rfl, rfl⟩ :=
      Option.map_eq_some_iff.mp mem
    have longer : (run ++ ['/']).all isUnquotedChar = true := by
      rw [List.all_append, all]
      rfl
    refine ⟨init ++ [⟨blanks, name, some ⟨left, right, .unquoted (run ++ ['/']) (by simp) longer,
      left_blank, right_blank⟩, blanks_ne_nil, blanks_blank, name_ne_nil, name_all⟩], false, ?_,
      fun closes => absurd closes Bool.false_ne_true⟩
    simp [SpelledAttribute.text, Assignment.text, SpelledValue.text, closing]

section Permissive

variable [Matching]

/-- An attribute is read up to its end. -/
theorem exists_attribute?_text (a : SpelledAttribute) {before : TagPart} {cs : List Char}
    (welcome : Matching.toAttribute before = true) (resumes : Resumes cs)
    (ends : ∀ value ∈ a.value?, value.EndsAt cs) :
    ∃ part, attribute? before (a.text ++ cs) = some (part, ⟨a.text, cs⟩) := by
  obtain ⟨part, read⟩ := exists_assignment?_text a.assignment resumes fun inner mem =>
    ends inner.value (Option.mem_map_of_mem _ mem)
  have name := cutRun_run a.name_all (resumes.border a.assignment)
  refine ⟨part, ?_⟩
  simp only [attribute?, a.cutRun_text, name, read, welcome, a.blanks_ne_nil, a.name_ne_nil]
  simp [Cut.append, SpelledAttribute.text]

/-- No attribute begins where the tag ends. -/
theorem attribute?_closing {gap : List Char} (blank : gap.all isMarkupBlank = true)
    (selfClosing : Bool) (before : TagPart) (cs : List Char) :
    attribute? before (gap ++ (closing selfClosing ++ cs)) = none := by
  have blanks : cutRun isMarkupBlank (gap ++ (closing selfClosing ++ cs)) =
      ⟨gap, closing selfClosing ++ cs⟩ := cutRun_run blank (by cases selfClosing <;> rfl)
  have noName : (cutRun isAttributeNameChar (closing selfClosing ++ cs)).taken = [] := by
    cases selfClosing <;> rfl
  simp only [attribute?, blanks, noName]
  simp

theorem openTagEnd?_closing {gap : List Char} (blank : gap.all isMarkupBlank = true)
    (selfClosing : Bool) {before : TagPart} (ends : Matching.toEnd before = true)
    (cs : List Char) :
    openTagEnd? before (gap ++ (closing selfClosing ++ cs)) =
      some ⟨gap ++ closing selfClosing, cs⟩ := by
  have blanks : cutRun isMarkupBlank (gap ++ (closing selfClosing ++ cs)) =
      ⟨gap, closing selfClosing ++ cs⟩ := cutRun_run blank (by cases selfClosing <;> rfl)
  simp only [openTagEnd?, blanks, ends]
  cases selfClosing <;> simp [closing, tagCloser?, Cut.append]

variable (toAttribute : ∀ part, Matching.toAttribute part = true)
  (toEnd : ∀ part, Matching.toEnd part = true)

include toAttribute toEnd

/-- The rest of a tag is read up to its end. -/
theorem openTagTail_text {attributes : List SpelledAttribute} {gap : List Char}
    (blank : gap.all isMarkupBlank = true) {selfClosing : Bool}
    (apart : Apart attributes gap selfClosing) (before : TagPart) (cs : List Char) :
    openTagTail before
        (attributes.flatMap SpelledAttribute.text ++ (gap ++ (closing selfClosing ++ cs))) =
      some ⟨attributes.flatMap SpelledAttribute.text ++ (gap ++ closing selfClosing), cs⟩ := by
  induction attributes generalizing before with
  | nil =>
    rw [List.flatMap_nil, List.nil_append, openTagTail, attribute?_closing blank]
    exact openTagEnd?_closing blank selfClosing (toEnd before) cs
  | cons a rest ih =>
    have apartRest : Apart rest gap selfClosing := by
      intro closed none last mem
      exact apart closed none last (List.mem_getLast?_cons mem)
    have read := ih apartRest
    generalize stop : rest.flatMap SpelledAttribute.text ++ (gap ++ (closing selfClosing ++ cs)) =
      behind at read
    have resumes : Resumes behind ∧ ∀ value ∈ a.value?, value.EndsAt behind := by
      cases rest with
      | nil =>
        rw [List.flatMap_nil, List.nil_append] at stop
        subst stop
        exact ⟨resumes_closing blank selfClosing cs,
          endsAt_closing blank fun closed none => apart closed none a rfl⟩
      | cons b rest =>
        rw [List.flatMap_cons, List.append_assoc] at stop
        subst stop
        exact ⟨b.resumes_text _, fun value _ => b.endsAt_text value _⟩
    obtain ⟨part, here⟩ := exists_attribute?_text a (toAttribute before) resumes.1 resumes.2
    rw [List.flatMap_cons, List.append_assoc, stop, openTagTail, here]
    simp [read part, Cut.append]

/-- **A spelled tag is recognised**, where blanks may lead to attributes and to the end. -/
theorem openTag?_text (tag : SpelledTag) (cs : List Char) :
    openTag? (tag.text ++ cs) = some ⟨tag.text, cs⟩ := by
  obtain ⟨others, otherClosing, same, apart⟩ :=
    exists_apart tag.attributes tag.gap tag.selfClosing
  have resumes : Resumes (others.flatMap SpelledAttribute.text ++
      (tag.gap ++ (closing otherClosing ++ cs))) := by
    cases others with
    | nil => exact resumes_closing tag.gap_blank otherClosing cs
    | cons a others =>
      rw [List.flatMap_cons, List.append_assoc]
      exact a.resumes_text _
  have tail := openTagTail_text toAttribute toEnd tag.gap_blank apart .name cs
  have name := tagName?_append tag.named resumes.fence
  simp [openTag?, after?, name, tail, Cut.append, SpelledTag.text, same]

end Permissive

/-- **The opening tags of the patterns as they are written** are the spelled ones. -/
theorem openTag?_eq_some_iff {cs : List Char} {cut : Cut} :
    @openTag? .written cs = some cut ↔ cut.Of cs ∧ ∃ tag : SpelledTag, cut.taken = tag.text := by
  let := Matching.written
  constructor
  · intro read
    exact ⟨of_openTag? read, exists_spelledTag read⟩
  · rintro ⟨rfl, tag, same⟩
    rw [same, openTag?_text (fun _ => rfl) (fun _ => rfl) tag, ← same]

example : @openTag? .written "<p a >b".toList = some ⟨"<p a >".toList, ['b']⟩ := by cbv

-- the matcher that the program runs with, and one that lets blanks end a tag behind a bare name
example : @openTag? .committed "<p a >b".toList = none := by cbv

example : @openTag? { Matching.committed with toEnd := (· == .bare) } "<p a >b".toList =
    some ⟨"<p a >".toList, ['b']⟩ := by cbv

end TemplateCompiler.Markup
