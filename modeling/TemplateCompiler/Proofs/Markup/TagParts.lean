import Mathlib.Data.Option.Basic
import TemplateCompiler.Proofs.Markup.Spelling

/-!
# The parts of an opening tag

What stands behind the name of an opening tag is a row of parts: words, quoted texts, and marks
between them. Whether a text is an opening tag depends on its parts only as far as they are marks,
words or quoted texts, and not on what the words and the quoted texts say.

## Main definitions

* `Markup.Part`, `Markup.tail` — the parts of a tag, and its text behind the name
* `Markup.Fitting` — parts that stand where they may
* `Markup.Alike` — parts that differ in words and quoted texts only

## Main statements

* `Markup.exists_parts` — every opening tag has parts
* `Markup.openTag?_alike` — a tag whose words and quoted texts are replaced is an opening tag
-/
namespace TemplateCompiler.Markup

open Text

/-! ## Parts -/

/-- A part of an opening tag. -/
inductive Part where
  /-- A blank, a slash or an equals sign. -/
  | mark (c : Char)
  | word (text : List Char)
  | quoted (quote : Char) (text : List Char)

namespace Part

/-- The characters of a part. -/
def text : Part → List Char
  | mark c => [c]
  | word text => text
  | quoted quote text => quote :: (text ++ [quote])

/-- The part is a mark. -/
def IsMark : Part → Prop
  | mark _ => True
  | word _ | quoted _ _ => False

end Part

/-- The text that parts make behind the name of a tag, with the closing bracket, and what follows
the tag. -/
def tail (parts : List Part) (rest : List Char) : List Char :=
  parts.flatMap Part.text ++ '>' :: rest

section Tail

variable (parts : List Part) (rest : List Char)

@[simp] theorem tail_nil : tail [] rest = '>' :: rest := rfl

theorem tail_cons (part : Part) : tail (part :: parts) rest = part.text ++ tail parts rest := by
  rw [tail, tail, List.flatMap_cons, List.append_assoc]

@[simp] theorem tail_mark (c : Char) : tail (.mark c :: parts) rest = c :: tail parts rest :=
  tail_cons ..

@[simp] theorem tail_word (word : List Char) :
    tail (.word word :: parts) rest = word ++ tail parts rest :=
  tail_cons ..

@[simp] theorem tail_quoted (quote : Char) (text : List Char) :
    tail (.quoted quote text :: parts) rest =
      quote :: (text ++ quote :: tail parts rest) := by
  rw [tail_cons, Part.text, List.cons_append, List.append_assoc, List.singleton_append]

theorem tail_append (more : List Part) :
    tail (parts ++ more) rest = parts.flatMap Part.text ++ tail more rest := by
  rw [tail, tail, List.flatMap_append, List.append_assoc]

/-- What follows the tag. -/
theorem tail_eq_append : tail parts rest = tail parts [] ++ rest := by
  rw [tail, tail, List.append_assoc]
  rfl

end Tail

/-- A character of which a mark is made. -/
def IsMarkChar (c : Char) : Prop := isMarkupBlank c = true ∨ c = '/' ∨ c = '='

/-- A name of an attribute, or a value that is read as a word. -/
def IsWordText (text : List Char) : Prop := text ≠ [] ∧ text.all isAttributeNameChar = true

/-- A quote. -/
def IsQuote (c : Char) : Prop := c = '"' ∨ c = '\''

/-- Parts that begin with a mark, if there are any. -/
def MarkFirst (parts : List Part) : Prop := ∀ part ∈ parts.head?, part.IsMark

/-- Parts that stand where they may: no word is followed by anything but a mark. -/
inductive Fitting : List Part → Prop where
  | nil : Fitting []
  | mark {c : Char} {parts : List Part} : IsMarkChar c → Fitting parts → Fitting (.mark c :: parts)
  | word {text : List Char} {parts : List Part} :
    IsWordText text → MarkFirst parts → Fitting parts → Fitting (.word text :: parts)
  | quoted {quote : Char} {text : List Char} {parts : List Part} :
    IsQuote quote → quote ∉ text → Fitting parts → Fitting (.quoted quote text :: parts)

/-- Parts that stand where they may, and others that differ from them in words and quoted texts
only. -/
inductive Alike : List Part → List Part → Prop where
  | nil : Alike [] []
  | mark {c : Char} {parts others : List Part} :
    IsMarkChar c → Alike parts others → Alike (.mark c :: parts) (.mark c :: others)
  | word {text other : List Char} {parts others : List Part} :
    IsWordText text → IsWordText other → MarkFirst parts → Alike parts others →
      Alike (.word text :: parts) (.word other :: others)
  | quoted {quote : Char} {text other : List Char} {parts others : List Part} :
    IsQuote quote → quote ∉ text → quote ∉ other → Alike parts others →
      Alike (.quoted quote text :: parts) (.quoted quote other :: others)

/-- The part is made of the characters that it may have. -/
def Part.Fits : Part → Prop
  | mark c => IsMarkChar c
  | word text => IsWordText text
  | quoted quote text => IsQuote quote ∧ quote ∉ text

theorem Fitting.uncons {part : Part} {parts : List Part} (h : Fitting (part :: parts)) :
    part.Fits ∧ Fitting parts := by
  cases h with
  | mark char behind => exact ⟨char, behind⟩
  | word text _ behind => exact ⟨text, behind⟩
  | quoted isQuote absent behind => exact ⟨⟨isQuote, absent⟩, behind⟩

/-! ## Characters -/

theorem IsMarkChar.isFence {c : Char} (h : IsMarkChar c) : isFence c = true := by
  rcases h with blank | rfl | rfl
  · exact isFence_of_isMarkupBlank blank
  · rfl
  · rfl

theorem IsQuote.isFence {c : Char} (h : IsQuote c) : isFence c = true := by
  rcases h with rfl | rfl <;> rfl

theorem IsMarkChar.not_isQuote {c : Char} (h : IsMarkChar c) : ¬ IsQuote c := by
  rintro (rfl | rfl) <;> rcases h with blank | same | same
  all_goals first | cases blank | cases same

/-- A fence stands in front of a mark, and of the bracket behind the parts. -/
theorem MarkFirst.head?_tail {parts : List Part} (first : MarkFirst parts)
    (fitting : Fitting parts) (rest : List Char) :
    (tail parts rest).head?.all Markup.isFence = true := by
  cases fitting with
  | nil => rfl
  | mark char _ => exact char.isFence
  | word _ _ _ => exact (first _ rfl).elim
  | quoted _ _ _ => exact (first _ rfl).elim

/-! ## Every tag has parts -/

theorem Fitting.marks {cs : List Char} {parts : List Part} (all : ∀ c ∈ cs, IsMarkChar c)
    (h : Fitting parts) : Fitting (cs.map .mark ++ parts) := by
  induction cs with
  | nil => exact h
  | cons c cs ih =>
    exact .mark (all c List.mem_cons_self) (ih fun d mem => all d (List.mem_cons_of_mem c mem))

/-- Blanks are marks. -/
theorem isMarkChar_of_all {cs : List Char} (h : cs.all isMarkupBlank = true) :
    ∀ c ∈ cs, IsMarkChar c :=
  fun c mem => .inl (List.all_eq_true.mp h c mem)

/-- Parts that do not begin with a quoted text. -/
def Unquoted (parts : List Part) : Prop := ∀ quote text more, parts ≠ .quoted quote text :: more

/-- One more character of a word. -/
theorem exists_longer_word {c : Char} (name : isAttributeNameChar c = true) {parts : List Part}
    (fitting : Fitting parts) (unquoted : Unquoted parts) :
    ∃ more, Fitting more ∧ Unquoted more ∧ ∀ rest, tail more rest = c :: tail parts rest := by
  have alone (first : MarkFirst parts) : Fitting (.word [c] :: parts) :=
    .word ⟨List.cons_ne_nil c [], by simp [name]⟩ first fitting
  cases fitting with
  | nil => exact ⟨_, alone nofun, nofun, fun rest => rfl⟩
  | mark char behind =>
    refine ⟨_, alone ?_, nofun, fun rest => tail_word ..⟩
    rintro _ ⟨⟩
    trivial
  | @word text parts word first behind =>
    have longer : IsWordText (c :: text) := by
      refine ⟨List.cons_ne_nil c text, ?_⟩
      rw [List.all_cons, name, word.2]
      rfl
    refine ⟨_, .word longer first behind, nofun, fun rest => ?_⟩
    rw [tail_word, tail_word, List.cons_append]
  | quoted _ _ _ => exact absurd rfl (unquoted _ _ _)

/-- A value without quotes is made of words and slashes. -/
theorem exists_parts_unquoted {run : List Char} (all : run.all isUnquotedChar = true)
    {parts : List Part} (fitting : Fitting parts) (unquoted : Unquoted parts) :
    ∃ more, Fitting more ∧ Unquoted more ∧ ∀ rest, tail more rest = run ++ tail parts rest := by
  induction run with
  | nil => exact ⟨parts, fitting, unquoted, fun rest => rfl⟩
  | cons c run ih =>
    rw [List.all_cons, Bool.and_eq_true] at all
    obtain ⟨more, fitting, unquoted, spelled⟩ := ih all.2
    by_cases slash : c = '/'
    · refine ⟨_, .mark (.inr (.inl slash)) fitting, nofun, fun rest => ?_⟩
      rw [tail_mark, spelled, List.cons_append]
    · have name : isAttributeNameChar c = true := by
        have char := all.1
        simp only [isUnquotedChar, Bool.not_eq_true', Bool.or_eq_false_iff] at char
        simp [isAttributeNameChar, char, slash]
      obtain ⟨longer, fitting, unquoted, longerSpelled⟩ :=
        exists_longer_word name fitting unquoted
      refine ⟨longer, fitting, unquoted, fun rest => ?_⟩
      rw [longerSpelled, spelled, List.cons_append]

/-- A value is made of parts. -/
theorem exists_parts_value (value : SpelledValue) {parts : List Part} (fitting : Fitting parts)
    (first : MarkFirst parts) :
    ∃ more, Fitting more ∧ ∀ rest, tail more rest = value.text ++ tail parts rest := by
  cases value with
  | quoted quote text isQuote absent =>
    refine ⟨_, .quoted isQuote absent fitting, fun rest => ?_⟩
    rw [tail_quoted, SpelledValue.text, List.cons_append, List.append_assoc,
      List.singleton_append]
  | unquoted run nonempty all =>
    have unquoted : Unquoted parts := by
      rintro quote text more rfl
      exact first _ rfl
    obtain ⟨more, fitting, -, spelled⟩ := exists_parts_unquoted all fitting unquoted
    exact ⟨more, fitting, spelled⟩

/-- Marks in front of parts. -/
theorem MarkFirst.marks {cs : List Char} (nonempty : cs ≠ []) (parts : List Part) :
    MarkFirst (cs.map .mark ++ parts) := by
  obtain ⟨c, cs, rfl⟩ := List.exists_cons_of_ne_nil nonempty
  rintro _ ⟨⟩
  trivial

theorem tail_marks (cs : List Char) (parts : List Part) (rest : List Char) :
    tail (cs.map .mark ++ parts) rest = cs ++ tail parts rest := by
  rw [tail_append, List.flatMap_map]
  exact congrArg (· ++ tail parts rest) (List.flatMap_singleton' cs)

/-- An attribute is made of parts. -/
theorem exists_parts_attribute (a : SpelledAttribute) {parts : List Part}
    (fitting : Fitting parts) (first : MarkFirst parts) :
    ∃ more, Fitting more ∧ MarkFirst more ∧
      ∀ rest, tail more rest = a.text ++ tail parts rest := by
  obtain ⟨blanks, name, assignment, blanks_ne_nil, blanks_blank, name_ne_nil, name_all⟩ := a
  have named {behind : List Part} (fitting : Fitting behind) (first : MarkFirst behind) :
      Fitting (blanks.map .mark ++ .word name :: behind) :=
    .marks (isMarkChar_of_all blanks_blank) (.word ⟨name_ne_nil, name_all⟩ first fitting)
  cases assignment with
  | none =>
    refine ⟨_, named fitting first, .marks blanks_ne_nil _, fun rest => ?_⟩
    rw [tail_marks, tail_word]
    simp [SpelledAttribute.text]
  | some assignment =>
    obtain ⟨left, right, value, left_blank, right_blank⟩ := assignment
    obtain ⟨behind, behindFitting, spelled⟩ := exists_parts_value value fitting first
    have signs : ∀ c ∈ left ++ '=' :: right, IsMarkChar c := by
      intro c mem
      rcases List.mem_append.mp mem with inLeft | inRight
      · exact isMarkChar_of_all left_blank c inLeft
      · rcases List.mem_cons.mp inRight with rfl | inRight
        · exact .inr (.inr rfl)
        · exact isMarkChar_of_all right_blank c inRight
    refine ⟨_, named (.marks signs behindFitting) (.marks (by simp) _), .marks blanks_ne_nil _,
      fun rest => ?_⟩
    rw [tail_marks, tail_word, tail_marks, spelled]
    simp [SpelledAttribute.text, Assignment.text]

/-- The end of a tag is made of marks. -/
theorem exists_parts_closing {gap : List Char} (blank : gap.all isMarkupBlank = true)
    (selfClosing : Bool) :
    ∃ parts, Fitting parts ∧ MarkFirst parts ∧
      ∀ rest, tail parts rest = gap ++ (closing selfClosing ++ rest) := by
  obtain ⟨last, fitting, first, spelled⟩ : ∃ last, Fitting last ∧ MarkFirst last ∧
      ∀ rest, tail last rest = closing selfClosing ++ rest := by
    cases selfClosing with
    | false => exact ⟨[], .nil, nofun, fun rest => rfl⟩
    | true =>
      refine ⟨[.mark '/'], .mark (.inr (.inl rfl)) .nil, ?_, fun rest => rfl⟩
      rintro _ ⟨⟩
      trivial
  refine ⟨gap.map .mark ++ last, .marks (isMarkChar_of_all blank) fitting, ?_, fun rest => ?_⟩
  · by_cases empty : gap = []
    · rw [empty]
      exact first
    · exact .marks empty last
  · rw [tail_marks, spelled]

theorem exists_parts_attributes (attributes : List SpelledAttribute) {gap : List Char}
    (blank : gap.all isMarkupBlank = true) (selfClosing : Bool) :
    ∃ parts, Fitting parts ∧ MarkFirst parts ∧ ∀ rest, tail parts rest =
      attributes.flatMap SpelledAttribute.text ++ (gap ++ (closing selfClosing ++ rest)) := by
  induction attributes with
  | nil => exact exists_parts_closing blank selfClosing
  | cons a attributes ih =>
    obtain ⟨parts, fitting, first, spelled⟩ := ih
    obtain ⟨more, fitting, first, moreSpelled⟩ := exists_parts_attribute a fitting first
    refine ⟨more, fitting, first, fun rest => ?_⟩
    rw [moreSpelled, spelled, List.flatMap_cons, List.append_assoc]

/-- **Every opening tag has parts.** -/
theorem exists_parts [Matching] {cs : List Char} {cut : Cut} (h : openTag? cs = some cut) :
    ∃ name parts, tagName? name = some ⟨name, []⟩ ∧ Fitting parts ∧ MarkFirst parts ∧
      cut.taken = '<' :: (name ++ tail parts []) := by
  obtain ⟨tag, same⟩ := exists_spelledTag h
  obtain ⟨parts, fitting, first, spelled⟩ :=
    exists_parts_attributes tag.attributes tag.gap_blank tag.selfClosing
  refine ⟨tag.name, parts, tag.named, fitting, first, ?_⟩
  rw [same, SpelledTag.text, spelled, List.append_nil]

/-! ## Alike tags -/

/-- What two readers left when they read parts that are alike: such parts again. Either both of
them took something or none. -/
def CutAlike (rest other : List Char) (cut otherCut : Cut) : Prop :=
  (cut.taken = [] ↔ otherCut.taken = []) ∧ ∃ parts others, Alike parts others ∧
    cut.rest = tail parts rest ∧ otherCut.rest = tail others other

theorem Alike.markFirst {parts others : List Part} (h : Alike parts others)
    (first : MarkFirst parts) : MarkFirst others := by
  cases h with
  | nil => exact nofun
  | mark _ _ =>
    rintro _ ⟨⟩
    trivial
  | word _ _ _ _ => exact (first _ rfl).elim
  | quoted _ _ _ _ => exact (first _ rfl).elim

theorem Alike.fitting {parts others : List Part} (h : Alike parts others) :
    Fitting parts ∧ Fitting others := by
  induction h with
  | nil => exact ⟨.nil, .nil⟩
  | mark char _ ih => exact ⟨.mark char ih.1, .mark char ih.2⟩
  | word text other first behind ih =>
    exact ⟨.word text first ih.1, .word other (behind.markFirst first) ih.2⟩
  | quoted isQuote absent otherAbsent _ ih =>
    exact ⟨.quoted isQuote absent ih.1, .quoted isQuote otherAbsent ih.2⟩

section Alike

variable {parts others : List Part} (rest other : List Char)

/-- **Runs of a class end alike**, if the class has all characters of words or none of them, and
neither quotes nor the closing bracket. -/
theorem cutAlike_cutRun {p : Char → Bool}
    (words : ∃ b, ∀ c, isAttributeNameChar c = true → p c = b)
    (quotes : ∀ c, IsQuote c → p c = false) (bracket : p '>' = false) (h : Alike parts others) :
    CutAlike rest other (cutRun p (tail parts rest)) (cutRun p (tail others other)) := by
  induction h with
  | nil => exact ⟨by simp [bracket], [], [], .nil, by simp [bracket], by simp [bracket]⟩
  | @mark c parts others char behind ih =>
    by_cases inClass : p c = true
    · obtain ⟨-, more, otherMore, alike, left, otherLeft⟩ := ih
      refine ⟨by simp [inClass], more, otherMore, alike, ?_, ?_⟩
      · simpa [inClass] using left
      · simpa [inClass] using otherLeft
    · refine ⟨by simp [inClass], _, _, .mark char behind, ?_, ?_⟩ <;> simp [inClass]
  | @word text otherText parts others word otherWord first behind ih =>
    obtain ⟨b, words⟩ := words
    cases b with
    | true =>
      have inside {text : List Char} (h : IsWordText text) : ∀ c ∈ text, p c = true :=
        fun c mem => words c (List.all_eq_true.mp h.2 c mem)
      obtain ⟨-, more, otherMore, alike, left, otherLeft⟩ := ih
      refine ⟨?_, more, otherMore, alike, ?_, ?_⟩
      · simp [List.takeWhile_append_of_pos (inside word),
          List.takeWhile_append_of_pos (inside otherWord), word.1, otherWord.1]
      · simpa [List.dropWhile_append_of_pos (inside word)] using left
      · simpa [List.dropWhile_append_of_pos (inside otherWord)] using otherLeft
    | false =>
      have outside {text : List Char} (h : IsWordText text) (behind : List Char) :
          cutRun p (text ++ behind) = ⟨[], text ++ behind⟩ := by
        obtain ⟨c, text, rfl⟩ := List.exists_cons_of_ne_nil h.1
        have first := words c (List.all_eq_true.mp h.2 c List.mem_cons_self)
        simp [cutRun, first]
      rw [tail_word, tail_word, outside word, outside otherWord]
      exact ⟨Iff.rfl, _, _, .word word otherWord first behind, (tail_word ..).symm,
        (tail_word ..).symm⟩
  | @quoted quote text otherText parts others isQuote absent otherAbsent behind ih =>
    have outside := quotes quote isQuote
    refine ⟨by simp [outside], _, _, .quoted isQuote absent otherAbsent behind, ?_, ?_⟩ <;>
      simp [outside]

theorem cutAlike_blanks (h : Alike parts others) :
    CutAlike rest other (cutRun isMarkupBlank (tail parts rest))
      (cutRun isMarkupBlank (tail others other)) := by
  refine cutAlike_cutRun rest other ⟨false, fun c name => ?_⟩ ?_ rfl h
  · simp only [isAttributeNameChar, Bool.not_eq_true', Bool.or_eq_false_iff] at name
    exact name.1.1.1.1.1.1
  · rintro c (rfl | rfl) <;> rfl

theorem cutAlike_name (h : Alike parts others) :
    CutAlike rest other (cutRun isAttributeNameChar (tail parts rest))
      (cutRun isAttributeNameChar (tail others other)) := by
  refine cutAlike_cutRun rest other ⟨true, fun c name => name⟩ ?_ rfl h
  rintro c (rfl | rfl) <;> rfl

theorem cutAlike_unquoted (h : Alike parts others) :
    CutAlike rest other (cutRun isUnquotedChar (tail parts rest))
      (cutRun isUnquotedChar (tail others other)) := by
  refine cutAlike_cutRun rest other ⟨true, fun c name => ?_⟩ ?_ rfl h
  · simp only [isAttributeNameChar, Bool.not_eq_true', Bool.or_eq_false_iff] at name
    simp [isUnquotedChar, name]
  · rintro c (rfl | rfl) <;> rfl

/-- What two readers made of parts that are alike: something alike, or nothing. -/
abbrev ReadAlike (rest other : List Char) : Option Cut → Option Cut → Prop :=
  Option.Rel (CutAlike rest other)

/-- More may have been taken before. -/
theorem ReadAlike.append {rest other lead otherLead : List Char}
    (leads : lead = [] ↔ otherLead = []) {read otherRead : Option Cut}
    (h : ReadAlike rest other read otherRead) :
    ReadAlike rest other (read.map (Cut.append lead)) (otherRead.map (Cut.append otherLead)) := by
  cases h with
  | none => exact .none
  | some alike =>
    refine .some ⟨?_, alike.2⟩
    rw [Cut.taken_append, Cut.taken_append, List.append_eq_nil_iff, List.append_eq_nil_iff, leads,
      alike.1]

/-- An equals sign. -/
theorem readAlike_equals (h : Alike parts others) :
    (after? ['='] (tail parts rest) = none ∧ after? ['='] (tail others other) = none) ∨
      ∃ more otherMore, Alike more otherMore ∧
        after? ['='] (tail parts rest) = some (tail more rest) ∧
          after? ['='] (tail others other) = some (tail otherMore other) := by
  have absent {c : Char} (ne : c ≠ '=') (cs : List Char) : after? ['='] (c :: cs) = none := by
    simp [after?, ne.symm]
  have notWord {text : List Char} (word : IsWordText text) (cs : List Char) :
      after? ['='] (text ++ cs) = none := by
    obtain ⟨c, text, rfl⟩ := List.exists_cons_of_ne_nil word.1
    refine absent ?_ _
    rintro rfl
    exact absurd (List.all_eq_true.mp word.2 '=' List.mem_cons_self) (by decide)
  cases h with
  | nil => exact .inl ⟨rfl, rfl⟩
  | @mark c parts others char behind =>
    by_cases equals : c = '='
    · subst equals
      exact .inr ⟨_, _, behind, by simp [after?], by simp [after?]⟩
    · exact .inl ⟨absent equals _, absent equals _⟩
  | word text otherText first behind =>
    rw [tail_word, tail_word]
    exact .inl ⟨notWord text _, notWord otherText _⟩
  | quoted isQuote absent' otherAbsent behind =>
    rw [tail_quoted, tail_quoted]
    refine .inl ⟨absent ?_ _, absent ?_ _⟩
    all_goals rintro rfl; rcases isQuote with h | h <;> cases h

/-- A quoted text is read to its closing quote. -/
theorem quoted?_quoted {quote : Char} {text : List Char} (isQuote : IsQuote quote)
    (absent : quote ∉ text) (rest : List Char) :
    quoted? (quote :: (text ++ quote :: rest)) = some ⟨quote :: (text ++ [quote]), rest⟩ := by
  have inside : text.all (· != quote) = true := by
    rw [List.all_eq_true]
    intro d mem
    exact bne_iff_ne.mpr fun same => absent (same ▸ mem)
  have border : (quote :: rest).head?.any (· != quote) = false := by simp
  rw [quoted?, if_pos (show quote = '"' ∨ quote = '\'' from isQuote), cutRun_run inside border]
  simp [after?]

theorem quoted?_of_not_isQuote {c : Char} (h : ¬ IsQuote c) (cs : List Char) :
    quoted? (c :: cs) = none := if_neg h

theorem readAlike_quoted (h : Alike parts others) :
    ReadAlike rest other (quoted? (tail parts rest)) (quoted? (tail others other)) := by
  have notWord {text : List Char} (word : IsWordText text) (cs : List Char) :
      quoted? (text ++ cs) = none := by
    obtain ⟨c, text, rfl⟩ := List.exists_cons_of_ne_nil word.1
    refine quoted?_of_not_isQuote ?_ _
    have name := List.all_eq_true.mp word.2 c List.mem_cons_self
    rintro (rfl | rfl) <;> cases name
  cases h with
  | nil => exact .none
  | mark char behind =>
    rw [tail_mark, tail_mark, quoted?_of_not_isQuote char.not_isQuote,
      quoted?_of_not_isQuote char.not_isQuote]
    exact .none
  | word text otherText first behind =>
    rw [tail_word, tail_word, notWord text, notWord otherText]
    exact .none
  | quoted isQuote absent otherAbsent behind =>
    rw [tail_quoted, tail_quoted, quoted?_quoted isQuote absent,
      quoted?_quoted isQuote otherAbsent]
    exact .some ⟨by simp, _, _, behind, rfl, rfl⟩

theorem readAlike_attributeValue (h : Alike parts others) :
    ReadAlike rest other (attributeValue? (tail parts rest))
      (attributeValue? (tail others other)) := by
  have quoted := readAlike_quoted rest other h
  have unquoted := cutAlike_unquoted rest other h
  rw [attributeValue?, attributeValue?]
  generalize quoted? (tail parts rest) = read at quoted ⊢
  generalize quoted? (tail others other) = otherRead at quoted ⊢
  cases quoted with
  | some alike => exact .some alike
  | none =>
    dsimp only
    split
    · rename_i empty
      rw [if_pos (unquoted.1.mp empty)]
      exact .none
    · rename_i nonempty
      rw [if_neg fun empty => nonempty (unquoted.1.mpr empty)]
      exact .some unquoted

/-- What two readers of attributes made of parts that are alike: what the attributes end with is
the same. -/
abbrev AttributeAlike (rest other : List Char) :
    Option (TagPart × Cut) → Option (TagPart × Cut) → Prop :=
  Option.Rel fun read otherRead => read.1 = otherRead.1 ∧ CutAlike rest other read.2 otherRead.2

theorem ReadAlike.ending {rest other lead otherLead : List Char} (part : TagPart)
    (leads : lead = [] ↔ otherLead = []) {read otherRead : Option Cut}
    (h : ReadAlike rest other read otherRead) :
    AttributeAlike rest other (read.map fun cut => (part, cut.append lead))
      (otherRead.map fun cut => (part, cut.append otherLead)) := by
  have more := h.append leads
  cases h with
  | none => exact .none
  | some alike =>
    cases more with
    | some more => exact .some ⟨rfl, more⟩

theorem AttributeAlike.append {rest other lead otherLead : List Char}
    (leads : lead = [] ↔ otherLead = []) {read otherRead : Option (TagPart × Cut)}
    (h : AttributeAlike rest other read otherRead) :
    AttributeAlike rest other (read.map fun read => (read.1, read.2.append lead))
      (otherRead.map fun read => (read.1, read.2.append otherLead)) := by
  cases h with
  | none => exact .none
  | some alike =>
    refine .some ⟨alike.1, ?_, alike.2.2⟩
    rw [Cut.taken_append, Cut.taken_append, List.append_eq_nil_iff, List.append_eq_nil_iff, leads,
      alike.2.1]

theorem readAlike_assignment (h : Alike parts others) :
    AttributeAlike rest other (assignment? (tail parts rest))
      (assignment? (tail others other)) := by
  obtain ⟨blanks, more, otherMore, alike, left, otherLeft⟩ :=
    cutAlike_blanks rest other h
  simp only [assignment?, left, otherLeft]
  rcases readAlike_equals rest other alike with
    ⟨absent, otherAbsent⟩ | ⟨behind, otherBehind, alike, equals, otherEquals⟩
  · simp only [absent, otherAbsent]
    exact .some ⟨rfl, Iff.rfl, _, _, h, rfl, rfl⟩
  · simp only [equals, otherEquals]
    obtain ⟨-, value, otherValue, alike, left, otherLeft⟩ :=
      cutAlike_blanks rest other alike
    rw [left, otherLeft]
    exact (readAlike_attributeValue rest other alike).ending .value (by simp)

/-- **Attributes are read alike.** -/
theorem readAlike_attribute [Matching] (before : TagPart) (h : Alike parts others) :
    AttributeAlike rest other (attribute? before (tail parts rest))
      (attribute? before (tail others other)) := by
  obtain ⟨blanks, more, otherMore, alike, left, otherLeft⟩ :=
    cutAlike_blanks rest other h
  obtain ⟨name, behind, otherBehind, alike, nameLeft, otherNameLeft⟩ :=
    cutAlike_name rest other alike
  rw [← left] at name nameLeft
  rw [← otherLeft] at name otherNameLeft
  simp only [attribute?, nameLeft, otherNameLeft]
  split
  · rename_i empty
    rw [if_pos (empty.imp blanks.mp (Or.imp name.mp id))]
    exact .none
  · rename_i nonempty
    rw [if_neg fun empty => nonempty (empty.imp blanks.mpr (Or.imp name.mpr id))]
    refine (readAlike_assignment rest other alike).append ?_
    rw [List.append_eq_nil_iff, List.append_eq_nil_iff, blanks, name]

/-- Words have no character that ends a tag. -/
theorem IsWordText.ne {text cs : List Char} (h : IsWordText text) {c : Char}
    (fence : Markup.isFence c = true) {rest : List Char} : text ++ cs ≠ c :: rest := by
  obtain ⟨d, text, rfl⟩ := List.exists_cons_of_ne_nil h.1
  intro same
  obtain rfl := (List.cons.inj same).1
  have name := List.all_eq_true.mp h.2 d List.mem_cons_self
  simp [Markup.isFence, name] at fence

/-- The bracket comes last. -/
theorem eq_nil_of_tail {rest : List Char} (h : Fitting parts) {cs : List Char}
    (ends : tail parts rest = '>' :: cs) : parts = [] ∧ cs = rest := by
  cases h with
  | nil => exact ⟨rfl, (List.cons.inj ends).2.symm⟩
  | mark char _ =>
    obtain rfl := (List.cons.inj ends).1
    rcases char with blank | same | same
    · cases blank
    · cases same
    · cases same
  | word text _ _ =>
    rw [tail_word] at ends
    exact absurd ends (text.ne rfl)
  | quoted isQuote _ _ =>
    obtain rfl := (List.cons.inj ends).1
    rcases isQuote with same | same <;> cases same

/-- A slash is a mark. -/
theorem exists_mark_of_tail {rest : List Char} (h : Fitting parts) {cs : List Char}
    (slash : tail parts rest = '/' :: cs) :
    ∃ behind, parts = .mark '/' :: behind ∧ Fitting behind ∧ tail behind rest = cs := by
  cases h with
  | nil => cases slash
  | mark char behind =>
    obtain ⟨rfl, same⟩ := List.cons.inj slash
    exact ⟨_, rfl, behind, same⟩
  | word text _ _ =>
    rw [tail_word] at slash
    exact absurd slash (text.ne rfl)
  | quoted isQuote _ _ =>
    obtain rfl := (List.cons.inj slash).1
    rcases isQuote with same | same <;> cases same

/-- The closing bracket is that of the parts. -/
theorem tagCloser?_alike (h : Alike parts others) {cut : Cut}
    (ends : tagCloser? (tail parts rest) = some cut) :
    ∃ otherCut, tagCloser? (tail others other) = some otherCut ∧ otherCut.rest = other := by
  unfold tagCloser? at ends
  split at ends
  · rename_i slash
    obtain ⟨behind, rfl, fitting, bracket⟩ := exists_mark_of_tail h.fitting.1 slash
    obtain ⟨rfl, -⟩ := eq_nil_of_tail fitting bracket
    cases h with
    | mark _ none =>
      cases none
      exact ⟨_, rfl, rfl⟩
  · rename_i bracket
    obtain ⟨rfl, -⟩ := eq_nil_of_tail h.fitting.1 bracket
    cases h
    exact ⟨_, rfl, rfl⟩
  · cases ends

section OpenTag

variable [Matching] {before : TagPart}

/-- The end of a tag is that of its parts. -/
theorem openTagEnd?_alike (h : Alike parts others) {cut : Cut}
    (ends : openTagEnd? before (tail parts rest) = some cut) :
    ∃ otherCut, openTagEnd? before (tail others other) = some otherCut ∧
      otherCut.rest = other := by
  obtain ⟨blanks, more, otherMore, alike, left, otherLeft⟩ :=
    cutAlike_blanks rest other h
  simp only [openTagEnd?, left, otherLeft] at ends ⊢
  split at ends
  · rename_i leads
    obtain ⟨closer, closes, rfl⟩ := Option.map_eq_some_iff.mp ends
    obtain ⟨otherCloser, otherCloses, behind⟩ := tagCloser?_alike rest other alike closes
    rw [if_pos (leads.imp blanks.mp id), otherCloses]
    exact ⟨_, rfl, behind⟩
  · cases ends

theorem openTagTail_of_attribute? {cs : List Char} {part : TagPart} {cut : Cut}
    (h : attribute? before cs = some (part, cut)) :
    openTagTail before cs = (openTagTail part cut.rest).map (Cut.append cut.taken) := by
  rw [openTagTail]
  split
  · rename_i otherPart other same
    obtain ⟨rfl, rfl⟩ := Prod.mk.inj (Option.some.inj (h.symm.trans same))
    rfl
  · rename_i none
    cases h.symm.trans none

theorem openTagTail_of_attribute?_eq_none {cs : List Char} (h : attribute? before cs = none) :
    openTagTail before cs = openTagEnd? before cs := by
  rw [openTagTail]
  split
  · rename_i same
    cases h.symm.trans same
  · rfl

/-- **What is behind the name of a tag is read alike.** -/
theorem openTagTail_alike (h : Alike parts others) {cut : Cut}
    (opens : openTagTail before (tail parts rest) = some cut) :
    ∃ otherCut, openTagTail before (tail others other) = some otherCut ∧
      otherCut.rest = other := by
  generalize spelled : tail parts rest = cs at opens
  fun_induction openTagTail before cs generalizing parts others cut with
  | case1 before cs part front read ih =>
    subst spelled
    obtain ⟨inner, innerOpens, rfl⟩ := Option.map_eq_some_iff.mp opens
    have alike := readAlike_attribute rest other before h
    rw [read] at alike
    generalize otherRead : attribute? before (tail others other) = otherFront at alike
    cases alike with
    | @some _ otherFront alike =>
      obtain ⟨otherPart, otherCut⟩ := otherFront
      obtain ⟨rfl, -, more, otherMore, alike, left, otherLeft⟩ := alike
      obtain ⟨otherInner, otherOpens, ends⟩ := ih alike left.symm innerOpens
      refine ⟨otherInner.append otherCut.taken, ?_, ends⟩
      rw [openTagTail_of_attribute? otherRead, otherLeft, otherOpens]
      rfl
  | case2 before cs read =>
    subst spelled
    have alike := readAlike_attribute rest other before h
    rw [read] at alike
    generalize otherRead : attribute? before (tail others other) = otherFront at alike
    cases alike with
    | none =>
      rw [openTagTail_of_attribute?_eq_none otherRead]
      exact openTagEnd?_alike rest other h opens

end OpenTag

end Alike

/-- **A tag whose words and quoted texts are replaced is an opening tag**, whatever follows it. -/
theorem openTag?_alike [Matching] {name rest : List Char} {parts others : List Part} {cut : Cut}
    (named : tagName? name = some ⟨name, []⟩) (h : Alike parts others) (first : MarkFirst parts)
    (opens : openTag? ('<' :: (name ++ tail parts rest)) = some cut) (other : List Char) :
    openTag? ('<' :: (name ++ tail others other)) =
      some ⟨'<' :: (name ++ tail others []), other⟩ := by
  have border := first.head?_tail h.fitting.1 rest
  have otherBorder := (h.markFirst first).head?_tail h.fitting.2 other
  obtain ⟨front, opens⟩ : ∃ front, openTagTail .name (tail parts rest) = some front := by
    simp only [openTag?, after?, if_true, Option.bind_eq_bind, Option.bind_some,
      tagName?_append named border] at opens
    obtain ⟨front, opens, -⟩ := Option.map_eq_some_iff.mp opens
    exact ⟨front, opens⟩
  obtain ⟨otherFront, otherOpens, ends⟩ := openTagTail_alike rest other h opens
  have whole : openTag? ('<' :: (name ++ tail others other)) =
      some (otherFront.append ('<' :: name)) := by
    simp only [openTag?, after?, if_true, Option.bind_eq_bind, Option.bind_some,
      tagName?_append named otherBorder, otherOpens, Option.map_some]
  have taken : otherFront.taken = tail others [] := by
    have same : _ ++ _ = _ := of_openTagTail otherOpens
    rw [ends, tail_eq_append others other] at same
    exact List.append_cancel_right same
  rw [whole, Cut.append, taken, ends]
  rfl

end TemplateCompiler.Markup
