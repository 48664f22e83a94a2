import TemplateCompiler.Proofs.Accessor.RoundTrip
import TemplateCompiler.Proofs.Markup.ClauseRewriting

/-!
# The shape of an accessor

Which sources have an expression, and which one it is, said without reading them: a source is a
heading, a text and a brace, and the text is an expression with something around it. Everything that
a heading may vary in, and above all the parameters, has no part in the expression.

## Main definitions

* `Accessor.Heading` — what a function has in front of the text between its braces
* `Accessor.Wrapping` — what stands around an expression between the braces
* `Accessor.IsTerminator` — what may stand behind an expression

## Main statements

* `Accessor.afterHeading?_eq_some_iff`, `Accessor.functionInner?_eq_some_iff` — headings are read
* `Accessor.exists_terminator`, `Accessor.dropTerminator_isPrefix` — no more can be taken from the
  end of a text
* `Accessor.expression?_eq_some_iff` — what is recovered from a source
-/
namespace TemplateCompiler.Accessor

open Text

/-! ## Headings -/

/-- What a function has in front of the text between its braces. -/
structure Heading where
  gap : List Char
  name : List Char
  nameGap : List Char
  parameters : List Char
  braceGap : List Char
  gap_blank : gap.all isBlank = true
  name_chars : name.all isFunctionNameChar = true
  nameGap_blank : nameGap.all isBlank = true
  /-- The parameters end at the first closing parenthesis. -/
  parameters_open : parameters.all (· != ')') = true
  braceGap_blank : braceGap.all isBlank = true

/-- The heading as text. -/
def Heading.text (h : Heading) : List Char :=
  "function".toList ++ (h.gap ++ (h.name ++ (h.nameGap ++ ('(' :: (h.parameters ++
    (')' :: (h.braceGap ++ ['{'])))))))

theorem Heading.text_append (h : Heading) (rest : List Char) :
    h.text ++ rest = "function".toList ++ (h.gap ++ (h.name ++ (h.nameGap ++ ('(' ::
      (h.parameters ++ (')' :: (h.braceGap ++ '{' :: rest))))))) := by
  change ("function".toList ++ (h.gap ++ (h.name ++ (h.nameGap ++ ('(' :: (h.parameters ++
    (')' :: (h.braceGap ++ ['{'])))))))) ++ rest = _
  generalize "function".toList = keyword
  simp

/-- A heading does not begin with a blank. -/
theorem Heading.trimStart_append (h : Heading) (rest : List Char) :
    trimStart (h.text ++ rest) = h.text ++ rest := rfl

/-- What follows the heading of a function. -/
def afterHeading? (cs : List Char) : Option (List Char) := do
  let rest ← after? "function".toList (trimStart cs)
  let rest ← after? ['('] (trimStart ((trimStart rest).dropWhile isFunctionNameChar))
  let rest ← after? [')'] (rest.dropWhile (· != ')'))
  after? ['{'] (trimStart rest)

/-- The text in front of the brace that ends a function. -/
def untilBrace? (rest : List Char) : Option (List Char) := before? ['}'] (trimEnd rest)

theorem functionInner?_eq (cs : List Char) :
    functionInner? cs = (afterHeading? cs).bind untilBrace? := by
  simp only [functionInner?, afterHeading?, Option.bind_eq_bind, Option.bind_assoc]
  rfl

/-- No character of a name is blank. -/
theorem isBlank_of_isFunctionNameChar {c : Char} (h : isFunctionNameChar c = true) :
    isBlank c = false :=
  Markup.isBlank_of_isGlue h

/-- A name and the blanks around it are read to the parenthesis. -/
theorem trimStart_dropWhile_name (h : Heading) (rest : List Char) :
    trimStart ((trimStart (h.gap ++ (h.name ++ (h.nameGap ++ '(' :: rest)))).dropWhile
      isFunctionNameChar) = '(' :: rest := by
  have paren : trimStart (h.nameGap ++ '(' :: rest) = '(' :: rest := by
    rw [trimStart_blanks h.nameGap_blank, trimStart_cons rfl]
  rw [trimStart_blanks h.gap_blank]
  have names := h.name_chars
  cases name : h.name with
  | nil =>
    rw [List.nil_append, paren, List.dropWhile_cons_of_neg (by decide), trimStart_cons rfl]
  | cons c more =>
    rw [name] at names
    have noBlank : isBlank c = false := isBlank_of_isFunctionNameChar (by simp_all)
    have border : (h.nameGap ++ '(' :: rest).head?.any isFunctionNameChar = false := by
      have blank := h.nameGap_blank
      cases gap : h.nameGap with
      | nil => rfl
      | cons d gap =>
        by_contra inName
        have := isBlank_of_isFunctionNameChar (c := d) (by simpa using inName)
        simp_all
    rw [List.cons_append, trimStart_cons noBlank, ← List.cons_append, dropWhile_run names border,
      paren]

/-- **Headings are read**, and nothing else is. -/
theorem afterHeading?_eq_some_iff {cs rest : List Char} :
    afterHeading? cs = some rest ↔
      ∃ (lead : List Char) (h : Heading), lead.all isBlank = true ∧
        cs = lead ++ (h.text ++ rest) := by
  constructor
  · intro found
    simp only [afterHeading?, Option.bind_eq_bind, Option.bind_eq_some_iff,
      after?_eq_some_iff] at found
    obtain ⟨named, hnamed, listed, hlisted, behind, hbehind, hrest⟩ := found
    obtain ⟨lead, leadBlank, cs_eq⟩ := exists_blanks_trimStart cs
    obtain ⟨gap, gapBlank, named_eq⟩ := exists_blanks_trimStart named
    obtain ⟨nameGap, nameGapBlank, unnamed_eq⟩ :=
      exists_blanks_trimStart ((trimStart named).dropWhile isFunctionNameChar)
    obtain ⟨braceGap, braceGapBlank, behind_eq⟩ := exists_blanks_trimStart behind
    refine ⟨lead, ⟨gap, (trimStart named).takeWhile isFunctionNameChar, nameGap,
      listed.takeWhile (· != ')'), braceGap, gapBlank, List.all_takeWhile, nameGapBlank,
      List.all_takeWhile, braceGapBlank⟩, leadBlank, ?_⟩
    have listed_eq : listed = listed.takeWhile (· != ')') ++ (')' :: (braceGap ++ '{' :: rest)) := by
      change listed = _ ++ ([')'] ++ (braceGap ++ (['{'] ++ rest)))
      rw [← hrest, ← behind_eq, ← hbehind, List.takeWhile_append_dropWhile]
    have named_eq' : named = gap ++ ((trimStart named).takeWhile isFunctionNameChar ++
        (nameGap ++ '(' :: listed)) := by
      change named = _ ++ (_ ++ (_ ++ (['('] ++ listed)))
      rw [← hlisted, ← unnamed_eq, List.takeWhile_append_dropWhile, ← named_eq]
    rw [Heading.text_append]
    dsimp only
    rw [← listed_eq, ← named_eq', ← hnamed, ← cs_eq]
  · rintro ⟨lead, h, leadBlank, rfl⟩
    have keyword (rest : List Char) :
        after? "function".toList (trimStart ("function".toList ++ rest)) = some rest :=
      after?_eq_some_iff.mpr rfl
    have mark (c : Char) (rest : List Char) : after? [c] (c :: rest) = some rest :=
      after?_eq_some_iff.mpr rfl
    have closing (rest : List Char) : (h.parameters ++ ')' :: rest).dropWhile (· != ')') =
        ')' :: rest :=
      dropWhile_run h.parameters_open (by simp)
    rw [Heading.text_append, afterHeading?, trimStart_blanks leadBlank, keyword]
    simp only [Option.bind_eq_bind, Option.bind_some]
    rw [trimStart_dropWhile_name, mark, Option.bind_some, closing, mark, Option.bind_some,
      trimStart_blanks h.braceGap_blank, trimStart_cons rfl, mark]

/-! ## Between the braces -/

theorem untilBrace?_eq_some_iff {rest inner : List Char} :
    untilBrace? rest = some inner ↔
      ∃ tail, tail.all isBlank = true ∧ rest = inner ++ '}' :: tail := by
  rw [untilBrace?, before?_eq_some_iff]
  constructor
  · intro ends
    obtain ⟨tail, blank, split⟩ := exists_blanks_trimEnd rest
    exact ⟨tail, blank, by rw [split, ends, List.append_assoc, List.singleton_append]⟩
  · rintro ⟨tail, blank, rfl⟩
    rw [← List.singleton_append, ← List.append_assoc, trimEnd_blanks _ blank, trimEnd_concat]
    rfl

/-- A text without a brace stands in front of the brace. -/
theorem untilBrace?_append {run : List Char} (noBrace : '}' ∉ run) (rest : List Char) :
    untilBrace? (run ++ rest) = (untilBrace? rest).map (run ++ ·) := by
  ext inner
  simp only [Option.map_eq_some_iff, untilBrace?_eq_some_iff]
  constructor
  · rintro ⟨tail, blank, split⟩
    rcases List.append_eq_append_iff.mp split with ⟨more, rfl, behind⟩ | ⟨more, rfl, behind⟩
    · exact ⟨more, ⟨tail, blank, behind⟩, rfl⟩
    · cases more with
      | nil => exact ⟨[], ⟨tail, blank, behind.symm⟩, by simp⟩
      | cons c more =>
        obtain ⟨rfl, -⟩ := List.cons.inj behind
        simp at noBrace
  · rintro ⟨inner, ⟨tail, blank, rfl⟩, rfl⟩
    exact ⟨tail, blank, by rw [List.append_assoc]⟩

/-- **The shape of a function**: a heading, a text and the brace that ends it. -/
theorem functionInner?_eq_some_iff {cs inner : List Char} :
    functionInner? cs = some inner ↔ ∃ h : Heading, trim cs = h.text ++ (inner ++ ['}']) := by
  simp only [functionInner?_eq, Option.bind_eq_some_iff, afterHeading?_eq_some_iff,
    untilBrace?_eq_some_iff]
  constructor
  · rintro ⟨_, ⟨lead, h, leadBlank, rfl⟩, tail, blank, rfl⟩
    refine ⟨h, ?_⟩
    rw [trim, trimStart_blanks leadBlank, h.trimStart_append, ← List.singleton_append,
      ← List.append_assoc inner, ← List.append_assoc, trimEnd_blanks _ blank,
      ← List.append_assoc, trimEnd_concat]
    rfl
  · rintro ⟨h, shape⟩
    obtain ⟨lead, leadBlank, front⟩ := exists_blanks_trimStart cs
    obtain ⟨tail, tailBlank, back⟩ := exists_blanks_trimEnd (trimStart cs)
    refine ⟨_, ⟨lead, h, leadBlank, ?_⟩, tail, tailBlank, rfl⟩
    rw [front, back, ← trim, shape]
    simp

/-! ## The end of the text -/

/-- What may stand behind an expression. -/
def IsTerminator (text : List Char) : Prop := text = [] ∨ text = [';']

/-- What is dropped at the end of a text: blanks, perhaps a semicolon and blanks. -/
theorem exists_terminator (text : List Char) :
    ∃ gap terminator tail, gap.all isBlank = true ∧ IsTerminator terminator ∧
      tail.all isBlank = true ∧ text = dropTerminator text ++ (gap ++ (terminator ++ tail)) ∧
        (terminator = [] → (dropTerminator text).getLast? ≠ some ';') := by
  obtain ⟨tail, tailBlank, split⟩ := exists_blanks_trimEnd text
  rw [dropTerminator]
  cases ends : before? [';'] (trimEnd text) with
  | some front =>
    obtain ⟨gap, gapBlank, front_eq⟩ := exists_blanks_trimEnd front
    refine ⟨gap, [';'], tail, gapBlank, .inr rfl, tailBlank, ?_, by simp⟩
    rw [Option.getD_some]
    conv_lhs => rw [split, before?_eq_some_iff.mp ends, front_eq]
    simp
  | none =>
    refine ⟨[], [], tail, rfl, .inl rfl, tailBlank, ?_, fun _ last => ?_⟩
    · simpa [trimEnd_trimEnd] using split
    · rw [Option.getD_none, trimEnd_trimEnd] at last
      obtain ⟨front, concat⟩ := List.getLast?_eq_some_iff.mp last
      rw [before?_eq_some_iff.mpr concat] at ends
      cases ends

/-- Nothing but this is dropped: of a text with such an end a part of what is in front is left. -/
theorem dropTerminator_isPrefix (front : List Char) {gap terminator tail : List Char}
    (gapBlank : gap.all isBlank = true) (isTerminator : IsTerminator terminator)
    (tailBlank : tail.all isBlank = true) :
    dropTerminator (front ++ (gap ++ (terminator ++ tail))) <+: front := by
  rcases isTerminator with rfl | rfl
  · have ends : trimEnd (front ++ (gap ++ ([] ++ tail))) = trimEnd front :=
      trimEnd_blanks _ (by simp_all)
    rw [dropTerminator, ends]
    refine (trimEnd_isPrefix _).trans ?_
    cases semicolon : before? [';'] (trimEnd front) with
    | none => exact trimEnd_isPrefix front
    | some more =>
      exact ((List.prefix_append more [';']).trans
        (before?_eq_some_iff.mp semicolon ▸ List.prefix_rfl)).trans (trimEnd_isPrefix front)
  · have ends : trimEnd (front ++ (gap ++ ([';'] ++ tail))) = (front ++ gap) ++ [';'] := by
      rw [← List.append_assoc, ← List.append_assoc, trimEnd_blanks _ tailBlank, trimEnd_concat]
      rfl
    rw [dropTerminator, ends, before?_eq_some_iff.mpr rfl, Option.getD_some,
      trimEnd_blanks _ gapBlank]
    exact trimEnd_isPrefix front

/-! ## The expression -/

/-- A text without a `return` at its front stays as it is. -/
theorem dropReturn_eq_self {text : List Char} (h : ¬ BeginsWithReturn text) :
    dropReturn text = text := by
  rw [dropReturn]
  split
  case h_1 c rest after =>
    refine if_neg fun blank => h ⟨c, rest, after?_eq_some_iff.mp after, blank⟩
  case h_2 => rfl

/-- Of a text with a `return` at its front what follows it is left, without the blanks. -/
theorem dropReturn_return {blanks rest : List Char} (blank : blanks.all isBlank = true)
    (nonempty : blanks ≠ []) :
    dropReturn ("return".toList ++ (blanks ++ rest)) = trimStart rest := by
  obtain ⟨c, blanks, rfl⟩ := List.exists_cons_of_ne_nil nonempty
  have after : after? "return".toList ("return".toList ++ (c :: blanks ++ rest)) =
      some (c :: (blanks ++ rest)) := after?_eq_some_iff.mpr rfl
  have first : isBlank c = true := by simp_all
  rw [dropReturn, after]
  simp only [first, if_true]
  exact trimStart_blanks blank rest

/-- What stands around an expression between the braces of a function. -/
structure Wrapping where
  lead : List Char
  keyword : List Char
  gap : List Char
  terminator : List Char
  tail : List Char

/-- The text behind an expression. -/
def Wrapping.behind (w : Wrapping) : List Char := w.gap ++ (w.terminator ++ w.tail)

/-- The expression with what stands around it. -/
def Wrapping.text (w : Wrapping) (body : List Char) : List Char :=
  w.lead ++ (w.keyword ++ (body ++ w.behind))

/-- Everything around the expression belongs there, and nothing more can be taken away: all blanks
are taken, one `return` if there is one, and one semicolon if there is one. -/
structure Wrapping.Fits (w : Wrapping) (body : List Char) : Prop where
  trimmed : Trimmed body
  lead_blank : w.lead.all isBlank = true
  gap_blank : w.gap.all isBlank = true
  tail_blank : w.tail.all isBlank = true
  keyword : (w.keyword = [] ∧ ¬ BeginsWithReturn (body ++ w.behind)) ∨
    ∃ blanks, w.keyword = "return".toList ++ blanks ∧ blanks ≠ [] ∧ blanks.all isBlank = true
  terminator : (w.terminator = [] ∧ body.getLast? ≠ some ';') ∨ w.terminator = [';']

namespace Wrapping.Fits

variable {w : Wrapping} {body : List Char}

/-- Everything behind an expression is dropped. -/
theorem dropTerminator_eq (h : w.Fits body) : dropTerminator (body ++ w.behind) = body := by
  rcases h.terminator with ⟨none, last⟩ | semicolon
  · have ends : trimEnd (body ++ w.behind) = body := by
      rw [behind, none, List.nil_append, trimEnd_blanks, h.trimmed.trimEnd_eq]
      rw [List.all_append, h.gap_blank, h.tail_blank]
      rfl
    have open_ : before? [';'] body = Option.none := by
      by_contra some
      obtain ⟨front, same⟩ := Option.ne_none_iff_exists'.mp some
      exact last (by rw [before?_eq_some_iff.mp same, List.getLast?_concat])
    rw [dropTerminator, ends, open_, Option.getD_none, h.trimmed.trimEnd_eq]
  · have ends : trimEnd (body ++ w.behind) = (body ++ w.gap) ++ [';'] := by
      rw [behind, semicolon, ← List.append_assoc, ← List.append_assoc,
        trimEnd_blanks _ h.tail_blank, trimEnd_concat]
      rfl
    rw [dropTerminator, ends, before?_eq_some_iff.mpr rfl, Option.getD_some,
      trimEnd_blanks _ h.gap_blank, h.trimmed.trimEnd_eq]

/-- Everything in front of an expression is dropped. -/
theorem dropReturn_eq (h : w.Fits body) :
    dropReturn (trimStart (w.text body)) = body ++ w.behind := by
  rw [text, trimStart_blanks h.lead_blank]
  rcases h.keyword with ⟨none, noReturn⟩ | ⟨blanks, keyword, nonempty, blank⟩
  · rw [none, List.nil_append, h.trimmed.trimStart_append, dropReturn_eq_self noReturn]
  · have solid (rest : List Char) : trimStart ("return".toList ++ rest) = "return".toList ++ rest :=
      rfl
    rw [keyword, List.append_assoc, solid, dropReturn_return blank nonempty,
      h.trimmed.trimStart_append]

end Wrapping.Fits

/-- What is dropped in front of an expression is blank, but for a `return`. -/
theorem exists_keyword (inner : List Char) :
    ∃ lead keyword, lead.all isBlank = true ∧
      inner = lead ++ (keyword ++ dropReturn (trimStart inner)) ∧
        ((keyword = [] ∧ ¬ BeginsWithReturn (dropReturn (trimStart inner))) ∨
          ∃ blanks, keyword = "return".toList ++ blanks ∧ blanks ≠ [] ∧
            blanks.all isBlank = true) ∧
          ∃ text, dropReturn (trimStart inner) = trimStart text := by
  obtain ⟨lead, leadBlank, split⟩ := exists_blanks_trimStart inner
  by_cases begins : BeginsWithReturn (trimStart inner)
  · obtain ⟨c, rest, returns, blank⟩ := begins
    obtain ⟨blanks, allBlank, rest_eq⟩ := exists_blanks_trimStart rest
    have all : (c :: blanks).all isBlank = true := by
      rw [List.all_cons, blank, allBlank]
      rfl
    have drops : dropReturn (trimStart inner) = trimStart (trimStart rest) := by
      rw [returns]
      conv_lhs => rw [rest_eq, ← List.cons_append]
      exact dropReturn_return all (List.cons_ne_nil c blanks)
    have idle : trimStart (trimStart rest) = trimStart rest :=
      List.dropWhile_idempotent _ _
    refine ⟨lead, "return".toList ++ c :: blanks, leadBlank, ?_,
      .inr ⟨_, rfl, List.cons_ne_nil c blanks, all⟩, _, drops⟩
    rw [drops, idle, List.append_assoc, List.cons_append, ← rest_eq, ← returns, ← split]
  · rw [dropReturn_eq_self begins]
    exact ⟨lead, [], leadBlank, split, .inl ⟨rfl, begins⟩, inner, rfl⟩

/-- What is recovered from a text has something around it that is dropped. -/
theorem exists_wrapping {inner : List Char}
    (nonempty : dropTerminator (dropReturn (trimStart inner)) ≠ []) :
    ∃ w : Wrapping, w.Fits (dropTerminator (dropReturn (trimStart inner))) ∧
      inner = w.text (dropTerminator (dropReturn (trimStart inner))) := by
  obtain ⟨lead, keyword, leadBlank, inner_eq, isKeyword, text, trimmed⟩ := exists_keyword inner
  obtain ⟨gap, terminator, tail, gapBlank, isTerminator, tailBlank, split, last⟩ :=
    exists_terminator (dropReturn (trimStart inner))
  have part : dropTerminator (dropReturn (trimStart inner)) <+: dropReturn (trimStart inner) :=
    ⟨_, split.symm⟩
  have first : ∃ c rest, dropReturn (trimStart inner) = c :: rest ∧ isBlank c = false := by
    rw [trimmed] at part nonempty ⊢
    exact exists_first_trimStart fun empty => nonempty (List.prefix_nil.mp (empty ▸ part))
  have begins := first_of_prefix part nonempty first
  refine ⟨⟨lead, keyword, gap, terminator, tail⟩,
    ⟨⟨begins, exists_last_trimEnd nonempty⟩, leadBlank, gapBlank, tailBlank, ?_, ?_⟩, ?_⟩
  · rwa [Wrapping.behind, ← split]
  · exact isTerminator.imp_left fun none => ⟨none, last none⟩
  · rwa [Wrapping.text, Wrapping.behind, ← split]

/-- **What is recovered from a source**: the expression in the text between the braces of a
function, whatever the heading of the function is. -/
theorem expression?_eq_some_iff {source e : String} :
    expression? source = some e ↔ ∃ (h : Heading) (w : Wrapping), w.Fits e.toList ∧
      trim source.toList = h.text ++ (w.text e.toList ++ ['}']) := by
  simp only [expression?, Option.bind_eq_bind, Option.bind_eq_some_iff, functionInner?_eq_some_iff]
  constructor
  · rintro ⟨inner, ⟨h, shape⟩, found⟩
    split at found
    · cases found
    · next nonempty =>
      obtain rfl := Option.some.inj found
      obtain ⟨w, fits, inner_eq⟩ := exists_wrapping nonempty
      rw [String.toList_ofList]
      exact ⟨h, w, fits, by rw [← inner_eq, shape]⟩
  · rintro ⟨h, w, fits, shape⟩
    refine ⟨w.text e.toList, ⟨h, shape⟩, ?_⟩
    rw [fits.dropReturn_eq, fits.dropTerminator_eq, if_neg fits.trimmed.ne_nil,
      String.ofList_toList]

end TemplateCompiler.Accessor
