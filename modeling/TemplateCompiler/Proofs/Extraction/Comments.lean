import TemplateCompiler.Proofs.Extraction.Seams
import TemplateCompiler.Proofs.Markup.Renewal

/-!
# Comments

A comment is meant to reach up to the first `-->` behind its opening, and nothing in it is read. The
reader takes a hyphen together with the character behind it, and gives up at two hyphens that no
bracket follows. So what stands between `<!--` and the first `-->` makes a comment only if no two
hyphens in a row come before the end. Otherwise the opening bracket is a stray character, and the
text behind it is read as markup.

## Main definitions

* `Markup.IsCommentText` — no two hyphens in a row come before the end of the text
* `Extraction.Hidden` — nothing of a token is read

## Main statements

* `Markup.commentTail_of_isCommentText`, `Markup.exists_inner_of_commentTail` — which comments are
  closed
* `Markup.exists_cut_of_mem_positioned` — a token is the one at the front of what it begins
* `Extraction.comment_reaches_first_end` — when the text up to the first `-->` is a comment
-/
namespace TemplateCompiler.Markup

open Text

/-! ## The inside of a comment -/

/-- A text that may stand in a comment: no two hyphens in a row are in it, and it ends with none. -/
def IsCommentText (inner : List Char) : Prop := ¬ ['-', '-'] <:+: inner ++ ['-']

instance (inner : List Char) : Decidable (IsCommentText inner) :=
  inferInstanceAs (Decidable (¬ _))

/-- The first end behind such a text is the one right behind it. -/
theorem IsCommentText.length_le {inner : List Char} (text : IsCommentText inner)
    {front behind rest : List Char}
    (same : inner ++ ('-' :: '-' :: '>' :: behind) = front ++ ('-' :: '-' :: '>' :: rest)) :
    inner.length ≤ front.length := by
  by_contra shorter
  have early : front ++ ['-', '-'] <+: inner ++ ('-' :: '-' :: '>' :: behind) :=
    ⟨'>' :: rest, by simp [same]⟩
  have late : inner ++ ['-'] <+: inner ++ ('-' :: '-' :: '>' :: behind) :=
    ⟨'-' :: '>' :: behind, by simp⟩
  have inside : front ++ ['-', '-'] <+: inner ++ ['-'] := by
    refine List.prefix_of_prefix_length_le early late ?_
    rw [List.length_append, List.length_append, List.length_cons, List.length_singleton]
    omega
  exact text ((List.suffix_append front _).isInfix.trans inside.isInfix)

section

variable {c : Char} (other : c ≠ '-') (inner : List Char)
include other

theorem isCommentText_cons : IsCommentText (c :: inner) ↔ IsCommentText inner := by
  simp [IsCommentText, List.infix_cons_iff, other.symm]

theorem isCommentText_hyphen : IsCommentText ('-' :: c :: inner) ↔ IsCommentText inner := by
  simp [IsCommentText, List.infix_cons_iff, other.symm]

theorem commentTail_cons : commentTail (c :: inner) = (commentTail inner).map (Cut.cons c) := by
  simp [commentTail, other]

theorem commentTail_hyphen :
    commentTail ('-' :: c :: inner) =
      (commentTail inner).map fun cut => (cut.cons c).cons '-' := by
  simp [commentTail, other]

end

/-- A comment that is closed has such a text. -/
theorem exists_inner_of_commentTail {cs : List Char} {cut : Cut} (h : commentTail cs = some cut) :
    ∃ inner, cut.taken = inner ++ ['-', '-', '>'] ∧ IsCommentText inner := by
  fun_induction commentTail cs generalizing cut with
  | case1 => cases h
  | case2 rest =>
    obtain rfl := Option.some.inj h
    exact ⟨[], rfl, by simp [IsCommentText, List.infix_cons_iff]⟩
  | case3 => cases h
  | case4 c rest _ other ih =>
    obtain ⟨tail, closed, rfl⟩ := Option.map_eq_some_iff.mp h
    obtain ⟨inner, taken, text⟩ := ih closed
    exact ⟨'-' :: c :: inner, by simp [taken], (isCommentText_hyphen other inner).mpr text⟩
  | case5 c rest _ _ other ih =>
    obtain ⟨tail, closed, rfl⟩ := Option.map_eq_some_iff.mp h
    obtain ⟨inner, taken, text⟩ := ih closed
    have notHyphen : c ≠ '-' := by
      rintro rfl
      cases rest with
      | nil => cases closed
      | cons d rest => exact other d rest rfl rfl
    exact ⟨c :: inner, by simp [taken], (isCommentText_cons notHyphen inner).mpr text⟩

/-- A comment with such a text is closed right behind it. -/
theorem commentTail_of_isCommentText {inner : List Char} (text : IsCommentText inner)
    (behind : List Char) :
    commentTail (inner ++ ('-' :: '-' :: '>' :: behind)) =
      some ⟨inner ++ ['-', '-', '>'], behind⟩ := by
  fun_induction commentTail inner with
  | case1 => rfl
  | case2 rest => exact absurd (List.prefix_append ['-', '-'] ('>' :: rest ++ ['-'])).isInfix text
  | case3 rest => exact absurd (List.prefix_append ['-', '-'] (rest ++ ['-'])).isInfix text
  | case4 c rest _ other ih =>
    rw [List.cons_append, List.cons_append, commentTail_hyphen other,
      ih ((isCommentText_hyphen other rest).mp text)]
    rfl
  | case5 c rest _ _ other ih =>
    have notHyphen : c ≠ '-' := by
      rintro rfl
      cases rest with
      | nil => exact text (List.infix_refl _)
      | cons d rest => exact other d rest rfl rfl
    rw [List.cons_append, commentTail_cons notHyphen,
      ih ((isCommentText_cons notHyphen rest).mp text)]
    rfl

section Tokens

variable [Matching]

/-- What `<!--` begins: a comment if it is closed, and otherwise the bracket is stray. -/
theorem cutToken_comment (rest : List Char) :
    cutToken '<' ('!' :: '-' :: '-' :: rest) =
      match commentTail rest with
      | some cut => (.comment, cut.append ['<', '!', '-', '-'])
      | none => (.stray, ⟨['<'], '!' :: '-' :: '-' :: rest⟩) := by
  have begins : comment? ('<' :: '!' :: '-' :: '-' :: rest) =
      (commentTail rest).map (Cut.append ['<', '!', '-', '-']) := rfl
  have noClose : closeTag? ('<' :: '!' :: '-' :: '-' :: rest) = none := rfl
  have noOpen : openTag? ('<' :: '!' :: '-' :: '-' :: rest) = none := rfl
  rw [cutToken_bracket]
  simp only [begins, noClose, noOpen]
  cases commentTail rest <;> rfl

/-! ## Tokens at their places -/

/-- A token is the one that is cut from the text where it begins. -/
theorem exists_cut_of_mem_positioned {position : Nat} {cs : List Char} {located : Token × Span}
    (mem : located ∈ positioned position (tokens cs)) :
    ∃ before c rest, cs = before ++ c :: rest ∧
      located.2.start = position + byteLength before ∧
        located.1 = ⟨(cutToken c rest).1, (cutToken c rest).2.taken⟩ := by
  fun_induction tokens cs generalizing position with
  | case1 => cases mem
  | case2 c rest ih =>
    rcases List.mem_cons.mp mem with rfl | later
    · exact ⟨[], c, rest, rfl, rfl, rfl⟩
    · obtain ⟨before, d, behind, same, start, token⟩ := ih later
      refine ⟨(cutToken c rest).2.taken ++ before, d, behind, ?_, ?_, token⟩
      · rw [List.append_assoc, ← same]
        exact (cutToken_of c rest).symm
      · rw [start, byteLength_append, Nat.add_assoc]

/-- The token of a template that begins where `<!--` stands. -/
theorem token_of_comment_opening {template : String} {located : Token × Span}
    (mem : located ∈ lex template) {before rest : List Char}
    (here : template.toList = before ++ ('<' :: '!' :: '-' :: '-' :: rest))
    (start : located.2.start = byteLength before) :
    located.1 = match commentTail rest with
      | some cut => ⟨.comment, ['<', '!', '-', '-'] ++ cut.taken⟩
      | none => ⟨.stray, ['<']⟩ := by
  rw [lex_eq] at mem
  obtain ⟨front, c, more, same, start', token⟩ := exists_cut_of_mem_positioned mem
  obtain ⟨-, opening⟩ := eq_of_byteLength_eq (same.symm.trans here) (by omega)
  obtain ⟨rfl, rfl⟩ := List.cons.inj opening
  rw [token, cutToken_comment]
  cases commentTail rest <;> rfl

end Tokens

end TemplateCompiler.Markup

namespace TemplateCompiler.Extraction

open Text Markup

/-! ## Nothing in a comment is read -/

/-- Nothing of the token is read: it has no problem and is no site, every token that has one or is
one lies outside of it, and so does every hole. -/
structure Hidden [Matching] (template : String) (located : Token × Span) : Prop where
  problems : problems located = []
  site : site? located = none
  apart : ∀ other ∈ lex template, Extraction.problems other ≠ [] ∨ site? other ≠ none →
    other.2.stop ≤ located.2.start ∨ located.2.stop ≤ other.2.start
  holes : ∀ hole ∈ holes template,
    hole.place.span.stop ≤ located.2.start ∨ located.2.stop ≤ hole.place.span.start

section Lexing

variable [Matching]

/-- Two tokens of a template do not overlap. -/
theorem apart_of_mem_lex {template : String} {a b : Token × Span} (ha : a ∈ lex template)
    (hb : b ∈ lex template) (ne : a ≠ b) : a.2.stop ≤ b.2.start ∨ b.2.stop ≤ a.2.start := by
  let Apart (a b : Token × Span) : Prop := a.2.stop ≤ b.2.start ∨ b.2.stop ≤ a.2.start
  have symm : Std.Symm Apart := ⟨fun _ _ => Or.symm⟩
  have apart : (lex template).Pairwise Apart := (ordered_lex template).imp Or.inl
  exact apart.forall ha hb ne

/-- **Comments are hidden.** -/
theorem hidden_of_comment {template : String} {located : Token × Span}
    (mem : located ∈ lex template) (kind : located.1.kind = .comment) :
    Hidden template located := by
  have noProblem : problems located = [] := by simp [problems, kind]
  have noSite : site? located = none := by simp [site?, kind]
  have noPlace : places located = [] := by simp [places, loopPlaces, expressionPlaces, kind]
  refine ⟨noProblem, noSite, fun other inLex matters => ?_, fun hole inHoles => ?_⟩
  · refine apart_of_mem_lex inLex mem ?_
    rintro rfl
    exact matters.elim (fun ne => ne noProblem) fun ne => ne noSite
  · obtain ⟨other, inLex, inToken⟩ :=
      List.mem_flatMap.mp ((places_holes template).subset (List.mem_map_of_mem inHoles))
    have inside := (framed_of_mem_places inLex inToken).le
    have stop := (covers_of_mem_lex inLex).le.2.1
    have reach := hole.place.le_reach
    have apart := apart_of_mem_lex inLex mem (by
      rintro rfl
      rw [noPlace] at inToken
      cases inToken)
    omega

/-! ## Comments up to the first end -/

/-- **What stands between `<!--` and the first `-->` is a comment**, of which nothing is read, if
and only if no two hyphens in a row come before its end. If they do, the bracket is stray. -/
theorem comment_reaches_first_end {template : String} {located : Token × Span}
    (mem : located ∈ lex template) {before inner behind : List Char}
    (here : template.toList = before ++ ('<' :: '!' :: '-' :: '-' ::
      (inner ++ ('-' :: '-' :: '>' :: behind))))
    (start : located.2.start = byteLength before)
    (first : ∀ front rest, inner ++ ('-' :: '-' :: '>' :: behind) =
      front ++ ('-' :: '-' :: '>' :: rest) → inner.length ≤ front.length) :
    (located.1 = ⟨.comment, "<!--".toList ++ (inner ++ "-->".toList)⟩ ∧ Hidden template located ↔
      IsCommentText inner) ∧
    (¬ IsCommentText inner → located.1 = ⟨.stray, ['<']⟩) := by
  have token := token_of_comment_opening mem here start
  by_cases text : IsCommentText inner
  · rw [commentTail_of_isCommentText text] at token
    have hidden := hidden_of_comment mem (by rw [token])
    exact ⟨iff_of_true ⟨token, hidden⟩ text, fun no => absurd text no⟩
  · have unclosed : commentTail (inner ++ ('-' :: '-' :: '>' :: behind)) = none := by
      by_contra closed
      obtain ⟨cut, closed⟩ := Option.ne_none_iff_exists'.mp closed
      obtain ⟨front, taken, frontText⟩ := exists_inner_of_commentTail closed
      have split : inner ++ ('-' :: '-' :: '>' :: behind) =
          front ++ ('-' :: '-' :: '>' :: cut.rest) := by
        rw [← of_commentTail closed, taken, List.append_assoc]
        rfl
      -- the comment would go on behind its first end, so it would hold what stands before that
      have short : inner ++ ['-'] <+: inner ++ ('-' :: '-' :: '>' :: behind) :=
        ⟨'-' :: '>' :: behind, by simp⟩
      have long : front ++ ['-'] <+: inner ++ ('-' :: '-' :: '>' :: behind) :=
        ⟨'-' :: '>' :: cut.rest, by simp [split]⟩
      have shorter : inner ++ ['-'] <+: front ++ ['-'] :=
        List.prefix_of_prefix_length_le short long (by simpa using first front cut.rest split)
      exact text fun hyphens => frontText (hyphens.trans shorter.isInfix)
    rw [unclosed] at token
    refine ⟨iff_of_false (fun comment => ?_) text, fun _ => token⟩
    rw [token] at comment
    cases comment.1

end Lexing

/-- A comment that names a difference hides what looks like an interpolation. -/
theorem comment_with_hyphen :
    ∃ located ∈ lex "<!-- \x7b\x7b a-b \x7d\x7d --><p>", located.2 = ⟨0, 18⟩ ∧
      located.1 = ⟨.comment, "<!--".toList ++ (" \x7b\x7b a-b \x7d\x7d ".toList ++ "-->".toList)⟩ ∧
      Hidden "<!-- \x7b\x7b a-b \x7d\x7d --><p>" located := by
  have tokens : lex "<!-- \x7b\x7b a-b \x7d\x7d --><p>" =
      [(⟨.comment, "<!-- \x7b\x7b a-b \x7d\x7d -->".toList⟩, ⟨0, 18⟩),
        (⟨.openTag, "<p>".toList⟩, ⟨18, 21⟩)] := by
    cbv
  have mem : (⟨.comment, "<!-- \x7b\x7b a-b \x7d\x7d -->".toList⟩, ⟨0, 18⟩) ∈
      lex "<!-- \x7b\x7b a-b \x7d\x7d --><p>" := by
    rw [tokens]
    exact List.mem_cons_self
  have here : "<!-- \x7b\x7b a-b \x7d\x7d --><p>".toList = [] ++ ('<' :: '!' :: '-' :: '-' ::
      (" \x7b\x7b a-b \x7d\x7d ".toList ++ ('-' :: '-' :: '>' :: "<p>".toList))) := rfl
  have text : IsCommentText " \x7b\x7b a-b \x7d\x7d ".toList := by decide
  obtain ⟨token, hidden⟩ :=
    (comment_reaches_first_end mem here rfl fun _ _ => text.length_le).1.mpr text
  exact ⟨_, mem, rfl, token, hidden⟩

/-- Two hyphens in a comment make its opening stray, and an expression behind them is extracted. -/
theorem double_hyphen_opens_comment :
    (lex "<!-- a -- \x7b\x7b b \x7d\x7d -->").head? = some (⟨.stray, ['<']⟩, ⟨0, 1⟩) ∧
    extract default default "<!-- a -- \x7b\x7b b \x7d\x7d -->" =
      .ok ⟨"<!-- a -- {{ exp$0 }} -->", [⟨"exp$0", .getter, [], "String", "b"⟩], []⟩ := by
  constructor <;> cbv

end TemplateCompiler.Extraction
