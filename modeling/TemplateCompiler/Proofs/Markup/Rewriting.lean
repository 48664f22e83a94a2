import TemplateCompiler.Proofs.Markup.Renewal

/-!
# Markup with other tokens

When tokens of a markup are replaced by others of their kind, the new markup falls into the new
tokens again. The tokens that are kept need no more than the kind and the first character of what
follows them. A stray bracket is the exception: what follows it may make it begin a comment or a
tag, unless the text right behind it rules that out.

## Main definitions

* `Markup.Replaces` — a token that may stand in the place of another one
* `Markup.Settled` — text in front of which a bracket is stray whatever follows
* `Markup.rewritten` — a markup with other tokens

## Main statements

* `Markup.cutToken_replaced` — the new token is cut from the new markup
* `Markup.tokens_rewritten` — the tokens of the new markup are the new ones
-/
namespace TemplateCompiler.Markup

open Text

/-! ## Tokens that are kept -/

/-- A comment is read to its end, whatever follows. -/
theorem commentTail_taken {cs : List Char} {cut : Cut} (h : commentTail cs = some cut)
    (rest : List Char) : commentTail (cut.taken ++ rest) = some ⟨cut.taken, rest⟩ := by
  fun_induction commentTail cs generalizing cut with
  | case1 => cases h
  | case2 rest' =>
    obtain rfl := Option.some.inj h
    rfl
  | case3 => cases h
  | case4 c cs _ other ih =>
    obtain ⟨inner, hinner, rfl⟩ := Option.map_eq_some_iff.mp h
    rw [Cut.taken_cons, Cut.taken_cons, List.cons_append, List.cons_append, commentTail,
      ih hinner]
    · rfl
    · exact fun _ same _ => other same
    · exact other
  | case5 c cs _ _ other ih =>
    obtain ⟨inner, hinner, rfl⟩ := Option.map_eq_some_iff.mp h
    have notHyphen : c ≠ '-' := by
      rintro rfl
      cases cs with
      | nil => cases hinner
      | cons d cs => exact other d cs rfl rfl
    simp [commentTail, notHyphen, ih hinner, Cut.cons]

theorem comment?_taken {cs : List Char} {cut : Cut} (h : comment? cs = some cut)
    (rest : List Char) : comment? (cut.taken ++ rest) = some ⟨cut.taken, rest⟩ := by
  obtain ⟨behind, lead, h⟩ := Option.bind_eq_some_iff.mp h
  obtain ⟨inner, hinner, rfl⟩ := Option.map_eq_some_iff.mp h
  have front : after? ['<', '!', '-', '-'] (['<', '!', '-', '-'] ++ (inner.taken ++ rest)) =
      some (inner.taken ++ rest) := after?_eq_some_iff.mpr rfl
  rw [Cut.taken_append, List.append_assoc, comment?, front, Option.bind_some,
    commentTail_taken hinner]
  rfl

/-- A closing tag is read to its end, whatever follows. -/
theorem closeTag?_taken {cs name : List Char} {cut : Cut} (h : closeTag? cs = some (name, cut))
    (rest : List Char) : closeTag? (cut.taken ++ rest) = some (name, ⟨cut.taken, rest⟩) := by
  simp only [closeTag?, Option.bind_eq_bind, Option.bind_eq_some_iff, Option.pure_def,
    Option.some.injEq, Prod.mk.injEq] at h
  obtain ⟨behind, -, named, hname, tail, -, rfl, rfl⟩ := h
  have blank := all_cutRun isMarkupBlank named.rest
  generalize (cutRun isMarkupBlank named.rest).taken = blanks at blank
  have border : (blanks ++ '>' :: rest).head?.all isFence = true := by
    cases blanks with
    | nil => rfl
    | cons c blanks =>
      rw [List.all_cons, Bool.and_eq_true] at blank
      exact isFence_of_isMarkupBlank blank.1
  have read := tagName?_append (tagName?_taken hname) border
  have taken : (blanks ++ '>' :: rest).takeWhile isMarkupBlank = blanks := takeWhile_run blank rfl
  have left : (blanks ++ '>' :: rest).dropWhile isMarkupBlank = '>' :: rest :=
    dropWhile_run blank rfl
  simp [closeTag?, after?, read, taken, left]

/-- What begins like a closing tag is no comment. -/
theorem comment?_of_closeTag? {cs name : List Char} {cut : Cut}
    (h : closeTag? cs = some (name, cut)) : comment? cs = none := by
  simp only [closeTag?, Option.bind_eq_bind, Option.bind_eq_some_iff] at h
  obtain ⟨behind, lead, -⟩ := h
  rw [after?_eq_some_iff.mp lead]
  rfl

/-- What begins like an opening tag is no comment and no closing tag. -/
theorem not_closeTag?_of_openTag? [Matching] {cs : List Char} {cut : Cut} (h : openTag? cs = some cut) :
    comment? cs = none ∧ closeTag? cs = none := by
  simp only [openTag?, Option.bind_eq_bind, Option.bind_eq_some_iff] at h
  obtain ⟨behind, lead, name, hname, -⟩ := h
  rw [after?_eq_some_iff.mp lead]
  cases behind with
  | nil => cases hname
  | cons c behind =>
    rw [tagName?] at hname
    split at hname
    · rename_i alpha
      have bang : '!' ≠ c := by
        rintro rfl
        cases alpha
      have slash : '/' ≠ c := by
        rintro rfl
        cases alpha
      simp [comment?, closeTag?, after?, bang, slash]
    · cases hname

/-! ## One token -/

/-- The token at the front of markup, and the markup behind it. -/
def front? [Matching] : List Char → Option (Token.Kind × Cut)
  | [] => none
  | c :: rest => some (cutToken c rest)

/-- The new token may stand in the place of the old one. It is the same, or it is an opening tag or
an interpolation as the old one is. -/
structure Replaces [Matching] (token other : Token) : Prop where
  kind : other.kind = token.kind
  openTag : token.kind = .openTag → ∀ rest, openTag? (other.text ++ rest) = some ⟨other.text, rest⟩
  interpolation : token.kind = .interpolation →
    ∀ rest, interpolation? (other.text ++ rest) = some ⟨other.text, rest⟩
  kept : token.kind ≠ .openTag → token.kind ≠ .interpolation → other = token

section Front

variable [Matching]

theorem front?_of_comment? {cs : List Char} {cut : Cut} (h : comment? cs = some cut) :
    front? cs = some (.comment, cut) := by
  obtain ⟨behind, lead, -⟩ := Option.bind_eq_some_iff.mp h
  obtain rfl : cs = '<' :: '!' :: '-' :: '-' :: behind := after?_eq_some_iff.mp lead
  rw [front?, cutToken_bracket]
  simp only [h]

theorem front?_of_closeTag? {cs name : List Char} {cut : Cut}
    (h : closeTag? cs = some (name, cut)) :
    front? cs = some (.closeTag (String.ofList name), cut) := by
  have noComment := comment?_of_closeTag? h
  obtain ⟨behind, lead, -⟩ := Option.bind_eq_some_iff.mp h
  obtain rfl : cs = '<' :: '/' :: behind := after?_eq_some_iff.mp lead
  rw [front?, cutToken_bracket]
  simp only [noComment, h]

theorem front?_of_openTag? {cs : List Char} {cut : Cut} (h : openTag? cs = some cut) :
    front? cs = some (.openTag, cut) := by
  obtain ⟨noComment, noClose⟩ := not_closeTag?_of_openTag? h
  obtain ⟨behind, lead, -⟩ := Option.bind_eq_some_iff.mp h
  obtain rfl : cs = '<' :: behind := after?_eq_some_iff.mp lead
  rw [front?, cutToken_bracket]
  simp only [noComment, noClose, h]

theorem front?_of_interpolation? {cs : List Char} {cut : Cut} (h : interpolation? cs = some cut) :
    front? cs = some (.interpolation, cut) := by
  obtain ⟨behind, lead, -⟩ := Option.bind_eq_some_iff.mp h
  obtain rfl : cs = '{' :: '{' :: behind := after?_eq_some_iff.mp lead
  rw [front?, cutToken_brace]
  simp only [h]

theorem front?_text {run rest : List Char} (nonempty : run ≠ []) (all : run.all isTextChar = true)
    (border : rest.head?.any isTextChar = false) :
    front? (run ++ rest) = some (.text, ⟨run, rest⟩) := by
  obtain ⟨c, run, rfl⟩ := List.exists_cons_of_ne_nil nonempty
  rw [List.all_cons, Bool.and_eq_true] at all
  rw [List.cons_append, front?, cutToken_text all.1, cutRun_run all.2 border]
  rfl

end Front

/-- Text in front of which a bracket is stray, whatever follows the text but the character there. -/
def Settled [Matching] (rest : List Char) : Prop :=
  ∀ more, more.head? = (rest.dropWhile isTextChar).head? →
    (cutToken '<' (rest.takeWhile isTextChar ++ more)).1 = .stray

/-- Nothing of what a run of text leaves is text. -/
theorem head?_dropWhile_isTextChar (cs : List Char) :
    (cs.dropWhile isTextChar).head?.any isTextChar = false := by
  rw [Option.any_eq_false]
  intro c mem
  have none := List.head?_dropWhile_not isTextChar cs
  rw [Option.mem_def.mp mem] at none
  simpa using none

section Replacing

variable [Matching]

/-- Nothing begins with a bracket in front of a character like a blank or a digit. -/
theorem settled_cons {c : Char} {rest : List Char} (text : isTextChar c = true)
    (letter : c.isAlpha = false) (slash : c ≠ '/') (bang : c ≠ '!') : Settled (c :: rest) := by
  intro more _
  have noComment (behind : List Char) : comment? ('<' :: c :: behind) = none := by
    simp [comment?, after?, bang.symm]
  have noClose (behind : List Char) : closeTag? ('<' :: c :: behind) = none := by
    simp [closeTag?, after?, slash.symm]
  have noOpen (behind : List Char) : openTag? ('<' :: c :: behind) = none := by
    simp [openTag?, after?, tagName?, letter]
  rw [List.takeWhile_cons_of_pos text, List.cons_append]
  rw [cutToken_bracket]
  simp only [noComment, noClose, noOpen]

theorem cutToken_bracket_stray {rest : List Char} (h : (cutToken '<' rest).1 = .stray) :
    cutToken '<' rest = (.stray, ⟨['<'], rest⟩) := by
  rw [cutToken_bracket] at h ⊢
  split at h
  · cases h
  · cases h
  · cases h
  · rfl

/-- A brace in front of something else is stray. -/
theorem cutToken_brace_stray {rest : List Char} (h : rest.head? ≠ some '{') :
    cutToken '{' rest = (.stray, ⟨['{'], rest⟩) := by
  have single : after? ['{', '{'] ('{' :: rest) = none := by
    cases rest with
    | nil => rfl
    | cons c rest =>
      have other : '{' ≠ c := fun same => h (by rw [List.head?_cons, same])
      simp [after?, other]
  have last : (rest == ['{', '}']) = false := by
    rw [beq_eq_false_iff_ne]
    rintro rfl
    exact h rfl
  rw [cutToken_brace, interpolation?, single, last, Bool.and_false, splitOff, single]
  rfl

/-- What a bracket begins is replaced. -/
theorem cutToken_bracket_replaced {rest rest' : List Char} {other : Token}
    (replaces : Replaces ⟨(cutToken '<' rest).1, (cutToken '<' rest).2.taken⟩ other)
    (stray : (cutToken '<' rest).1 = .stray → (cutToken '<' rest').1 = .stray) :
    front? (other.text ++ rest') = some (other.kind, ⟨other.text, rest'⟩) := by
  obtain ⟨kind, openTag, -, kept⟩ := replaces
  rw [cutToken_bracket] at kind openTag kept stray
  split at kind
  · rename_i cut read
    simp only [read] at kept
    rw [kept (by simp) (by simp)]
    exact front?_of_comment? (comment?_taken read rest')
  · rename_i name cut noComment read
    simp only [noComment, read] at kept
    rw [kept (by simp) (by simp)]
    exact front?_of_closeTag? (closeTag?_taken read rest')
  · rename_i cut noComment noClose read
    simp only [noComment, noClose, read] at openTag
    rw [kind]
    exact front?_of_openTag? (openTag trivial rest')
  · rename_i noComment noClose noOpen
    simp only [noComment, noClose, noOpen] at kept stray
    rw [kept (by simp) (by simp)]
    exact congrArg some (cutToken_bracket_stray (stray trivial))

/-- What a brace begins. -/
theorem cutToken_brace_cases (rest : List Char) :
    (∃ cut, cutToken '{' rest = (.interpolation, cut)) ∨
      (rest = ['{', '}'] ∧ cutToken '{' rest = (.stray, ⟨['{', '{'], ['}']⟩)) ∨
      (∃ cut, cutToken '{' rest = (.unterminatedInterpolation, cut)) ∨
      rest.head? ≠ some '{' ∧ cutToken '{' rest = (.stray, ⟨['{'], rest⟩) := by
  by_cases notBrace : rest.head? ≠ some '{'
  · exact .inr (.inr (.inr ⟨notBrace, cutToken_brace_stray notBrace⟩))
  rw [not_not] at notBrace
  obtain ⟨tail, rfl⟩ := List.head?_eq_some_iff.mp notBrace
  rw [cutToken_brace]
  split
  · exact .inl ⟨_, rfl⟩
  split
  · rename_i last
    rw [Bool.and_eq_true, beq_iff_eq] at last
    exact .inr (.inl ⟨last.2, rfl⟩)
  · exact .inr (.inr (.inl ⟨_, rfl⟩))

/-- What a brace begins is replaced. -/
theorem cutToken_brace_replaced {rest rest' : List Char} {other : Token}
    (replaces : Replaces ⟨(cutToken '{' rest).1, (cutToken '{' rest).2.taken⟩ other)
    (terminated : (cutToken '{' rest).1 ≠ .unterminatedInterpolation)
    (head : rest'.head? = (cutToken '{' rest).2.rest.head?)
    (last : (cutToken '{' rest).2.rest = ['}'] → rest' = ['}']) :
    front? (other.text ++ rest') = some (other.kind, ⟨other.text, rest'⟩) := by
  rcases cutToken_brace_cases rest with
    ⟨cut, same⟩ | ⟨rfl, same⟩ | ⟨cut, same⟩ | ⟨notBrace, same⟩ <;>
    rw [same] at replaces terminated head last
  · rw [replaces.kind]
    exact front?_of_interpolation? (replaces.interpolation rfl rest')
  · rw [replaces.kept (by simp) (by simp), last rfl]
    exact congrArg some same
  · exact absurd rfl terminated
  · rw [replaces.kept (by simp) (by simp)]
    rw [← head] at notBrace
    exact congrArg some (cutToken_brace_stray notBrace)

/-- **The new token is cut from the new markup.** -/
theorem cutToken_replaced {c : Char} {rest rest' : List Char} {other : Token}
    (replaces : Replaces ⟨(cutToken c rest).1, (cutToken c rest).2.taken⟩ other)
    (terminated : (cutToken c rest).1 ≠ .unterminatedInterpolation)
    (head : rest'.head? = (cutToken c rest).2.rest.head?)
    (stray : c = '<' → (cutToken c rest).1 = .stray → (cutToken '<' rest').1 = .stray)
    (last : (cutToken c rest).2.rest = ['}'] → rest' = ['}']) :
    front? (other.text ++ rest') = some (other.kind, ⟨other.text, rest'⟩) := by
  by_cases bracket : c = '<'
  · subst bracket
    exact cutToken_bracket_replaced replaces (stray rfl)
  by_cases brace : c = '{'
  · subst brace
    exact cutToken_brace_replaced replaces terminated head last
  · have text : isTextChar c = true := by simp [isTextChar, bracket, brace]
    rw [cutToken_text text] at replaces head
    rw [replaces.kept (by simp) (by simp)]
    refine front?_text (List.cons_ne_nil _ _) ?_ ?_
    · rw [Cut.taken_cons, List.all_cons, text]
      exact all_cutRun isTextChar rest
    · rw [head]
      exact head?_dropWhile_isTextChar rest

/-! ## All tokens -/

theorem tokens_of_front? {cs : List Char} {kind : Token.Kind} {cut : Cut}
    (h : front? cs = some (kind, cut)) : tokens cs = ⟨kind, cut.taken⟩ :: tokens cut.rest := by
  cases cs with
  | nil => cases h
  | cons c rest =>
    rw [tokens, Option.some.inj h]

/-- A token begins with the same character as the one that it replaces. -/
theorem Replaces.head? {token other : Token} (h : Replaces token other) (shaped : token.Shaped) :
    other.text.head? = token.text.head? := by
  by_cases opens : token.kind = .openTag
  · obtain ⟨inner, same⟩ := shaped.2 opens
    obtain ⟨otherInner, otherSame⟩ := brackets_of_openTag? (h.openTag opens [])
    have otherSame : other.text = '<' :: (otherInner ++ ['>']) := otherSame
    rw [same, otherSame]
    rfl
  · by_cases braces : token.kind = .interpolation
    · obtain ⟨inner, same⟩ := shaped.1 braces
      obtain ⟨otherInner, otherSame⟩ := braces_of_interpolation? (h.interpolation braces [])
      have otherSame : other.text = '{' :: '{' :: (otherInner ++ ['}', '}']) := otherSame
      rw [same, otherSame]
      rfl
    · rw [h.kept opens braces]

end Replacing

section Rewriting

variable (f : Token × Span → Token)

/-- The markup that other tokens spell. -/
def rewritten (located : List (Token × Span)) : List Char :=
  located.flatMap fun token => (f token).text

theorem rewritten_cons (token : Token × Span) (behind : List (Token × Span)) :
    rewritten f (token :: behind) = (f token).text ++ rewritten f behind :=
  List.flatMap_cons ..

variable [Matching] {f} {cs : List Char} {position : Nat}

/-- The tokens of markup with their positions. -/
theorem positioned_tokens_cons (c : Char) (rest : List Char) (position : Nat) :
    positioned position (tokens (c :: rest)) =
      (⟨(cutToken c rest).1, (cutToken c rest).2.taken⟩,
        ⟨position, position + byteLength (cutToken c rest).2.taken⟩) ::
          positioned (position + byteLength (cutToken c rest).2.taken)
            (tokens (cutToken c rest).2.rest) := by
  rw [tokens, positioned]

/-- New markup begins as the old one. -/
theorem head?_rewritten
    (replaces : ∀ located ∈ positioned position (tokens cs), Replaces located.1 (f located)) :
    (rewritten f (positioned position (tokens cs))).head? = cs.head? := by
  cases cs with
  | nil =>
    rw [tokens]
    rfl
  | cons c rest =>
    have first : ⟨(cutToken c rest).1, (cutToken c rest).2.taken⟩ ∈ tokens (c :: rest) := by
      rw [tokens]
      exact List.mem_cons_self
    rw [positioned_tokens_cons] at replaces ⊢
    have head := (replaces _ List.mem_cons_self).head? (shaped_of_mem_tokens first)
    have whole : _ ++ _ = _ := cutToken_of c rest
    obtain ⟨d, taken, same⟩ := List.exists_cons_of_ne_nil (taken_cutToken_ne_nil c rest)
    rw [same, List.cons_append] at whole
    rw [rewritten_cons, List.head?_append, head, same, ← whole]
    rfl

/-- New markup has the same text in front, and behind it the same character. -/
theorem exists_text_rewritten
    (replaces : ∀ located ∈ positioned position (tokens cs), Replaces located.1 (f located)) :
    ∃ more, rewritten f (positioned position (tokens cs)) = cs.takeWhile isTextChar ++ more ∧
      more.head? = (cs.dropWhile isTextChar).head? := by
  cases cs with
  | nil =>
    rw [tokens]
    exact ⟨[], rfl, rfl⟩
  | cons c rest =>
    by_cases text : isTextChar c = true
    · rw [positioned_tokens_cons, cutToken_text text] at replaces ⊢
      have first := (replaces _ List.mem_cons_self).kept (by simp) (by simp)
      have behind := head?_rewritten fun located mem =>
        replaces located (List.mem_cons_of_mem _ mem)
      rw [List.takeWhile_cons_of_pos text, List.dropWhile_cons_of_pos text, rewritten_cons, first]
      exact ⟨_, rfl, behind⟩
    · refine ⟨_, ?_, (head?_rewritten replaces).trans ?_⟩
      · rw [List.takeWhile_cons_of_neg text]
        rfl
      · rw [List.dropWhile_cons_of_neg text]

/-- **The tokens of the new markup are the new ones**, if no stray bracket becomes something else:
either nothing changes behind it, or the text there rules that out. -/
theorem tokens_rewritten
    (replaces : ∀ located ∈ positioned position (tokens cs), Replaces located.1 (f located))
    (terminated : ∀ located ∈ positioned position (tokens cs),
      located.1.kind ≠ .unterminatedInterpolation)
    (settled : ∀ before span behind,
      positioned position (tokens cs) = before ++ (⟨.stray, ['<']⟩, span) :: behind →
        rewritten f behind = (behind.flatMap fun located => located.1.text) ∨
          Settled (behind.flatMap fun located => located.1.text)) :
    tokens (rewritten f (positioned position (tokens cs))) =
      (positioned position (tokens cs)).map f := by
  induction count : cs.length using Nat.strongRecOn generalizing cs position with
  | ind n ih =>
    subst count
    cases cs with
    | nil => simp [tokens, positioned, rewritten]
    | cons c rest =>
      have shorter := length_rest_cutToken_lt c rest
      rw [positioned_tokens_cons] at replaces terminated settled ⊢
      have replacesRest := fun located mem => replaces located (List.mem_cons_of_mem _ mem)
      have behind := ih _ shorter replacesRest
        (fun located mem => terminated located (List.mem_cons_of_mem _ mem))
        (fun before span behind split => settled (_ :: before) span behind (congrArg _ split)) rfl
      obtain ⟨more, text, head⟩ := exists_text_rewritten replacesRest
      have front := cutToken_replaced (replaces _ List.mem_cons_self)
        (terminated _ List.mem_cons_self) (head?_rewritten replacesRest) ?_ ?_
      · rw [rewritten_cons, List.map_cons, tokens_of_front? front, behind]
      · rintro rfl stray
        have cut : cutToken '<' rest = (.stray, ⟨['<'], rest⟩) := cutToken_bracket_stray stray
        rw [cut] at settled text head ⊢
        have spelled := flatMap_positioned (position + byteLength ['<']) (tokens rest)
        rw [flatMap_text_tokens] at spelled
        rcases settled [] _ _ rfl with unchanged | settled
        · rw [unchanged, spelled]
          exact stray
        · rw [spelled] at settled
          rw [text]
          exact settled more head
      · intro last
        rw [last] at text head ⊢
        obtain rfl : more = [] := List.head?_eq_none_iff.mp head
        exact text

end Rewriting

end TemplateCompiler.Markup
