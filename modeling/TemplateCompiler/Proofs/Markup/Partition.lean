import Mathlib
import TemplateCompiler.Proofs.Markup.Tiling

/-!
# The tokens partition the markup

Markup is read to its end, whatever it is. Each token covers at least one character and begins
where the one in front of it ends, so the tokens put one after the other are the markup. Where no
longer token begins, two braces or one character are split off, and so they are at every error of
the matcher. What stands behind a token is read as if it stood alone, so that nothing goes wrong
with positions however often a fresh matcher starts.

## Main definitions

* `Markup.Partition` — tokens that make up a text, with spans that meet
* `Markup.BeginsNothing` — a bracket or a brace that begins no longer token
* `Markup.splitText` — what is taken there
* `Markup.ReadsOn` — how markup is read at the place of a token and behind it

## Main statements

* `Markup.partition_positioned` — tokens that are not empty make up what they spell
* `Markup.isSplitOff_cutToken_iff` — something is split off exactly where nothing begins
* `Markup.beginsNothing_of_match?` — nothing begins where the matcher reports an error
* `Markup.exists_readsOn` — markup is read on behind every token
* `Markup.lex_partitions` — all of it for a template
-/
namespace TemplateCompiler.Markup

open Text

/-! ## Spans that meet -/

/-- In text that begins at byte `position`, the tokens are all there is, and their spans meet. -/
structure Partition (position : Nat) (text : List Char) (located : List (Token × Span)) : Prop where
  spells : (located.flatMap fun token => token.1.text) = text
  /-- A span lies on character boundaries and covers the characters of its token. -/
  covers : ∀ token ∈ located, Covers position text token.2 token.1.text
  nonempty : ∀ token ∈ located, token.2.start < token.2.stop
  first : ∀ token ∈ located.head?, token.2.start = position
  meets : located.IsChain fun a b => a.2.stop = b.2.start
  last : ∀ token ∈ located.getLast?, token.2.stop = position + byteLength text

/-- The first of the tokens begins where they do. -/
theorem start_of_mem_head?_positioned {position : Nat} {all : List Token} {token : Token × Span}
    (first : token ∈ (positioned position all).head?) : token.2.start = position := by
  cases all with
  | nil => cases first
  | cons next all =>
    cases first
    rfl

theorem length_positioned (position : Nat) (all : List Token) :
    (positioned position all).length = all.length := by
  induction all generalizing position with
  | nil => rfl
  | cons token all ih => rw [positioned, List.length_cons, ih, List.length_cons]

/-- **Tokens that are not empty make up what they spell.** -/
theorem partition_positioned {all : List Token} (nonempty : ∀ token ∈ all, token.text ≠ [])
    (position : Nat) :
    Partition position (all.flatMap Token.text) (positioned position all) := by
  induction all generalizing position with
  | nil => exact ⟨rfl, nofun, nofun, nofun, .nil, nofun⟩
  | cons token all ih =>
    have behind := ih (fun other mem => nonempty other (List.mem_cons_of_mem token mem))
      (position + byteLength token.text)
    have size := byteLength_pos (nonempty token List.mem_cons_self)
    exact
      { spells := flatMap_positioned position (token :: all)
        covers := fun other mem => (covers_of_mem_positioned mem).2
        nonempty := by
          intro other mem
          rcases List.mem_cons.mp mem with rfl | later
          · exact Nat.lt_add_of_pos_right size
          · exact behind.nonempty other later
        first := fun other mem => start_of_mem_head?_positioned mem
        meets := by
          refine List.isChain_cons.mpr ⟨?_, behind.meets⟩
          intro other mem
          exact (start_of_mem_head?_positioned mem).symm
        last := by
          intro other mem
          rw [positioned, List.getLast?_cons] at mem
          rw [List.flatMap_cons, byteLength_append, ← Nat.add_assoc]
          cases final : (positioned (position + byteLength token.text) all).getLast? with
          | some found =>
            rw [final] at mem
            cases mem
            exact behind.last found final
          | none =>
            rw [List.getLast?_eq_none_iff] at final
            rw [final] at mem
            cases mem
            have spelled := behind.spells
            rw [final] at spelled
            rw [← spelled]
            rfl }

section Tokens

variable [Matching]

/-- No token is empty. -/
theorem text_ne_nil_of_mem_tokens {cs : List Char} {token : Token} (mem : token ∈ tokens cs) :
    token.text ≠ [] := by
  obtain ⟨c, rest, rfl⟩ := exists_cutToken_of_mem_tokens mem
  exact taken_cutToken_ne_nil c rest

/-- There are as many tokens as characters at most. -/
theorem length_tokens_le (cs : List Char) : (tokens cs).length ≤ cs.length := by
  fun_induction tokens cs with
  | case1 => exact Nat.le_refl _
  | case2 c rest ih =>
    have shorter := length_rest_cutToken_lt c rest
    rw [List.length_cons]
    omega

end Tokens

/-! ## What is split off -/

/-- A bracket or a brace stands in front, but no comment, tag or interpolation. -/
structure BeginsNothing [Matching] (cs : List Char) : Prop where
  special : ∃ c ∈ cs.head?, isTextChar c = false
  comment : comment? cs = none
  closeTag : closeTag? cs = none
  openTag : openTag? cs = none
  interpolation : interpolation? cs = none

/-- The token has no shape of its own. -/
def Token.Kind.isSplitOff : Token.Kind → Bool
  | stray | unterminatedInterpolation => true
  | comment | closeTag _ | openTag | interpolation | text => false

/-- What is split off from markup that begins nothing: two braces if they stand there, and
otherwise one character. -/
def splitText (cs : List Char) : List Char :=
  match after? ['{', '{'] cs with
  | some _ => ['{', '{']
  | none => cs.take 1

theorem isSplitOff_splitOff (c : Char) (rest : List Char) :
    (splitOff c rest).1.isSplitOff = true ∧
      (splitOff c rest).2.taken = splitText (c :: rest) := by
  rw [splitOff, splitText]
  cases after? ['{', '{'] (c :: rest) <;> exact ⟨rfl, rfl⟩

section SplitOff

variable [Matching]

/-- Something is split off from a bracket exactly if it begins nothing. -/
theorem isSplitOff_bracket_iff (rest : List Char) :
    ((cutToken '<' rest).1.isSplitOff = true ↔ BeginsNothing ('<' :: rest)) ∧
      (BeginsNothing ('<' :: rest) → (cutToken '<' rest).2.taken = splitText ('<' :: rest)) := by
  rw [cutToken_bracket]
  split
  · rename_i read
    exact ⟨⟨nofun, fun h => absurd (h.comment.symm.trans read) nofun⟩,
      fun h => absurd (h.comment.symm.trans read) nofun⟩
  · rename_i read
    exact ⟨⟨nofun, fun h => absurd (h.closeTag.symm.trans read) nofun⟩,
      fun h => absurd (h.closeTag.symm.trans read) nofun⟩
  · rename_i read
    exact ⟨⟨nofun, fun h => absurd (h.openTag.symm.trans read) nofun⟩,
      fun h => absurd (h.openTag.symm.trans read) nofun⟩
  · rename_i noComment noClose noOpen
    exact ⟨iff_of_true rfl ⟨⟨'<', rfl, rfl⟩, noComment, noClose, noOpen, rfl⟩, fun _ => rfl⟩

/-- Something is split off from braces exactly if they begin nothing. -/
theorem isSplitOff_brace_iff (rest : List Char) :
    ((cutToken '{' rest).1.isSplitOff = true ↔ BeginsNothing ('{' :: rest)) ∧
      (BeginsNothing ('{' :: rest) → (cutToken '{' rest).2.taken = splitText ('{' :: rest)) := by
  rw [cutToken_brace]
  split
  · rename_i read
    exact ⟨⟨nofun, fun h => absurd (h.interpolation.symm.trans read) nofun⟩,
      fun h => absurd (h.interpolation.symm.trans read) nofun⟩
  rename_i none
  have begins : BeginsNothing ('{' :: rest) := ⟨⟨'{', rfl, rfl⟩, rfl, rfl, rfl, none⟩
  split
  · rename_i last
    rw [Bool.and_eq_true, beq_iff_eq] at last
    exact ⟨iff_of_true rfl begins, fun _ => by rw [last.2]; rfl⟩
  · obtain ⟨split, taken⟩ := isSplitOff_splitOff '{' rest
    exact ⟨iff_of_true split begins, fun _ => taken⟩

/-- **Something is split off exactly where nothing begins**: two braces or one character. -/
theorem isSplitOff_cutToken_iff (c : Char) (rest : List Char) :
    ((cutToken c rest).1.isSplitOff = true ↔ BeginsNothing (c :: rest)) ∧
      (BeginsNothing (c :: rest) → (cutToken c rest).2.taken = splitText (c :: rest)) := by
  by_cases bracket : c = '<'
  · subst bracket
    exact isSplitOff_bracket_iff rest
  by_cases brace : c = '{'
  · subst brace
    exact isSplitOff_brace_iff rest
  · have text : isTextChar c = true := by simp [isTextChar, bracket, brace]
    have begins : ¬ BeginsNothing (c :: rest) := by
      rintro ⟨⟨_, ⟨⟩, special⟩, -⟩
      cases text.symm.trans special
    rw [cutToken_text text]
    exact ⟨⟨fun split => absurd split Bool.false_ne_true, fun h => absurd h begins⟩,
      fun h => absurd h begins⟩

/-- **Nothing begins where the matcher reports an error.** -/
theorem beginsNothing_of_match? {c : Char} {rest : List Char} (error : match? c rest = none) :
    BeginsNothing (c :: rest) := by
  have split : cutToken c rest = splitOff c rest := by
    rw [cutToken, error, Option.getD_none]
  refine (isSplitOff_cutToken_iff c rest).1.mp ?_
  rw [split]
  exact (isSplitOff_splitOff c rest).1

end SplitOff

/-! ## Reading on -/

/-- Tokens further on have moved spans. -/
theorem positioned_add (position offset : Nat) (all : List Token) :
    positioned (position + offset) all =
      (positioned offset all).map fun token => (token.1, token.2.shift position) := by
  induction all generalizing offset with
  | nil => rfl
  | cons token all ih =>
    rw [positioned, positioned, List.map_cons, Nat.add_assoc, ih]
    simp [Span.shift, Nat.add_comm]

/-- How markup `cs` that begins at byte `position` is read: a token is taken from its front, and
the tokens behind are those of what is left. -/
structure ReadsOn [Matching] (position : Nat) (cs : List Char) (located : Token × Span)
    (behind : List (Token × Span)) : Prop where
  start : located.2.start = position
  /-- What is left is read as if it stood alone. The spans are moved. -/
  afresh : ∃ rest, cs = located.1.text ++ rest ∧
    behind = (lex (String.ofList rest)).map fun token => (token.1, token.2.shift located.2.stop)
  /-- Something is split off exactly where no longer token begins. -/
  isSplitOff_iff : located.1.kind.isSplitOff = true ↔ BeginsNothing cs
  /-- Two braces or one character are split off. -/
  splitOff : BeginsNothing cs → located.1.text = splitText cs
  /-- That is so wherever a fresh matcher has to start. -/
  restart : ∀ c rest, cs = c :: rest → match? c rest = none → BeginsNothing cs

section Reading

variable [Matching]

/-- **Markup is read on behind every token.** -/
theorem exists_readsOn {position : Nat} {cs : List Char} {front behind : List (Token × Span)}
    {located : Token × Span} (split : positioned position (tokens cs) = front ++ located :: behind) :
    ∃ left, cs = (front.flatMap fun token => token.1.text) ++ left ∧
      ReadsOn (position + byteLength (front.flatMap fun token => token.1.text)) left located
        behind := by
  induction front generalizing position cs with
  | nil =>
    cases cs with
    | nil => simp [tokens, positioned] at split
    | cons c rest =>
      rw [tokens, positioned, List.nil_append, List.cons.injEq] at split
      obtain ⟨rfl, rfl⟩ := split
      obtain ⟨iff, taken⟩ := isSplitOff_cutToken_iff c rest
      refine ⟨c :: rest, rfl, rfl, ⟨(cutToken c rest).2.rest, ?_, ?_⟩, iff, taken, ?_⟩
      · exact (cutToken_of c rest).symm
      · rw [lex_eq, String.toList_ofList]
        exact positioned_add _ 0 _
      · rintro d more ⟨⟩ error
        exact beginsNothing_of_match? error
  | cons token front ih =>
    cases cs with
    | nil => simp [tokens, positioned] at split
    | cons c rest =>
      rw [tokens, positioned, List.cons_append, List.cons.injEq] at split
      obtain ⟨rfl, later⟩ := split
      obtain ⟨left, same, reads⟩ := ih later
      refine ⟨left, ?_, ?_⟩
      · rw [List.flatMap_cons, List.append_assoc, ← same]
        exact (cutToken_of c rest).symm
      · rw [List.flatMap_cons, byteLength_append, ← Nat.add_assoc]
        exact reads

/-- **The tokens partition the markup.** There are finitely many, no more than the template has
characters. They are not empty, their spans lie between characters and meet, and together they are
the template. Behind each of them the template is read as if it began there; where no longer token
begins, and so at every error of the matcher, two braces or one character are split off. -/
theorem lex_partitions (template : String) :
    Partition 0 template.toList (lex template) ∧ (lex template).length ≤ template.length ∧
      ∀ front located behind, lex template = front ++ located :: behind →
        ∃ left, template.toList = (front.flatMap fun token => token.1.text) ++ left ∧
          ReadsOn (byteLength (front.flatMap fun token => token.1.text)) left located behind := by
  refine ⟨?_, ?_, fun front located behind split => ?_⟩
  · have nonempty : ∀ token ∈ tokens template.toList, token.text ≠ [] :=
      fun token mem => text_ne_nil_of_mem_tokens mem
    have partition := partition_positioned nonempty 0
    rwa [flatMap_text_tokens, ← lex_eq] at partition
  · rw [lex_eq, length_positioned, ← String.length_toList]
    exact length_tokens_le _
  · rw [lex_eq] at split
    have reads := exists_readsOn split
    simpa only [Nat.zero_add] using reads

end Reading

/-- Braces without an end, a bracket in front of a letter of two bytes, and three braces that end
the markup. -/
theorem malformed_markup_partitions :
    Partition 0 "\x7b\x7bé<é\x7b\x7b\x7d".toList
        [(⟨.unterminatedInterpolation, ['{', '{']⟩, ⟨0, 2⟩), (⟨.text, ['é']⟩, ⟨2, 4⟩),
          (⟨.stray, ['<']⟩, ⟨4, 5⟩), (⟨.text, ['é']⟩, ⟨5, 7⟩),
          (⟨.stray, ['{', '{']⟩, ⟨7, 9⟩), (⟨.text, ['}']⟩, ⟨9, 10⟩)] ∧
      ∃ left, ReadsOn 4 left (⟨.stray, ['<']⟩, ⟨4, 5⟩)
        [(⟨.text, ['é']⟩, ⟨5, 7⟩), (⟨.stray, ['{', '{']⟩, ⟨7, 9⟩), (⟨.text, ['}']⟩, ⟨9, 10⟩)] := by
  have all : lex "\x7b\x7bé<é\x7b\x7b\x7d" =
      [(⟨.unterminatedInterpolation, ['{', '{']⟩, ⟨0, 2⟩), (⟨.text, ['é']⟩, ⟨2, 4⟩),
        (⟨.stray, ['<']⟩, ⟨4, 5⟩), (⟨.text, ['é']⟩, ⟨5, 7⟩),
        (⟨.stray, ['{', '{']⟩, ⟨7, 9⟩), (⟨.text, ['}']⟩, ⟨9, 10⟩)] := by
    cbv
  obtain ⟨partition, -, reads⟩ := lex_partitions "\x7b\x7bé<é\x7b\x7b\x7d"
  rw [all] at partition
  obtain ⟨left, -, readsOn⟩ := reads (_ :: [_]) _ _ all
  exact ⟨partition, left, readsOn⟩

end TemplateCompiler.Markup
