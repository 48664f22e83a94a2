import TemplateCompiler.Markup.Element
import TemplateCompiler.Proofs.Markup.Tiling

/-!
# Where the names and values of attributes stand

An opening tag is read as names, equals signs and quoted texts, and what is none of these is
skipped. The value of an attribute therefore stands between two characters that no name has: the
quotes around it, or what ends the run of characters that it is. Values come one after the other
with such characters between them.

## Main definitions

* `Markup.Laid` — tokens lie in a tag, one after the other
* `Markup.Fenced` — a value stands in a text between two characters that no name has
* `Markup.Spread` — values are fenced and lie apart

## Main statements

* `Markup.laid_lexTag` — the tokens of a tag lie in it
* `Markup.spread_of_laid` — the values among tokens that are laid are spread
* `Markup.spread_ofTag` — so are those of an opening tag
* `Markup.covers_name_ofTag` — where the names of attributes stand
-/
namespace TemplateCompiler.Markup

open Text

/-! ## Characters that no name has -/

/-- What separates names: blanks, quotes, brackets, slashes and equals signs. -/
def isFence (c : Char) : Bool := !isAttributeNameChar c

theorem utf8Size_of_isFence {c : Char} (h : isFence c = true) : c.utf8Size = 1 := by
  simp only [isFence, isAttributeNameChar, isMarkupBlank, Bool.not_not, Bool.or_eq_true,
    beq_iff_eq] at h
  rcases h with (((((((((rfl | rfl) | rfl) | rfl) | rfl) | rfl) | rfl) | rfl) | rfl) | rfl) <;> rfl

/-! ## Tokens in a tag -/

/-- The characters `body`, followed by `rest`, are those of the token. -/
def TagToken.Spells (body rest : List Char) : TagToken → Prop
  | .word text => body = text.toList ∧ body ≠ [] ∧ body.all isAttributeNameChar = true ∧
      rest.head?.all isFence = true
  | .quoted text => ∃ q, isFence q = true ∧ body = q :: (text.toList ++ [q])
  | .equals => body = ['=']
  | .tagName _ | .selfClose | .close => True

/-- In a tag that begins at byte `position`, the tokens lie one after the other at their spans,
and nothing but fences lies between them. -/
inductive Laid : Nat → List Char → List (TagToken × Span) → Prop where
  | nil (position : Nat) (text : List Char) : Laid position text []
  | cons {position : Nat} {rest : List Char} {tokens : List (TagToken × Span)}
    (gap body : List Char) (token : TagToken) :
    gap.all isFence = true → token.Spells body rest →
      Laid (position + byteLength gap + byteLength body) rest tokens →
        Laid position (gap ++ (body ++ rest))
          ((token, ⟨position + byteLength gap, position + byteLength gap + byteLength body⟩) ::
            tokens)

/-- Fences in front of the text stay between tokens. -/
theorem Laid.behind {position : Nat} {text : List Char} {tokens : List (TagToken × Span)}
    (front : List Char) (fences : front.all isFence = true)
    (h : Laid (position + byteLength front) text tokens) :
    Laid position (front ++ text) tokens := by
  cases h with
  | nil => exact .nil _ _
  | cons gap body token gapFences spells rest =>
    have gaps : (front ++ gap).all isFence = true := by
      rw [List.all_append, fences, gapFences]
      rfl
    rw [Nat.add_assoc position, ← byteLength_append] at rest ⊢
    rw [← List.append_assoc]
    exact Laid.cons (front ++ gap) body token gaps spells rest

theorem head_dropWhile_fence (cs : List Char) :
    (cs.dropWhile isAttributeNameChar).head?.all isFence = true := by
  rw [Option.all_eq_true]
  intro c hc
  have := List.head?_dropWhile_not isAttributeNameChar cs
  rw [Option.mem_def.mp hc] at this
  simpa [isFence] using this

/-- What is cut from the front of a tag is a token with its characters, or fences that are skipped.
A quoted text that is not closed is skipped with all that follows it. -/
def Spelled (piece : Option TagToken × Cut) : Prop :=
  match piece.1 with
  | some token => token.Spells piece.2.taken piece.2.rest
  | none => piece.2.taken.all isFence = true ∨ piece.2.rest = []

theorem spelled_cutTagName (rest : List Char) : Spelled (cutTagName rest) := by
  rw [cutTagName]
  split
  · trivial
  · exact Or.inl rfl

theorem spelled_cutQuoted {q : Char} (hq : isFence q = true) (rest : List Char) :
    Spelled (cutQuoted q rest) := by
  simp only [cutQuoted]
  split
  case h_1 hidden => exact Or.inr hidden
  case h_2 close tail hinner =>
    -- the run of the quoted text ends at a quote of the same kind
    have same : close = q := by
      have ends := List.head?_dropWhile_not (· != q) rest
      rw [← cutRun_rest, hinner] at ends
      simpa using ends
    exact ⟨q, hq, by simp [same]⟩

theorem spelled_cutSlash (rest : List Char) : Spelled (cutSlash rest) := by
  unfold cutSlash
  split
  · trivial
  · exact Or.inl rfl

/-- **What is cut from the front of a tag** is spelled by its characters, or skipped. -/
theorem spelled_cutTagToken (c : Char) (rest : List Char) : Spelled (cutTagToken c rest) := by
  rw [cutTagToken]
  split
  case isTrue blank =>
    left
    simp [isFence, isAttributeNameChar, blank]
  split
  · exact spelled_cutTagName rest
  split
  case isTrue quote =>
    refine spelled_cutQuoted ?_ rest
    rcases quote with rfl | rfl <;> rfl
  split
  · exact spelled_cutSlash rest
  split
  · trivial
  split
  case isTrue equals => exact congrArg (fun d => [d]) equals
  case isFalse blank bracket quote slash close equals =>
    have name : isAttributeNameChar c = true := by
      simp only [not_or] at quote
      simp [isAttributeNameChar, blank, bracket, quote, slash, close, equals]
    refine ⟨by simp, by simp, ?_, head_dropWhile_fence rest⟩
    rw [Cut.taken_cons, List.all_cons, name, cutRun_taken, List.all_takeWhile]
    rfl

/-- **The tokens of a tag lie in it.** -/
theorem laid_lexTag (tag : List Char) (position : Nat) :
    Laid position tag (lexTag tag position) := by
  rw [lexTag]
  fun_induction tagPieces tag generalizing position with
  | case1 => exact .nil _ _
  | case2 c rest ih =>
    have whole : (cutTagToken c rest).2.taken ++ (cutTagToken c rest).2.rest = c :: rest :=
      cutTagToken_of c rest
    have tail := ih (position + byteLength (cutTagToken c rest).2.taken)
    have spelled := spelled_cutTagToken c rest
    generalize cutTagToken c rest = piece at whole tail spelled
    obtain ⟨token?, cut⟩ := piece
    rw [← whole]
    cases token? with
    | some token => exact Laid.cons [] cut.taken token rfl spelled tail
    | none =>
      simp only [positionedTag]
      rcases spelled with fences | hidden
      · exact tail.behind _ fences
      · have ended : cut.rest = [] := hidden
        simp only [ended, tagPieces, positionedTag]
        exact .nil _ _

/-! ## Values -/

/-- In text that begins at byte `position`, the value stands between two characters that no name
has. Something stands before them, since a value belongs to a name. -/
def Fenced (position : Nat) (text : List Char) (value : Located) : Prop :=
  ∃ (before : List Char) (left right : Char) (behind : List Char),
    text = before ++ (left :: (value.text.toList ++ right :: behind)) ∧
      isFence left = true ∧ isFence right = true ∧ before ≠ [] ∧
      value.span = ⟨position + byteLength before + 1,
        position + byteLength before + 1 + byteLength value.text.toList⟩

theorem Fenced.behind {position : Nat} {text : List Char} {value : Located} (front : List Char)
    (h : Fenced (position + byteLength front) text value) :
    Fenced position (front ++ text) value := by
  obtain ⟨before, left, right, behind, rfl, hleft, hright, hbefore, hspan⟩ := h
  refine ⟨front ++ before, left, right, behind, by rw [List.append_assoc], hleft, hright, ?_, ?_⟩
  · simp [hbefore]
  · simp [hspan, Nat.add_assoc]

theorem Fenced.lt_start {position : Nat} {text : List Char} {value : Located}
    (h : Fenced position text value) : position + 2 ≤ value.span.start := by
  obtain ⟨before, left, right, behind, -, -, -, hbefore, hspan⟩ := h
  obtain ⟨c, rest, rfl⟩ := List.exists_cons_of_ne_nil hbefore
  have := c.utf8Size_pos
  rw [hspan, byteLength_cons]
  show _ ≤ position + (c.utf8Size + byteLength rest) + 1
  omega

/-- A value stands where its span says. -/
theorem Fenced.covers {position : Nat} {text : List Char} {value : Located}
    (h : Fenced position text value) : Covers position text value.span value.text.toList := by
  obtain ⟨before, left, right, behind, rfl, hleft, -, -, hspan⟩ := h
  refine ⟨before ++ [left], right :: behind, by simp, ?_⟩
  rw [hspan, byteLength_append, byteLength_cons, byteLength_nil, utf8Size_of_isFence hleft]
  simp [Nat.add_assoc]

/-- The values among attributes. -/
def valuesOf (attributes : List Attribute) : List Located := attributes.filterMap Attribute.value

/-- Text that ends in a fence has one at the end of each part that is not empty. -/
theorem fence_at_end_of_append (front : List Char) {rest : List Char}
    (h : (front ++ rest).getLast?.all isFence = true) : rest.getLast?.all isFence = true := by
  rw [List.getLast?_append] at h
  cases hrest : rest.getLast? with
  | none => rfl
  | some c => simpa [hrest] using h

/-- A word that a fence follows sooner or later is followed by one at once. -/
theorem exists_fence_after_word {text : String} {body rest : List Char}
    (spells : (TagToken.word text).Spells body rest)
    (h : (body ++ rest).getLast?.all isFence = true) :
    ∃ right behind, rest = right :: behind ∧ isFence right = true := by
  obtain ⟨-, hne, names, after⟩ := spells
  cases rest with
  | cons right behind => exact ⟨right, behind, rfl, by simpa using after⟩
  | nil =>
    -- the last character would be one of the word
    have last := List.getLast?_eq_some_getLast hne
    have := List.all_eq_true.mp names _ (List.getLast_mem hne)
    rw [List.append_nil, last] at h
    simp [isFence, this] at h

/-- The values are fenced in the text and lie apart in it. -/
structure Spread (position : Nat) (text : List Char) (values : List Located) : Prop where
  fenced : ∀ value ∈ values, Fenced position text value
  apart : values.Pairwise fun a b => a.span.stop + 2 ≤ b.span.start

theorem Spread.nil (position : Nat) (text : List Char) : Spread position text [] :=
  ⟨by simp, .nil⟩

theorem Spread.behind {position : Nat} {text : List Char} {values : List Located}
    (front : List Char) (h : Spread (position + byteLength front) text values) :
    Spread position (front ++ text) values :=
  ⟨fun value mem => (h.fenced value mem).behind front, h.apart⟩

/-- One more value in front of others. -/
theorem Spread.cons {position : Nat} {front text : List Char} {values : List Located}
    {value : Located} (fenced : Fenced position (front ++ text) value)
    (h : Spread (position + byteLength front) text values)
    (stop : value.span.stop ≤ position + byteLength front) :
    Spread position (front ++ text) (value :: values) := by
  refine ⟨?_, .cons ?_ h.apart⟩
  · intro other mem
    rcases List.mem_cons.mp mem with rfl | mem
    · exact fenced
    · exact (h.fenced other mem).behind front
  · intro other mem
    have := (h.fenced other mem).lt_start
    omega

/-- Tokens lie in what follows the first one. -/
theorem Laid.uncons {position : Nat} {text : List Char} {token : TagToken} {span : Span}
    {tokens : List (TagToken × Span)} (h : Laid position text ((token, span) :: tokens)) :
    ∃ gap body rest, text = gap ++ (body ++ rest) ∧ gap.all isFence = true ∧
      token.Spells body rest ∧
      span = ⟨position + byteLength gap, position + byteLength gap + byteLength body⟩ ∧
      Laid (position + byteLength (gap ++ body)) rest tokens := by
  cases h with
  | cons gap body _ fences spells rest =>
    exact ⟨gap, body, _, rfl, fences, spells, rfl, by rwa [byteLength_append, ← Nat.add_assoc]⟩

/-- A name and an equals sign take a part of the text that is not empty. -/
theorem Laid.unassign {position : Nat} {text : List Char} {name : String} {span span' : Span}
    {tokens : List (TagToken × Span)}
    (h : Laid position text ((.word name, span) :: (.equals, span') :: tokens)) :
    ∃ front rest, text = front ++ ('=' :: rest) ∧ front ≠ [] ∧
      Laid (position + byteLength (front ++ ['='])) rest tokens := by
  obtain ⟨gap, word, _, rfl, -, ⟨-, hword, -⟩, -, h⟩ := h.uncons
  obtain ⟨gap', _, rest, rfl, -, rfl, -, h⟩ := h.uncons
  refine ⟨gap ++ word ++ gap', rest, by simp, by simp [hword], ?_⟩
  simpa [Nat.add_assoc] using h

/-- A word that is a value stands behind a fence: the equals sign, or the last one of the gap. -/
theorem exists_fence_in_front {gap : List Char} (fences : gap.all isFence = true) :
    ∃ init left, '=' :: gap = init ++ [left] ∧ isFence left = true := by
  obtain ⟨init, left, hleft⟩ : ∃ init left, '=' :: gap = init ++ [left] :=
    ⟨_, _, (List.dropLast_concat_getLast (List.cons_ne_nil '=' gap)).symm⟩
  refine ⟨init, left, hleft, ?_⟩
  have all : ('=' :: gap).all isFence = true := by
    rw [List.all_cons, fences]
    rfl
  rw [hleft, List.all_append, Bool.and_eq_true] at all
  simpa using all.2

/-- **The values of attributes are spread over the text** that their tokens are laid in. -/
theorem spread_of_laid {position : Nat} {text : List Char} {tokens : List (TagToken × Span)}
    (h : Laid position text tokens) (last : text.getLast?.all isFence = true) :
    Spread position text (valuesOf (attributesOf tokens)) := by
  fun_induction attributesOf tokens generalizing position text with
  | case1 name at_ at_' value span rest ih =>
    -- a quoted value stands between its quotes
    obtain ⟨front, _, rfl, hfront, assigned⟩ := h.unassign
    obtain ⟨gap, _, tail, rfl, -, ⟨q, hq, rfl⟩, rfl, behind⟩ := assigned.uncons
    have split : front ++ '=' :: (gap ++ (q :: (value.toList ++ [q]) ++ tail)) =
        (front ++ '=' :: (gap ++ q :: (value.toList ++ [q]))) ++ tail := by simp
    rw [split] at last ⊢
    have quote := utf8Size_of_isFence hq
    refine Spread.cons ?_ (ih ?_ (fence_at_end_of_append _ last)) ?_
    · refine ⟨front ++ '=' :: gap, q, q, tail, by simp, hq, hq, by simp, ?_⟩
      simp [quote]
      omega
    · simpa [Nat.add_assoc] using behind
    · simp [quote]
      omega
  | case2 name at_ at_' value span rest ih =>
    -- a word stands between a fence in front of it and the one that ends it
    obtain ⟨front, _, rfl, hfront, assigned⟩ := h.unassign
    obtain ⟨gap, body, tail, rfl, fences, spells, rfl, behind⟩ := assigned.uncons
    have split : front ++ '=' :: (gap ++ (body ++ tail)) =
        (front ++ '=' :: (gap ++ body)) ++ tail := by simp
    rw [split] at last ⊢
    obtain ⟨right, more, rfl, hright⟩ := exists_fence_after_word spells
      (fence_at_end_of_append (front ++ '=' :: gap) (by simpa using last))
    obtain ⟨init, left, hleft, fence⟩ := exists_fence_in_front fences
    obtain rfl : body = value.toList := spells.1
    refine Spread.cons ?_ (ih ?_ (fence_at_end_of_append _ last)) ?_
    · refine ⟨front ++ init, left, right, more, ?_, fence, hright, by simp [hfront], ?_⟩
      · rw [← List.cons_append, hleft]
        simp
      · have length := congrArg byteLength hleft
        simp [utf8Size_of_isFence fence] at length
        simp
        omega
    · simpa [Nat.add_assoc] using behind
    · simp
      omega
  | case3 name at_ at_' rest _ _ ih =>
    obtain ⟨front, tail, rfl, -, h⟩ := h.unassign
    have split : front ++ '=' :: tail = (front ++ ['=']) ++ tail := by simp
    rw [split] at last ⊢
    exact (ih h (fence_at_end_of_append _ last)).behind _
  | case4 name at_ rest _ _ _ ih =>
    obtain ⟨gap, body, tail, rfl, -, -, -, h⟩ := h.uncons
    rw [← List.append_assoc] at last ⊢
    exact (ih h (fence_at_end_of_append _ last)).behind _
  | case5 token rest _ _ _ _ ih =>
    obtain ⟨gap, body, tail, rfl, -, -, -, h⟩ := h.uncons
    rw [← List.append_assoc] at last ⊢
    exact (ih h (fence_at_end_of_append _ last)).behind _
  | case6 => exact .nil _ _

/-- **The values of an opening tag are spread over it.** -/
theorem spread_ofTag (inner : List Char) (offset : Nat) :
    Spread offset ('<' :: (inner ++ ['>']))
      (valuesOf (Element.ofTag ('<' :: (inner ++ ['>'])) offset).attributes) := by
  refine spread_of_laid (laid_lexTag _ _) ?_
  rw [← List.cons_append, List.getLast?_concat]
  rfl

/-! ## Names -/

/-- A word that lies in a tag stands where its span says. -/
theorem Laid.covers_word {position : Nat} {text : List Char} {tokens : List (TagToken × Span)}
    (h : Laid position text tokens) {word : String} {span : Span}
    (mem : (.word word, span) ∈ tokens) : Covers position text span word.toList := by
  induction h with
  | nil => cases mem
  | cons gap body token fences spells laid ih =>
    rcases List.mem_cons.mp mem with same | mem
    · obtain ⟨rfl, rfl⟩ := Prod.mk.inj same
      exact ⟨gap, _, by rw [spells.1], by rw [spells.1]⟩
    · rw [← List.append_assoc]
      refine (Covers.behind (gap ++ body) ?_)
      rw [byteLength_append, ← Nat.add_assoc]
      exact ih mem

/-- The name of an attribute is one of the words. -/
theorem word_mem_of_mem_attributesOf {tokens : List (TagToken × Span)} {a : Attribute}
    (mem : a ∈ attributesOf tokens) : (.word a.name.text, a.name.span) ∈ tokens := by
  fun_induction attributesOf tokens with
  | case1 | case2 | case3 | case4 | case5 => grind
  | case6 => cases mem

/-- **The name of an attribute stands where its span says.** -/
theorem covers_name_ofTag {tag : List Char} {offset : Nat} {a : Attribute}
    (mem : a ∈ (Element.ofTag tag offset).attributes) :
    Covers offset tag a.name.span a.name.text.toList :=
  (laid_lexTag tag offset).covers_word (word_mem_of_mem_attributesOf mem)

end TemplateCompiler.Markup
