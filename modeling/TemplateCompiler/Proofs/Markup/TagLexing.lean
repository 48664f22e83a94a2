import TemplateCompiler.Proofs.Markup.Values
import TemplateCompiler.Proofs.Text.Run

/-!
# Reading a tag step by step

What the reader of a tag makes of the text in front of it: one lemma for each kind of token and
one for what is skipped. With them a tag whose parts are known is read from left to right, and
nothing behind a part has to be known but its first character.

## Main statements

* `Markup.lexTag_skip`, `Markup.lexTag_blanks` — what is no token
* `Markup.lexTag_word`, `Markup.lexTag_quoted`, `Markup.lexTag_equals` — the parts of attributes
* `Markup.lexTag_tagName`, `Markup.lexTag_close`, `Markup.lexTag_selfClose` — the ends of a tag
-/
namespace TemplateCompiler.Markup

open Text

variable {c q : Char} {word text name cs : List Char}

/-! ## One step -/

/-- A token at the front of a tag. -/
theorem lexTag_of_token {token : TagToken} {cut : Cut}
    (front : cutTagToken c cs = (some token, cut)) (offset : Nat) :
    lexTag (c :: cs) offset =
      (token, ⟨offset, offset + byteLength cut.taken⟩) ::
        lexTag cut.rest (offset + byteLength cut.taken) := by
  rw [lexTag, tagPieces, front]
  rfl

/-- Skipped characters at the front of a tag. -/
theorem lexTag_of_skipped {cut : Cut} (front : cutTagToken c cs = (none, cut)) (offset : Nat) :
    lexTag (c :: cs) offset = lexTag cut.rest (offset + byteLength cut.taken) := by
  rw [lexTag, tagPieces, front]
  rfl

@[simp] theorem lexTag_nil (offset : Nat) : lexTag [] offset = [] := by
  simp [lexTag, tagPieces, positionedTag]

/-- A blank is skipped, and so is a slash that does not close the tag. -/
theorem lexTag_skip (skipped : isMarkupBlank c = true ∨ c = '/' ∧ cs.head? ≠ some '>')
    (offset : Nat) : lexTag (c :: cs) offset = lexTag cs (offset + c.utf8Size) := by
  have front : cutTagToken c cs = (none, ⟨[c], cs⟩) := by
    rcases skipped with blank | ⟨rfl, open_⟩
    · simp [cutTagToken, blank]
    · have slash : cutSlash cs = (none, ⟨['/'], cs⟩) := by
        unfold cutSlash
        split
        · exact absurd rfl open_
        · rfl
      simp [cutTagToken, isMarkupBlank, slash]
  simpa using lexTag_of_skipped front offset

/-- Blanks are skipped. -/
theorem lexTag_blanks {blanks : List Char} (blank : blanks.all isMarkupBlank = true)
    (cs : List Char) (offset : Nat) :
    lexTag (blanks ++ cs) offset = lexTag cs (offset + byteLength blanks) := by
  induction blanks generalizing offset with
  | nil => rfl
  | cons c blanks ih =>
    rw [List.all_cons, Bool.and_eq_true] at blank
    rw [List.cons_append, lexTag_skip (.inl blank.1), ih blank.2, byteLength_cons, Nat.add_assoc]

/-- A word is read to its end. -/
theorem lexTag_word (nonempty : word ≠ []) (names : word.all isAttributeNameChar = true)
    (border : cs.head?.all isFence = true) (offset : Nat) :
    lexTag (word ++ cs) offset =
      (.word (String.ofList word), ⟨offset, offset + byteLength word⟩) ::
        lexTag cs (offset + byteLength word) := by
  obtain ⟨c, word, rfl⟩ := List.exists_cons_of_ne_nil nonempty
  rw [List.all_cons, Bool.and_eq_true] at names
  have stop : cs.head?.any isAttributeNameChar = false := by
    cases cs with
    | nil => rfl
    | cons d cs => simpa [isFence] using border
  have first := names.1
  simp only [isAttributeNameChar, Bool.not_eq_true', Bool.or_eq_false_iff, beq_eq_false_iff_ne]
    at first
  obtain ⟨⟨⟨⟨⟨⟨blank, double⟩, single⟩, less⟩, greater⟩, slash⟩, equals⟩ := first
  have front : cutTagToken c (word ++ cs) =
      (some (.word (String.ofList (c :: word))), ⟨c :: word, cs⟩) := by
    simp [cutTagToken, blank, double, single, less, greater, slash, equals,
      takeWhile_run names.2 stop, dropWhile_run names.2 stop, Cut.cons, cutRun]
  exact lexTag_of_token front offset

/-- A quoted text is read to its closing quote. -/
theorem lexTag_quoted (quote : q = '"' ∨ q = '\'') (absent : q ∉ text) (offset : Nat) :
    lexTag (q :: (text ++ q :: cs)) offset =
      (.quoted (String.ofList text), ⟨offset, offset + byteLength (q :: (text ++ [q]))⟩) ::
        lexTag cs (offset + byteLength (q :: (text ++ [q]))) := by
  have inside : text.all (· != q) = true := by
    rw [List.all_eq_true]
    intro d mem
    exact bne_iff_ne.mpr fun same => absent (same ▸ mem)
  have border : (q :: cs).head?.any (· != q) = false := by simp
  have front : cutTagToken q (text ++ q :: cs) =
      (some (.quoted (String.ofList text)), ⟨q :: (text ++ [q]), cs⟩) := by
    have blank : isMarkupBlank q = false := by rcases quote with rfl | rfl <;> rfl
    have bracket : q ≠ '<' := by rcases quote with rfl | rfl <;> decide
    rw [cutTagToken, if_neg (by simp [blank]), if_neg bracket, if_pos quote, cutQuoted,
      cutRun_run inside border]
  exact lexTag_of_token front offset

/-- An equals sign. -/
theorem lexTag_equals (cs : List Char) (offset : Nat) :
    lexTag ('=' :: cs) offset = (.equals, ⟨offset, offset + 1⟩) :: lexTag cs (offset + 1) := by
  have front : cutTagToken '=' cs = (some .equals, ⟨['='], cs⟩) := rfl
  exact lexTag_of_token front offset

/-- The bracket that closes a tag. -/
theorem lexTag_close (cs : List Char) (offset : Nat) :
    lexTag ('>' :: cs) offset = (.close, ⟨offset, offset + 1⟩) :: lexTag cs (offset + 1) := by
  have front : cutTagToken '>' cs = (some .close, ⟨['>'], cs⟩) := rfl
  exact lexTag_of_token front offset

/-- The slash and bracket that close a tag. -/
theorem lexTag_selfClose (cs : List Char) (offset : Nat) :
    lexTag ('/' :: '>' :: cs) offset =
      (.selfClose, ⟨offset, offset + 2⟩) :: lexTag cs (offset + 2) := by
  have front : cutTagToken '/' ('>' :: cs) = (some .selfClose, ⟨['/', '>'], cs⟩) := rfl
  exact lexTag_of_token front offset

/-- A fence does not go on with a tag's name. -/
theorem isTagNameChar_of_isFence (fence : isFence c = true) : isTagNameChar c = false := by
  simp only [isFence, isAttributeNameChar, isMarkupBlank, Bool.not_not, Bool.or_eq_true,
    beq_iff_eq] at fence
  rcases fence with (((((((((rfl | rfl) | rfl) | rfl) | rfl) | rfl) | rfl) | rfl) | rfl) | rfl) <;>
    rfl

/-- The name of a tag is read to its end. -/
theorem tagName?_append (named : tagName? name = some ⟨name, []⟩)
    (border : cs.head?.all isFence = true) : tagName? (name ++ cs) = some ⟨name, cs⟩ := by
  cases name with
  | nil => cases named
  | cons c name =>
    rw [tagName?] at named
    split at named
    · rename_i alpha
      have all : name.all isTagNameChar = true := by
        have taken := congrArg Cut.taken (Option.some.inj named)
        rw [Cut.taken_cons, cutRun_taken, List.cons.injEq] at taken
        rw [← taken.2]
        exact List.all_takeWhile
      have stop : cs.head?.any isTagNameChar = false := by
        cases cs with
        | nil => rfl
        | cons d cs => exact isTagNameChar_of_isFence border
      rw [List.cons_append, tagName?, if_pos alpha, cutRun_run all stop]
      rfl
    · cases named

/-- The bracket that opens a tag, with the tag's name. -/
theorem lexTag_tagName (named : tagName? name = some ⟨name, []⟩)
    (border : cs.head?.all isFence = true) (offset : Nat) :
    lexTag ('<' :: (name ++ cs)) offset =
      (.tagName (String.ofList name), ⟨offset, offset + byteLength ('<' :: name)⟩) ::
        lexTag cs (offset + byteLength ('<' :: name)) := by
  have front : cutTagToken '<' (name ++ cs) =
      (some (.tagName (String.ofList name)), ⟨'<' :: name, cs⟩) := by
    simp [cutTagToken, isMarkupBlank, cutTagName, tagName?_append named border, Cut.cons]
  exact lexTag_of_token front offset

end TemplateCompiler.Markup
