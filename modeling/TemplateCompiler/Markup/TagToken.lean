import TemplateCompiler.Markup.Token

/-!
# Tokens of one opening tag

The inside of an opening tag is a sequence of names, equals signs and quoted texts. Blanks
separate them, and characters that begin none of them are skipped, so that reading a tag never
fails. A quote that is not closed hides everything after it.

## Main definitions

* `Markup.TagToken` — the tokens of a tag
* `Markup.cutTagToken` — the token at the front, or `none` for skipped characters
* `Markup.tagPieces` — tokens and skipped characters, which together spell the tag
* `Markup.lexTag` — the tokens with their byte spans
-/
namespace TemplateCompiler.Markup

open Text

/-- A token inside an opening tag. -/
inductive TagToken where
  | tagName (name : String)
  /-- The name of an attribute, or a value without quotes. -/
  | word (text : String)
  | equals
  /-- The text between two quotes. -/
  | quoted (text : String)
  | selfClose
  | close
  deriving DecidableEq, Repr

/-- The token that an opening bracket begins. -/
def cutTagName (rest : List Char) : Option TagToken × Cut :=
  match tagName? rest with
  | some name => (some (.tagName (String.ofList name.taken)), name.cons '<')
  | none => (none, ⟨['<'], rest⟩)

/-- The token that the quote `q` begins. -/
def cutQuoted (q : Char) (rest : List Char) : Option TagToken × Cut :=
  let inner := cutRun (· != q) rest
  match inner.rest with
  | [] => (none, inner.cons q)
  | close :: tail =>
    (some (.quoted (String.ofList inner.taken)), ⟨q :: (inner.taken ++ [close]), tail⟩)

/-- The token that a slash begins. -/
def cutSlash : List Char → Option TagToken × Cut
  | '>' :: rest => (some .selfClose, ⟨['/', '>'], rest⟩)
  | rest => (none, ⟨['/'], rest⟩)

/-- The token at the front of tag text that begins with `c`. -/
def cutTagToken (c : Char) (rest : List Char) : Option TagToken × Cut :=
  if isMarkupBlank c then (none, ⟨[c], rest⟩)
  else if c = '<' then cutTagName rest
  else if c = '"' ∨ c = '\'' then cutQuoted c rest
  else if c = '/' then cutSlash rest
  else if c = '>' then (some .close, ⟨[c], rest⟩)
  else if c = '=' then (some .equals, ⟨[c], rest⟩)
  else
    let word := cutRun isAttributeNameChar rest
    (some (.word (String.ofList (c :: word.taken))), word.cons c)

theorem cutQuoted_of (q : Char) (rest : List Char) : (cutQuoted q rest).2.Of (q :: rest) := by
  have inner : _ ++ _ = _ := cutRun_of (· != q) rest
  simp only [cutQuoted]
  split
  · rename_i h
    exact (cutRun_of (· != q) rest).cons q
  · rename_i close tail h
    rw [h] at inner
    show q :: (_ ++ [close]) ++ tail = q :: rest
    rw [List.cons_append, List.append_assoc, List.cons_append, List.nil_append, inner]

/-- Cutting a tag's token loses nothing. -/
theorem cutTagToken_of (c : Char) (rest : List Char) : (cutTagToken c rest).2.Of (c :: rest) := by
  unfold cutTagToken
  split
  · rfl
  split
  · rename_i h
    rw [h]
    unfold cutTagName
    split
    · rename_i hn; exact (of_tagName? hn).cons '<'
    · rfl
  split
  · exact cutQuoted_of c rest
  split
  · rename_i h
    rw [h]
    unfold cutSlash
    split <;> rfl
  split
  · rfl
  split
  · rfl
  · exact (cutRun_of _ _).cons c

/-- A token or a skipped piece covers at least one character. -/
theorem taken_cutTagToken_ne_nil (c : Char) (rest : List Char) :
    (cutTagToken c rest).2.taken ≠ [] := by
  unfold cutTagToken
  split
  · simp
  split
  · unfold cutTagName; split <;> simp
  split
  · simp only [cutQuoted]; split <;> simp
  split
  · unfold cutSlash; split <;> simp
  split
  · simp
  split <;> simp

/-- The tokens of a tag and the skipped characters between them, in order. -/
def tagPieces : List Char → List (Option TagToken × List Char)
  | [] => []
  | c :: rest =>
    ((cutTagToken c rest).1, (cutTagToken c rest).2.taken) ::
      tagPieces (cutTagToken c rest).2.rest
termination_by cs => cs.length
decreasing_by exact (cutTagToken_of c rest).length_rest_lt (taken_cutTagToken_ne_nil c rest)

/-- Drop the skipped pieces and give each token its byte span; the first piece begins at
`offset`. -/
def positionedTag (offset : Nat) :
    List (Option TagToken × List Char) → List (TagToken × Span)
  | [] => []
  | (token?, text) :: rest =>
    let stop := offset + byteLength text
    match token? with
    | some token => (token, ⟨offset, stop⟩) :: positionedTag stop rest
    | none => positionedTag stop rest

/-- The tokens of a tag that begins at byte `offset`. -/
def lexTag (tag : List Char) (offset : Nat) : List (TagToken × Span) :=
  positionedTag offset (tagPieces tag)

end TemplateCompiler.Markup
