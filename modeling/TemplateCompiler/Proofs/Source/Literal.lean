import Mathlib
import TemplateCompiler.Proofs.Json.Leaves
import TemplateCompiler.Resource

/-!
# Text literals read back

The text of a template is written into the resource as one literal or as a series of appended
literals, and a target compiler reads it back from there. The reader is described here without the
writer: a backslash escapes the character behind it, a literal neither holds a quote that is not
escaped nor goes over the end of its line, and what is appended is put together in order. Read in
this way the lines of the accessor give the text that the compiled view holds.

## Main definitions

* `Literal.unescape?` — the text that a literal denotes
* `Literal.Body`, `Literal.Body.read?` — what the lines of an accessor say
* `Literal.Returns` — the lines return a text within a budget

## Main statements

* `Literal.unescape?_escape` — escapes are undone
* `Literal.returns_statements` — the statements of an accessor return its text
* `Literal.text_is_returned` — the accessor of the resource returns the text of the compiled view
-/
namespace TemplateCompiler

open Text

namespace Literal

/-! ## Escapes -/

/-- The character that a letter behind a backslash stands for. -/
def letterEscape? (letter : Char) : Option Char :=
  if letter = '\\' ∨ letter = '"' then some letter
  else if letter = 'n' then some '\n'
  else if letter = 'r' then some '\r'
  else if letter = 't' then some '\t'
  else none

/-- The text that stands between the quotes of a literal, with its escapes undone. There is none if
a quote or the end of a line comes before the end of the literal. -/
def unescape? : List Char → Option (List Char)
  | [] => some []
  | '\\' :: 'u' :: a :: b :: c :: d :: rest => do
    let code ← Json.ofHex? [a, b, c, d]
    pure (Char.ofNat code :: (← unescape? rest))
  | '\\' :: letter :: rest => do
    let c ← letterEscape? letter
    pure (c :: (← unescape? rest))
  | c :: rest => do
    if c = '\\' ∨ c = '"' ∨ c = '\n' ∨ c = '\r' then none
    pure (c :: (← unescape? rest))

/-- Whether there is a quote that no backslash escapes. -/
def hasBareQuote : List Char → Bool
  | [] => false
  | '\\' :: _ :: rest => hasBareQuote rest
  | c :: rest => c == '"' || hasBareQuote rest

/-- A character that stands for itself in a literal. -/
def IsPlain (c : Char) : Prop := c ≠ '\\' ∧ c ≠ '"' ∧ c ≠ '\n' ∧ c ≠ '\r'

/-- A character is escaped by a letter or by its number, or it stands for itself. -/
theorem escapeChar_cases (c : Char) :
    (∃ letter, escapeChar c = ['\\', letter] ∧ letter ≠ 'u' ∧ letterEscape? letter = some c) ∨
      (c.toNat < 0x20 ∧
        escapeChar c = ['\\', 'u', '0', '0', hexDigit (c.toNat / 16), hexDigit c.toNat]) ∨
      (IsPlain c ∧ escapeChar c = [c]) := by
  unfold escapeChar
  split_ifs with backslash quote feed ret tab control
  · exact .inl ⟨'\\', rfl, by decide, by rw [backslash]; rfl⟩
  · exact .inl ⟨'"', rfl, by decide, by rw [quote]; rfl⟩
  · exact .inl ⟨'n', rfl, by decide, by rw [feed]; rfl⟩
  · exact .inl ⟨'r', rfl, by decide, by rw [ret]; rfl⟩
  · exact .inl ⟨'t', rfl, by decide, by rw [tab]; rfl⟩
  · exact .inr (.inl ⟨control, rfl⟩)
  · exact .inr (.inr ⟨⟨backslash, quote, feed, ret⟩, rfl⟩)

instance : DecidablePred IsPlain := fun _ => inferInstanceAs (Decidable (_ ∧ _ ∧ _ ∧ _))

theorem isPlain_hexDigit (n : Nat) : IsPlain (hexDigit n) := by
  have digits : ∀ k < 16, IsPlain (Nat.digitChar k) := by decide
  exact digits _ (Nat.mod_lt n (by decide))

theorem unescape?_of_isPlain {c : Char} (plain : IsPlain c) (rest : List Char) :
    unescape? (c :: rest) = (unescape? rest).map (c :: ·) := by
  obtain ⟨backslash, quote, feed, ret⟩ := plain
  rw [unescape?]
  · cases unescape? rest <;> simp [backslash, quote, feed, ret]
  all_goals
    intros
    simp_all

/-- The escape of one character is undone. -/
theorem unescape?_escapeChar (c : Char) (rest : List Char) :
    unescape? (escapeChar c ++ rest) = (unescape? rest).map (c :: ·) := by
  rcases escapeChar_cases c with ⟨letter, escaped, other, back⟩ | ⟨control, escaped⟩ |
    ⟨plain, escaped⟩
  · rw [escaped, List.cons_append, List.cons_append, List.nil_append, unescape?, back]
    · cases unescape? rest <;> rfl
    · intro a b c d rest same
      exact absurd same other
  · rw [escaped]
    simp only [List.cons_append, List.nil_append]
    rw [unescape?, Json.ofHex?_hexDigits control]
    cases unescape? rest <;> simp
  · rw [escaped]
    exact unescape?_of_isPlain plain rest

/-- **Escapes are undone.** -/
theorem unescape?_escape (cs : List Char) : unescape? (escape cs) = some cs := by
  induction cs with
  | nil => rfl
  | cons c rest ih =>
    rw [escape, List.flatMap_cons, unescape?_escapeChar, ← escape, ih]
    rfl

theorem hasBareQuote_of_isPlain {c : Char} (plain : IsPlain c) (rest : List Char) :
    hasBareQuote (c :: rest) = hasBareQuote rest := by
  rw [hasBareQuote]
  · simp [plain.2.1]
  · intro _ _ same
    exact absurd same plain.1

/-- Every quote in an escaped text is escaped. -/
theorem hasBareQuote_escape (cs : List Char) : hasBareQuote (escape cs) = false := by
  induction cs with
  | nil => rfl
  | cons c rest ih =>
    rw [escape, List.flatMap_cons, ← escape]
    rcases escapeChar_cases c with ⟨letter, escaped, -⟩ | ⟨control, escaped⟩ | ⟨plain, escaped⟩
    · rw [escaped]
      exact ih
    · rw [escaped]
      simp only [List.cons_append, List.nil_append]
      rw [hasBareQuote, hasBareQuote_of_isPlain (by decide), hasBareQuote_of_isPlain (by decide),
        hasBareQuote_of_isPlain (isPlain_hexDigit _), hasBareQuote_of_isPlain (isPlain_hexDigit _),
        ih]
    · rw [escaped, List.singleton_append, hasBareQuote_of_isPlain plain, ih]

/-- An escaped text does not end its line. -/
theorem not_lineEnd_of_mem_escape {c : Char} {cs : List Char} (mem : c ∈ escape cs) :
    c ≠ '\n' ∧ c ≠ '\r' := by
  obtain ⟨d, -, inEscape⟩ := List.mem_flatMap.mp mem
  rcases escapeChar_cases d with ⟨letter, escaped, -, back⟩ | ⟨control, escaped⟩ | ⟨plain, escaped⟩
  · rw [escaped, List.mem_pair] at inEscape
    rcases inEscape with rfl | rfl
    · decide
    · constructor <;> rintro rfl <;> cases back
  · rw [escaped] at inEscape
    simp only [List.mem_cons, List.not_mem_nil, or_false] at inEscape
    rcases inEscape with rfl | rfl | rfl | rfl | rfl | rfl
    · decide
    · decide
    · decide
    · decide
    · exact (isPlain_hexDigit _).2.2
    · exact (isPlain_hexDigit _).2.2
  · obtain rfl := List.mem_singleton.mp (escaped ▸ inEscape)
    exact plain.2.2

/-! ## Pieces -/

/-- No piece is empty, and none is longer than the size. -/
theorem length_of_mem_chunks {size : Nat} {cs piece : List Char} (mem : piece ∈ chunks size cs) :
    piece ≠ [] ∧ piece.length ≤ max size 1 := by
  fun_induction chunks size cs with
  | case1 => cases mem
  | case2 cs nonempty ih =>
    rcases List.mem_cons.mp mem with rfl | behind
    · have first : 0 < cs.length := List.length_pos_iff.mpr nonempty
      rw [← List.length_pos_iff, List.length_take]
      omega
    · exact ih behind

/-- All pieces but the last one have the size. -/
theorem length_of_mem_dropLast_chunks {size : Nat} {cs piece : List Char}
    (mem : piece ∈ (chunks size cs).dropLast) : piece.length = max size 1 := by
  fun_induction chunks size cs with
  | case1 => cases mem
  | case2 cs nonempty ih =>
    cases more : chunks size (cs.drop (max size 1)) with
    | nil => simp [more] at mem
    | cons next others =>
      rw [more, List.dropLast_cons_cons] at mem
      rcases List.mem_cons.mp mem with rfl | behind
      · -- something is left for the next piece
        have left : cs.drop (max size 1) ≠ [] := by
          intro none
          rw [none, chunks_nil] at more
          cases more
        have longer := List.length_pos_iff.mpr left
        rw [List.length_drop] at longer
        rw [List.length_take]
        omega
      · exact ih (more ▸ behind)

/-- A character takes four bytes at most. -/
theorem byteLength_le (cs : List Char) : byteLength cs ≤ 4 * cs.length := by
  induction cs with
  | nil => simp
  | cons c rest ih =>
    have le := c.utf8Size_le_four
    rw [byteLength_cons, List.length_cons]
    omega

/-! ## The lines of an accessor -/

/-- What the lines of an accessor say. -/
inductive Body where
  /-- One literal is returned. -/
  | returned (literal : List Char)
  /-- Literals are appended in this order, and the whole is returned. -/
  | appended (literals : List (List Char))

namespace Body

/-- The literals, without their quotes. -/
def literals : Body → List (List Char)
  | returned literal => [literal]
  | appended literals => literals

/-- The statement in a line, without the blanks in front of it. -/
def statement (line : List Char) : List Char := line.dropWhile (· == ' ')

/-- The literal that stands between a lead and a tail in a statement. -/
def literal? (lead tail : String) (line : List Char) : Option (List Char) :=
  (after? (lead.toList ++ ['"']) (statement line)).bind (before? ('"' :: tail.toList))

/-- The literals of lines that append one each, up to the line that returns the whole. -/
def readAppended? : List (List Char) → Option (List (List Char))
  | [] => none
  | line :: rest =>
    if statement line = "return builder.toString();".toList then
      if rest = [] then some [] else none
    else do
      pure ((← literal? "builder.append(" ");" line) :: (← readAppended? rest))

/-- What lines say: that one literal is returned, or that literals are appended to an empty
builder. -/
def read? : List (List Char) → Option Body
  | [] => none
  | line :: rest =>
    if statement line = "StringBuilder builder = new StringBuilder();".toList then
      (readAppended? rest).map appended
    else if rest = [] then (literal? "return " ";" line).map returned
    else none

end Body

/-- The lines return the text within the budget. -/
structure Returns (lines : List String) (text : String) (budget : Nat) (body : Body)
    (pieces : List (List Char)) : Prop where
  read : Body.read? (lines.map String.toList) = some body
  /-- Every literal denotes a piece of the text. -/
  denoted : body.literals.map unescape? = pieces.map some
  whole : pieces.flatten = text.toList
  single_iff : (∃ literal, body = .returned literal) ↔ text.length ≤ budget
  nonempty : budget < text.length → ∀ piece ∈ pieces, piece ≠ []
  atMost : budget < text.length → ∀ piece ∈ pieces, piece.length ≤ max budget 1
  full : budget < text.length → ∀ piece ∈ pieces.dropLast, piece.length = max budget 1
  closed : ∀ literal ∈ body.literals, hasBareQuote literal = false ∧ '\n' ∉ literal ∧ '\r' ∉ literal
  /-- With the default budget a literal fits into a constant of the target language. -/
  fits : budget = defaultBudget → ∀ piece ∈ pieces, byteLength piece < 2 ^ 16

end Literal

/-! ## What is written -/

namespace SourceText

/-- A line inside open blocks. -/
def indented (depth : Nat) (text : String) : String :=
  if text = "" then "" else indentation depth ++ text

theorem lines_line (s : SourceText) (text : String) :
    (s.line text).lines.toList = s.lines.toList ++ [indented s.depth text] := by
  simp [line, indented]

@[simp] theorem depth_append (s : SourceText) (texts : List String) :
    (s.append texts).depth = s.depth := by
  induction texts generalizing s with
  | nil => rfl
  | cons text rest ih => exact ih (s.line text)

theorem lines_append (s : SourceText) (texts : List String) :
    (s.append texts).lines.toList = s.lines.toList ++ texts.map (indented s.depth) := by
  induction texts generalizing s with
  | nil => simp [append]
  | cons text rest ih =>
    have behind := ih (s.line text)
    rw [lines_line, depth_line, List.append_assoc] at behind
    exact behind

end SourceText

namespace Literal

/-- The statements that return a text. -/
def statements (cs : List Char) (budget : Nat) : List String :=
  if cs.length ≤ budget then ["return " ++ quote cs ++ ";"]
  else
    "StringBuilder builder = new StringBuilder();" ::
      ((chunks budget cs).map (fun piece => "builder.append(" ++ quote piece ++ ");") ++
        ["return builder.toString();"])

theorem returnText_eq (s : SourceText) (text : String) (budget : Nat) :
    s.returnText text budget = s.append (statements text.toList budget) := by
  unfold SourceText.returnText statements
  dsimp only
  split
  · rfl
  · rw [SourceText.append, List.foldl_cons, List.foldl_append, List.foldl_map]
    rfl

theorem statement_indented {text : String} (first : text.toList.head? ≠ some ' ') (depth : Nat) :
    Body.statement (SourceText.indented depth text).toList = text.toList := by
  unfold Body.statement SourceText.indented
  split
  · next empty => simp [empty]
  · rw [String.toList_append, SourceText.indentation, String.toList_ofList]
    refine dropWhile_run (by simp) ?_
    cases h : text.toList.head? with
    | none => rfl
    | some c => simpa [h] using first

section Lines

variable {lead : String} (solid : lead.toList.head?.any (· != ' ')) (tail : String)
  (cs : List Char) (depth : Nat)
include solid

/-- A line with a literal says what it says from its first letter on. -/
theorem statement_quote :
    Body.statement (SourceText.indented depth (lead ++ quote cs ++ tail)).toList =
      lead.toList ++ ['"'] ++ (escape cs ++ '"' :: tail.toList) := by
  have whole : (lead ++ quote cs ++ tail).toList =
      lead.toList ++ ['"'] ++ (escape cs ++ '"' :: tail.toList) := by
    simp [quote]
  rw [statement_indented, whole]
  rw [whole]
  cases begins : lead.toList with
  | nil => simp [begins] at solid
  | cons first more => simpa [begins] using solid

/-- The literal in a line is the escaped text. -/
theorem literal?_quote :
    Body.literal? lead tail (SourceText.indented depth (lead ++ quote cs ++ tail)).toList =
      some (escape cs) := by
  rw [Body.literal?, statement_quote solid, after?_eq_some_iff.mpr rfl, Option.bind_some,
    before?_eq_some_iff.mpr rfl]

/-- It says nothing else. -/
theorem statement_quote_ne {other : String} (differs : other.toList.head? ≠ lead.toList.head?) :
    Body.statement (SourceText.indented depth (lead ++ quote cs ++ tail)).toList ≠
      other.toList := by
  rw [statement_quote solid]
  intro same
  apply differs
  rw [← same]
  cases begins : lead.toList with
  | nil => simp [begins] at solid
  | cons first more => rfl

end Lines

/-- Appended literals are read in order. -/
theorem readAppended?_eq (pieces : List (List Char)) (depth : Nat) :
    Body.readAppended? ((pieces.map (fun piece => "builder.append(" ++ quote piece ++ ");") ++
        ["return builder.toString();"]).map fun text => (SourceText.indented depth text).toList) =
      some (pieces.map escape) := by
  induction pieces with
  | nil =>
    rw [List.map_nil, List.nil_append, List.map_singleton, Body.readAppended?,
      statement_indented (by decide)]
    rfl
  | cons piece rest ih =>
    rw [List.map_cons, List.cons_append, List.map_cons, Body.readAppended?, ih,
      if_neg (statement_quote_ne (by decide) _ _ _ (by decide)),
      literal?_quote (by decide)]
    rfl

/-- **What is written is read.** -/
theorem read?_statements (cs : List Char) (budget depth : Nat) :
    Body.read? ((statements cs budget).map fun text => (SourceText.indented depth text).toList) =
      some (if cs.length ≤ budget then .returned (escape cs)
        else .appended ((chunks budget cs).map escape)) := by
  unfold statements
  split
  · rw [List.map_singleton, Body.read?,
      if_neg (statement_quote_ne (by decide) _ _ _ (by decide)), if_pos rfl,
      literal?_quote (by decide)]
    rfl
  · rw [List.map_cons, Body.read?, statement_indented (by decide), if_pos rfl, readAppended?_eq]
    rfl

/-- Literals that are written denote what they were written for, and end where they should. -/
theorem unescape?_literals (pieces : List (List Char)) :
    (pieces.map escape).map unescape? = pieces.map some := by
  rw [List.map_map]
  exact List.map_congr_left fun piece _ => unescape?_escape piece

theorem closed_of_mem_literals (pieces : List (List Char)) {literal : List Char}
    (mem : literal ∈ pieces.map escape) :
    hasBareQuote literal = false ∧ '\n' ∉ literal ∧ '\r' ∉ literal := by
  obtain ⟨piece, -, rfl⟩ := List.mem_map.mp mem
  exact ⟨hasBareQuote_escape piece, fun feed => (not_lineEnd_of_mem_escape feed).1 rfl,
    fun ret => (not_lineEnd_of_mem_escape ret).2 rfl⟩

theorem byteLength_lt_of_length_le {piece : List Char} (le : piece.length ≤ defaultBudget) :
    byteLength piece < 2 ^ 16 := by
  have bytes := byteLength_le piece
  rw [defaultBudget] at le
  omega

/-- **The statements return their text**, in a block of any depth. -/
theorem returns_statements (text : String) (budget depth : Nat) :
    ∃ body pieces, Returns ((statements text.toList budget).map (SourceText.indented depth)) text
      budget body pieces := by
  have read := read?_statements text.toList budget depth
  have lines : ((statements text.toList budget).map (SourceText.indented depth)).map String.toList =
      (statements text.toList budget).map fun text => (SourceText.indented depth text).toList := by
    rw [List.map_map]
    rfl
  rw [← lines, String.length_toList] at read
  by_cases short : text.length ≤ budget
  · rw [if_pos short] at read
    have long : ¬ budget < text.length := Nat.not_lt.mpr short
    refine ⟨.returned (escape text.toList), [text.toList], ?_⟩
    exact
      { read
        denoted := unescape?_literals [text.toList]
        whole := List.flatten_singleton
        single_iff := iff_of_true ⟨_, rfl⟩ short
        nonempty := fun h => absurd h long
        atMost := fun h => absurd h long
        full := fun h => absurd h long
        closed := fun literal mem => closed_of_mem_literals [text.toList] mem
        fits := by
          rintro rfl piece mem
          obtain rfl := List.mem_singleton.mp mem
          exact byteLength_lt_of_length_le short }
  · rw [if_neg short] at read
    refine ⟨.appended ((chunks budget text.toList).map escape), chunks budget text.toList, ?_⟩
    exact
      { read
        denoted := unescape?_literals (chunks budget text.toList)
        whole := flatten_chunks budget text.toList
        single_iff := iff_of_false (by rintro ⟨literal, same⟩; cases same) short
        nonempty := fun _ piece mem => (length_of_mem_chunks mem).1
        atMost := fun _ piece mem => (length_of_mem_chunks mem).2
        full := fun _ piece mem => length_of_mem_dropLast_chunks mem
        closed := fun literal mem => closed_of_mem_literals (chunks budget text.toList) mem
        fits := by
          rintro rfl piece mem
          exact byteLength_lt_of_length_le (length_of_mem_chunks mem).2 }

end Literal

/-! ## The accessor of a resource -/

namespace SourceText

/-- The lines of one text are the first lines of another. -/
def Continues (s t : SourceText) : Prop := s.lines.toList <+: t.lines.toList

variable {s t : SourceText}

theorem Continues.line (h : Continues s t) (text : String) : Continues s (t.line text) :=
  h.trans (lines_line t text ▸ List.prefix_append _ _)

theorem Continues.append (h : Continues s t) (texts : List String) :
    Continues s (t.append texts) :=
  h.trans (lines_append t texts ▸ List.prefix_append _ _)

theorem Continues.openBlock (h : Continues s t) (header : String) :
    Continues s (t.openBlock header) :=
  h.line (header ++ " \x7b")

theorem Continues.closeBlock (h : Continues s t) : Continues s t.closeBlock :=
  Continues.line (t := { t with depth := t.depth - 1 }) h "\x7d"

end SourceText

namespace Descriptor

open SourceText

variable {s : SourceText} (d : Descriptor) (settings : Settings)

theorem depth_writeComment : (writeComment s d settings).depth = s.depth := by
  unfold writeComment
  split <;> rfl

theorem depth_writeComputed : (writeComputed s d).depth = s.depth := by
  unfold writeComputed
  split <;> simp

theorem depth_writeStyles : (writeStyles s d).depth = s.depth := by
  simp [writeStyles]

theorem continues_writeName {t : SourceText} (h : Continues s t) :
    Continues s (writeName t d) :=
  ((h.openBlock _).line _).closeBlock

theorem continues_writeAccessors {t : SourceText} (h : Continues s t) :
    Continues s (writeAccessors t d) := by
  unfold writeAccessors
  refine Continues.line ?_ ""
  generalize d.accessors = accessors
  induction accessors generalizing t with
  | nil => exact h
  | cons a rest ih => exact ih ((h.line "").append _)

theorem continues_writeExpressions {t : SourceText} (h : Continues s t) :
    Continues s (writeExpressions t d) :=
  ((((h.openBlock _).line _).append _).line _).closeBlock

/-- The block that returns the text. -/
theorem lines_writeText (s : SourceText) :
    (writeText s d settings).lines.toList = s.lines.toList ++
      [indented s.depth "public String getText() \x7b"] ++
      (Literal.statements d.template.toList settings.chunkBudget).map (indented (s.depth + 1)) ++
      [indented s.depth "\x7d"] ++ [""] := by
  rw [writeText, Literal.returnText_eq, lines_line, closeBlock, lines_line]
  dsimp only
  rw [lines_append, depth_append, depth_openBlock, openBlock]
  dsimp only
  rw [lines_line]
  rfl

/-- The lines of the accessor of the text stand in the resource, between those that open and close
its block. -/
theorem exists_resource_lines :
    ∃ front behind, d.resource settings =
      String.intercalate "\n" (front ++ [indented 1 "public String getText() \x7b"] ++
        (Literal.statements d.template.toList settings.chunkBudget).map (indented 2) ++
        [indented 1 "\x7d"] ++ behind) ++ "\n" := by
  unfold resource
  dsimp only
  generalize opened : (writeComment .empty d settings).openBlock _ = s
  have depth : (writeStyles (writeComputed s d) d).depth = 1 := by
    rw [depth_writeStyles, depth_writeComputed, ← opened, depth_openBlock, depth_writeComment]
    rfl
  have text := d.lines_writeText settings (writeStyles (writeComputed s d) d)
  rw [depth] at text
  -- what follows the accessor only adds lines
  have continued : Continues (writeText (writeStyles (writeComputed s d) d) d settings) _ :=
    (continues_writeExpressions d (continues_writeAccessors d (continues_writeName d
      (List.prefix_refl _)))).closeBlock
  obtain ⟨behind, whole⟩ := continued
  refine ⟨(writeStyles (writeComputed s d) d).lines.toList, [""] ++ behind, ?_⟩
  rw [render, ← whole, text, List.append_assoc]

end Descriptor

/-- **The text of a template is returned as it is.** Wherever an accessor that returns a text is
written, its lines return the text within the budget; and the resource of a component has such
lines for the text that the compiled view holds. -/
theorem Literal.text_is_returned :
    (∀ (s : SourceText) (text : String) (budget : Nat), ∃ lines body pieces,
      (s.returnText text budget).lines.toList = s.lines.toList ++ lines ∧
        Returns lines text budget body pieces) ∧
      ∀ (d : Descriptor) (settings : Settings), ∃ front lines behind body pieces,
        d.resource settings = String.intercalate "\n" (front ++
          ["    public String getText() \x7b"] ++ lines ++ ["    \x7d"] ++ behind) ++ "\n" ∧
        Returns lines d.compiled.text settings.chunkBudget body pieces := by
  constructor
  · intro s text budget
    obtain ⟨body, pieces, returns⟩ := returns_statements text budget s.depth
    rw [returnText_eq, SourceText.lines_append]
    exact ⟨_, body, pieces, rfl, returns⟩
  · intro d settings
    obtain ⟨front, behind, resource⟩ := d.exists_resource_lines settings
    obtain ⟨body, pieces, returns⟩ := returns_statements d.template settings.chunkBudget 2
    exact ⟨front, _, behind, body, pieces, resource, returns⟩

end TemplateCompiler
