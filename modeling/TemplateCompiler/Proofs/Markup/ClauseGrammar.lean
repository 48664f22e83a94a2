import Mathlib.Data.List.Basic
import TemplateCompiler.Markup.LoopClause
import TemplateCompiler.Proofs.Text.Trim

/-!
# The grammar of loop clauses

A loop clause is a variable or a list of variables in parentheses, a keyword that stands alone, and
a collection. The grammar is given as relations between values and the texts that spell them, with
no mention of how clauses are read.

A variable without a type should be an identifier. What it may be called is a parameter of the
grammar, because reading is more generous here.

## Main definitions

* `Markup.IsName`, `Markup.IsPath` — identifiers, and types
* `Markup.Repeats` — values that are spelled one after the other
* `Markup.SpellsVariable`, `Markup.SpellsVariables` — how variables are spelled
* `Markup.StandsAlone` — what is around a word
* `Markup.IsClause` — the grammar, given what variables without a type may be called

## Main statements

* `Markup.SpellsVariable.exists_cons`, `Markup.SpellsVariable.exists_last` — a variable begins and
  ends as an identifier does
* `Markup.IsClause.imp` — variables without a type may be called otherwise
* `Markup.IsClause.slice_collection`, `Markup.IsClause.trimmed_collection` — the collection stands
  where its span says, without blanks at its ends
-/
namespace TemplateCompiler.Markup

open Text

/-! ## Names -/

/-- An identifier. -/
def IsWord (word : String) : Prop :=
  ∃ c rest, word.toList = c :: rest ∧ isIdentifierStart c = true ∧
    rest.all isIdentifierContinue = true

/-- An identifier that is no keyword. -/
structure IsName (name : String) : Prop where
  word : IsWord name
  notKeyword : isKeyword name = false

/-- Names with dots between them, as types have them. A variable may be called so, because its name
is first read as a type. -/
def IsPath (path : String) : Prop :=
  ∃ first more, path = String.intercalate "." (first :: more) ∧ IsName first ∧
    ∀ name ∈ more, IsName name

theorem IsName.isPath {name : String} (h : IsName name) : IsPath name :=
  ⟨name, [], (String.intercalate_singleton ..).symm, h, nofun⟩

theorem isKeyword_iff {word : String} : isKeyword word = true ↔ word = "in" ∨ word = "of" := by
  rw [isKeyword, Bool.or_eq_true, beq_iff_eq, beq_iff_eq]

theorem isWord_of_isKeyword {word : String} (h : isKeyword word = true) : IsWord word := by
  rw [isKeyword, Bool.or_eq_true, beq_iff_eq, beq_iff_eq] at h
  rcases h with rfl | rfl
  · exact ⟨'i', ['n'], rfl, by decide, by decide⟩
  · exact ⟨'o', ['f'], rfl, by decide, by decide⟩

/-- Joined texts, as characters. -/
theorem toList_intercalate (separator first : String) (more : List String) :
    (String.intercalate separator (first :: more)).toList =
      first.toList ++ more.flatMap fun part => separator.toList ++ part.toList := by
  induction more generalizing first with
  | nil => simp
  | cons second more ih =>
    rw [String.intercalate_cons_of_ne_nil (List.cons_ne_nil second more), String.toList_append,
      String.toList_append, ih, List.flatMap_cons, List.append_assoc, List.append_assoc]

/-! ## The grammar -/

/-- Text of blanks, which may be empty. -/
def IsBlanks (cs : List Char) : Prop := cs.all isBlank = true

/-- Values one after the other, each spelled by a piece of the text. -/
inductive Repeats {α : Type} (spells : α → List Char → Prop) : List α → List Char → Prop where
  | nil : Repeats spells [] []
  | cons {value : α} {values : List α} {piece rest : List Char} :
    spells value piece → Repeats spells values rest →
      Repeats spells (value :: values) (piece ++ rest)

/-- A variable: what a variable without a type may be called, or a type, blanks and an
identifier. -/
inductive SpellsVariable (untyped : String → Prop) : LoopVariable → List Char → Prop where
  | bare {name : String} : untyped name → SpellsVariable untyped ⟨none, name⟩ name.toList
  | typed {type name : String} {blanks : List Char} :
    IsPath type → IsBlanks blanks → blanks ≠ [] → IsName name →
      SpellsVariable untyped ⟨some type, name⟩ (type.toList ++ (blanks ++ name.toList))

/-- A further variable of a list, behind a comma with blanks around it. -/
inductive SpellsFurther (untyped : String → Prop) : LoopVariable → List Char → Prop where
  | intro {v : LoopVariable} {before behind cs : List Char} :
    IsBlanks before → IsBlanks behind → SpellsVariable untyped v cs →
      SpellsFurther untyped v (before ++ ',' :: (behind ++ cs))

/-- One variable, or some in parentheses. -/
inductive SpellsVariables (untyped : String → Prop) : List LoopVariable → List Char → Prop where
  | single {v : LoopVariable} {cs : List Char} :
    SpellsVariable untyped v cs → SpellsVariables untyped [v] cs
  | list {first : LoopVariable} {more : List LoopVariable} {front cs rest back : List Char} :
    IsBlanks front → SpellsVariable untyped first cs →
      Repeats (SpellsFurther untyped) more rest → IsBlanks back →
        SpellsVariables untyped (first :: more)
          ('(' :: (front ++ (cs ++ (rest ++ (back ++ [')'])))))

/-- The text behind a word does not go on with it. -/
def EndsName (rest : List Char) : Prop := ∀ c ∈ rest.head?, isIdentifierContinue c = false

/-- Whether the character can be part of an identifier. -/
def isWordChar (c : Char) : Bool := isIdentifierStart c || isIdentifierContinue c

/-- A word between two texts is not part of a longer one. -/
structure StandsAlone (before behind : List Char) : Prop where
  before : ∀ c ∈ before.getLast?, isWordChar c = false
  behind : EndsName behind

/-- The text of a clause, cut into its parts. -/
structure ClauseParts where
  front : List Char
  bindings : List Char
  gap : List Char
  keyword : String
  space : List Char
  collection : List Char
  back : List Char

namespace ClauseParts

/-- The text in front of the collection. -/
def lead (parts : ClauseParts) : List Char :=
  parts.front ++ (parts.bindings ++ (parts.gap ++ (parts.keyword.toList ++ parts.space)))

/-- The whole text. -/
def text (parts : ClauseParts) : List Char := parts.lead ++ (parts.collection ++ parts.back)

/-- The parts spell a clause: blanks, variables, blanks, a keyword that stands alone, blanks, a
collection that is not empty, and blanks. -/
structure Spells (untyped : String → Prop) (parts : ClauseParts) (clause : LoopClause) : Prop where
  front : IsBlanks parts.front
  bindings : SpellsVariables untyped clause.bindings parts.bindings
  gap : IsBlanks parts.gap
  keyword : parts.keyword = "in" ∨ parts.keyword = "of"
  alone : StandsAlone (parts.bindings ++ parts.gap) (parts.space ++ parts.collection)
  space : IsBlanks parts.space
  trimmed : Trimmed parts.collection
  back : IsBlanks parts.back
  collection : clause.collection =
    ⟨String.ofList parts.collection,
      ⟨byteLength parts.lead, byteLength parts.lead + byteLength parts.collection⟩⟩

end ClauseParts

/-- **The grammar of loop clauses**, given what a variable without a type may be called. -/
def IsClause (untyped : String → Prop) (text : String) (clause : LoopClause) : Prop :=
  ∃ parts : ClauseParts, text.toList = parts.text ∧ parts.Spells untyped clause

/-! ## Characters -/

/-- The code points of blanks. -/
def blankPoints : List Nat :=
  [9, 10, 11, 12, 13, 32, 0x85, 0xa0, 0x1680, 0x2000, 0x2001, 0x2002, 0x2003, 0x2004, 0x2005,
   0x2006, 0x2007, 0x2008, 0x2009, 0x200a, 0x2028, 0x2029, 0x202f, 0x205f, 0x3000]

theorem mem_blankPoints {c : Char} (h : isBlank c = true) : c.toNat ∈ blankPoints := by
  simp only [isBlank, Bool.or_eq_true, Bool.and_eq_true, decide_eq_true_eq, beq_iff_eq] at h
  simp only [blankPoints, List.mem_cons, List.not_mem_nil, or_false]
  omega

/-- No blank is part of an identifier. -/
theorem isWordChar_of_isBlank {c : Char} (h : isBlank c = true) : isWordChar c = false := by
  have apart : ∀ n ∈ blankPoints,
      (inRanges n identifierStarts || inRanges n identifierContinues) = false := by
    decide +kernel
  have none := apart c.toNat (mem_blankPoints h)
  have score : c ≠ '_' := by
    rintro rfl
    cases h
  simpa [isWordChar, isIdentifierStart, isIdentifierContinue, score] using none

/-- No blank begins an identifier. -/
theorem isBlank_of_isIdentifierStart {c : Char} (h : isIdentifierStart c = true) :
    isBlank c = false := by
  by_contra blank
  have none := isWordChar_of_isBlank (by simpa using blank)
  rw [isWordChar, h] at none
  cases none

theorem isIdentifierContinue_of_isBlank {c : Char} (h : isBlank c = true) :
    isIdentifierContinue c = false := by
  have none := isWordChar_of_isBlank h
  rw [isWordChar, Bool.or_eq_false_iff] at none
  exact none.2

variable {cs rest : List Char} {v : LoopVariable} {bindings : List LoopVariable}
  {clause : LoopClause} {text : String} {untyped untyped' : String → Prop}

/-- Whether a word ends in front of a text that is not empty, that text decides. -/
theorem endsName_append_iff (nonempty : cs ≠ []) : EndsName (cs ++ rest) ↔ EndsName cs := by
  obtain ⟨c, tail, rfl⟩ := List.exists_cons_of_ne_nil nonempty
  rfl

/-! ## Repetitions -/

section Repetitions

variable {α : Type} {spells : α → List Char → Prop} {values : List α}

theorem Repeats.length_le (nonempty : ∀ value piece, spells value piece → piece ≠ [])
    (repeats : Repeats spells values cs) : values.length ≤ cs.length := by
  induction repeats with
  | nil => exact Nat.le_refl _
  | cons spelled _ ih =>
    have pos := List.length_pos_iff.mpr (nonempty _ _ spelled)
    rw [List.length_append, List.length_cons]
    omega

theorem Repeats.imp {spells' : α → List Char → Prop}
    (imp : ∀ value ∈ values, ∀ piece, spells value piece → spells' value piece)
    (repeats : Repeats spells values cs) : Repeats spells' values cs := by
  induction repeats with
  | nil => exact .nil
  | cons spelled _ ih =>
    rw [List.forall_mem_cons] at imp
    exact .cons (imp.1 _ spelled) (ih imp.2)

theorem Repeats.forall {P : α → Prop} (holds : ∀ value piece, spells value piece → P value)
    (repeats : Repeats spells values cs) : ∀ value ∈ values, P value := by
  induction repeats with
  | nil => exact nofun
  | cons spelled _ ih => exact List.forall_mem_cons.mpr ⟨holds _ _ spelled, ih⟩

theorem Repeats.eq_flatMap (spell : α → List Char)
    (same : ∀ value piece, spells value piece → piece = spell value)
    (repeats : Repeats spells values cs) : cs = values.flatMap spell := by
  induction repeats with
  | nil => rfl
  | cons spelled _ ih => rw [List.flatMap_cons, ← same _ _ spelled, ← ih]

/-- The text of values that have one spelling each. -/
theorem repeats_flatMap (spell : α → List Char)
    (spelled : ∀ value ∈ values, spells value (spell value)) :
    Repeats spells values (values.flatMap spell) := by
  induction values with
  | nil => exact .nil
  | cons value values ih =>
    rw [List.forall_mem_cons] at spelled
    rw [List.flatMap_cons]
    exact .cons spelled.1 (ih spelled.2)

end Repetitions

/-! ## How names and variables begin and end -/

theorem IsWord.exists_cons {word : String} (h : IsWord word) :
    ∃ c rest, word.toList = c :: rest ∧ isIdentifierStart c = true := by
  obtain ⟨c, rest, same, start, -⟩ := h
  exact ⟨c, rest, same, start⟩

theorem IsWord.exists_last {word : String} (h : IsWord word) :
    ∃ c, word.toList.getLast? = some c ∧ isWordChar c = true := by
  obtain ⟨c, rest, same, start, continues⟩ := h
  rw [same]
  rcases List.eq_nil_or_concat' rest with rfl | ⟨init, last, rfl⟩
  · exact ⟨c, rfl, by rw [isWordChar, start, Bool.true_or]⟩
  · refine ⟨last, by rw [← List.cons_append, List.getLast?_concat], ?_⟩
    rw [isWordChar, List.all_eq_true.mp continues last (by simp), Bool.or_true]

/-- Text that ends with an identifier ends with a character of it. -/
theorem IsWord.exists_last_append {word : String} (h : IsWord word) (front : List Char) :
    ∃ c, (front ++ word.toList).getLast? = some c ∧ isWordChar c = true := by
  obtain ⟨c, last, inWord⟩ := h.exists_last
  exact ⟨c, by rw [List.getLast?_append, last, Option.some_or], inWord⟩

/-- A path begins as an identifier does. -/
theorem IsPath.exists_cons {path : String} (h : IsPath path) :
    ∃ c rest, path.toList = c :: rest ∧ isIdentifierStart c = true := by
  obtain ⟨first, more, rfl, hfirst, -⟩ := h
  obtain ⟨c, word, same, start⟩ := hfirst.word.exists_cons
  exact ⟨c, _, by rw [toList_intercalate, same, List.cons_append], start⟩

/-- A variable begins as an identifier does. -/
theorem SpellsVariable.exists_cons (h : SpellsVariable IsPath v cs) :
    ∃ c rest, cs = c :: rest ∧ isIdentifierStart c = true := by
  cases h with
  | bare isPath => exact isPath.exists_cons
  | typed isPath _ _ _ =>
    obtain ⟨c, rest, same, start⟩ := isPath.exists_cons
    exact ⟨c, _, by rw [same, List.cons_append], start⟩

/-- A variable ends as an identifier does. -/
theorem SpellsVariable.exists_last (h : SpellsVariable IsPath v cs) :
    ∃ c, cs.getLast? = some c ∧ isWordChar c = true := by
  cases h with
  | bare isPath =>
    obtain ⟨first, more, rfl, hfirst, hmore⟩ := isPath
    rw [toList_intercalate]
    rcases List.eq_nil_or_concat' more with rfl | ⟨init, last, rfl⟩
    · rw [List.flatMap_nil, List.append_nil]
      exact hfirst.word.exists_last
    · rw [List.flatMap_append, List.flatMap_singleton, ← List.append_assoc, ← List.append_assoc]
      exact (hmore last (by simp)).word.exists_last_append _
  | typed _ _ _ isName =>
    rw [← List.append_assoc]
    exact isName.word.exists_last_append _

theorem SpellsVariable.trimStart (h : SpellsVariable IsPath v cs) (rest : List Char) :
    Text.trimStart (cs ++ rest) = cs ++ rest := by
  obtain ⟨c, tail, rfl, start⟩ := h.exists_cons
  exact trimStart_cons (isBlank_of_isIdentifierStart start) _

theorem SpellsVariables.exists_first (h : SpellsVariables IsPath bindings cs) :
    ∃ c rest, cs = c :: rest ∧ isBlank c = false := by
  cases h with
  | single spelled =>
    obtain ⟨c, rest, rfl, start⟩ := spelled.exists_cons
    exact ⟨c, rest, rfl, isBlank_of_isIdentifierStart start⟩
  | list => exact ⟨'(', _, rfl, rfl⟩

/-! ## What variables are called -/

theorem SpellsVariable.imp {v : LoopVariable} (h : SpellsVariable untyped v cs)
    (imp : v.typeName = none → untyped v.name → untyped' v.name) :
    SpellsVariable untyped' v cs := by
  cases h with
  | bare called => exact .bare (imp rfl called)
  | typed isPath blank nonempty isName => exact .typed isPath blank nonempty isName

theorem SpellsFurther.imp {v : LoopVariable} (h : SpellsFurther untyped v cs)
    (imp : v.typeName = none → untyped v.name → untyped' v.name) :
    SpellsFurther untyped' v cs := by
  obtain ⟨before, behind, spelled⟩ := h
  exact .intro before behind (spelled.imp imp)

theorem SpellsVariables.imp (h : SpellsVariables untyped bindings cs)
    (imp : ∀ v ∈ bindings, v.typeName = none → untyped v.name → untyped' v.name) :
    SpellsVariables untyped' bindings cs := by
  cases h with
  | single spelled => exact .single (spelled.imp (imp _ List.mem_cons_self))
  | list front spelled repeats back =>
    rw [List.forall_mem_cons] at imp
    exact .list front (spelled.imp imp.1) (repeats.imp fun v mem _ h => h.imp (imp.2 v mem)) back

theorem IsClause.imp (h : IsClause untyped text clause)
    (imp : ∀ v ∈ clause.bindings, v.typeName = none → untyped v.name → untyped' v.name) :
    IsClause untyped' text clause := by
  obtain ⟨parts, split, spells⟩ := h
  exact ⟨parts, split, { spells with bindings := spells.bindings.imp imp }⟩

/-- A variable with a type is an identifier, one without is called what it may be called. -/
theorem SpellsVariable.called {v : LoopVariable} (h : SpellsVariable untyped v cs)
    (names : ∀ name, IsName name → untyped name) : untyped v.name := by
  cases h with
  | bare called => exact called
  | typed _ _ _ isName => exact names _ isName

theorem SpellsVariables.called (h : SpellsVariables untyped bindings cs)
    (names : ∀ name, IsName name → untyped name) :
    bindings ≠ [] ∧ ∀ v ∈ bindings, untyped v.name := by
  cases h with
  | single spelled => exact ⟨nofun, by simpa using spelled.called names⟩
  | list _ spelled repeats _ =>
    refine ⟨nofun, List.forall_mem_cons.mpr ⟨spelled.called names, ?_⟩⟩
    exact repeats.forall fun v piece h => by
      obtain ⟨-, -, spelled⟩ := h
      exact spelled.called names

/-! ## The collection -/

/-- The collection stands in the text where its span says. -/
theorem IsClause.slice_collection (h : IsClause untyped text clause) :
    slice text.toList clause.collection.span = clause.collection.text.toList := by
  obtain ⟨parts, split, spells⟩ := h
  rw [spells.collection, split, ClauseParts.text, slice, dropBytes_byteLength,
    Nat.add_sub_cancel_left, takeBytes_byteLength, String.toList_ofList]

/-- The collection is not empty and has no blanks at its ends. -/
theorem IsClause.trimmed_collection (h : IsClause untyped text clause) :
    Trimmed clause.collection.text.toList := by
  obtain ⟨parts, -, spells⟩ := h
  rw [spells.collection, String.toList_ofList]
  exact spells.trimmed

end TemplateCompiler.Markup
