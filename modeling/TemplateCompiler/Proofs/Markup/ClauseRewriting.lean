import TemplateCompiler.Extraction.Walk
import TemplateCompiler.Proofs.Markup.Bindings
import TemplateCompiler.Proofs.Placeholder

/-!
# Rewritten loop clauses

Extraction rewrites a loop clause to the bare names of its variables and the data slot of its
collection. What it writes is a loop clause again. It declares no types, it has the same names in
the same order, and the collection in it is the data slot.

## Main definitions

* `Markup.bare` — a variable without a type
* `Markup.spellNames` — what a rewritten clause has in front of its keyword

## Main statements

* `Markup.spellsVariables_spellNames` — bare names spell variables without types
* `Markup.isClause_bareClause` — a rewritten clause spells a clause
* `Markup.rewriting_keeps_variables` — and it is read as that
-/
namespace TemplateCompiler.Markup

open Text Extraction

/-! ## Data slots -/

/-- No blank is a character of a placeholder. -/
theorem isBlank_of_isGlue {c : Char} (h : Placeholder.isGlue c = true) : isBlank c = false := by
  by_contra blank
  have apart : ∀ n ∈ blankPoints, Placeholder.isGlue (Char.ofNat n) = false := by decide
  have none := apart c.toNat (mem_blankPoints (by simpa using blank))
  rw [Char.ofNat_toNat, h] at none
  cases none

/-- A text of such characters begins and ends with no blank. -/
theorem trimmed_of_isGlue {cs : List Char} (nonempty : cs ≠ [])
    (glue : ∀ c ∈ cs, Placeholder.isGlue c = true) : Trimmed cs := by
  constructor
  · obtain ⟨c, rest, rfl⟩ := List.exists_cons_of_ne_nil nonempty
    exact ⟨c, rest, rfl, isBlank_of_isGlue (glue c List.mem_cons_self)⟩
  · exact ⟨_, _, (List.dropLast_concat_getLast nonempty).symm,
      isBlank_of_isGlue (glue _ (List.getLast_mem nonempty))⟩

/-- A data slot begins and ends with no blank. -/
theorem trimmed_arraySlot (index : Nat) :
    Trimmed (Placeholder.arraySlot (Placeholder.collectionId index)).toList :=
  trimmed_of_isGlue (by simp [Placeholder.arraySlot]) (Placeholder.isGlue_arraySlot index)

/-! ## Names -/

/-- A variable without a type. -/
def bare (name : String) : LoopVariable := ⟨none, name⟩

/-- What a clause has in front of its keyword. -/
def spellNames : List String → String
  | [single] => single
  | several => "(" ++ String.intercalate ", " several ++ ")"

theorem bareClause_eq (bindings : List LoopVariable) (id : String) :
    bareClause bindings id =
      spellNames (bindings.map LoopVariable.name) ++ " in " ++ Placeholder.arraySlot id := by
  rw [bareClause]
  cases bindings.map LoopVariable.name with
  | nil => rfl
  | cons first more => cases more <;> rfl

/-- The characters in front of the keyword. -/
theorem mem_spellNames {names : List String} {c : Char} (mem : c ∈ (spellNames names).toList) :
    c ∈ "(, )".toList ∨ ∃ name ∈ names, c ∈ name.toList := by
  unfold spellNames at mem
  split at mem
  · rename_i single
    exact .inr ⟨single, List.mem_cons_self, mem⟩
  · rw [String.toList_append, String.toList_append, List.mem_append, List.mem_append] at mem
    rcases mem with (opening | inside) | closing
    · obtain rfl := List.mem_singleton.mp opening
      exact .inl (by decide)
    · refine (mem_intercalate inside).imp_left fun separator => ?_
      exact (show ", ".toList ⊆ "(, )".toList by decide) separator
    · obtain rfl := List.mem_singleton.mp closing
      exact .inl (by decide)

/-- **Bare names spell variables without types**, in parentheses when there are several. -/
theorem spellsVariables_spellNames {bindings : List LoopVariable} (nonempty : bindings ≠ [])
    (paths : ∀ v ∈ bindings, IsPath v.name) :
    SpellsVariables IsPath (bindings.map fun v => bare v.name)
      (spellNames (bindings.map LoopVariable.name)).toList := by
  obtain ⟨first, more, rfl⟩ := List.exists_cons_of_ne_nil nonempty
  rw [List.forall_mem_cons] at paths
  cases more with
  | nil => exact .single (.bare paths.1)
  | cons second more =>
    let spell (v : LoopVariable) : List Char := ", ".toList ++ v.name.toList
    have repeats : Repeats (SpellsFurther IsPath) ((second :: more).map fun v => bare v.name)
        (((second :: more).map fun v => bare v.name).flatMap spell) := by
      refine repeats_flatMap spell fun v mem => ?_
      obtain ⟨w, inMore, rfl⟩ := List.mem_map.mp mem
      have nothing : IsBlanks [] := rfl
      have blank : IsBlanks [' '] := rfl
      exact .intro nothing blank (.bare (paths.2 w inMore))
    have spelled : (spellNames ((first :: second :: more).map LoopVariable.name)).toList =
        '(' :: ([] ++ (first.name.toList ++
          (((second :: more).map fun v => bare v.name).flatMap spell ++ ([] ++ [')'])))) := by
      rw [spellNames, String.toList_append, String.toList_append, List.map_cons,
        toList_intercalate, List.flatMap_map, List.flatMap_map]
      · simp [spell, bare]
      · simp
    rw [spelled]
    exact .list rfl (.bare paths.1) repeats rfl

/-! ## Clauses -/

variable {text : String} {clause : LoopClause}

/-- **A rewritten clause spells a clause.** -/
theorem isClause_bareClause (h : LoopClause.read text = .ok clause) (index : Nat) :
    ∃ span, IsClause IsPath (bareClause clause.bindings (Placeholder.collectionId index))
      ⟨clause.bindings.map fun v => bare v.name,
        ⟨Placeholder.arraySlot (Placeholder.collectionId index), span⟩⟩ := by
  obtain ⟨nonempty, paths⟩ := isPath_of_read h
  have trimmed := trimmed_arraySlot index
  generalize hslot : Placeholder.arraySlot (Placeholder.collectionId index) = slot at trimmed ⊢
  let parts : ClauseParts :=
    ⟨[], (spellNames (clause.bindings.map LoopVariable.name)).toList, [' '], "in", [' '],
      slot.toList, []⟩
  have split : (bareClause clause.bindings (Placeholder.collectionId index)).toList =
      parts.text := by
    rw [bareClause_eq, hslot]
    simp [parts, ClauseParts.text, ClauseParts.lead]
  have alone : StandsAlone (parts.bindings ++ parts.gap) (parts.space ++ parts.collection) := by
    constructor
    · rw [List.getLast?_concat]
      rintro _ ⟨⟩
      decide
    · rintro _ ⟨⟩
      decide
  refine ⟨⟨byteLength parts.lead, byteLength parts.lead + byteLength parts.collection⟩, parts,
    split, ?_⟩
  exact
    { front := rfl
      bindings := spellsVariables_spellNames nonempty paths
      gap := rfl
      keyword := .inl rfl
      alone := alone
      space := rfl
      trimmed := trimmed
      back := rfl
      collection := by rw [show parts.collection = slot.toList from rfl, String.ofList_toList] }

/-- **Rewriting a clause keeps its variables**: what is written is read as a clause with the same
names in the same order and no types, whose collection is the data slot and nothing else. -/
theorem rewriting_keeps_variables (h : LoopClause.read text = .ok clause) (index : Nat) :
    ∃ span, LoopClause.read (bareClause clause.bindings (Placeholder.collectionId index)) =
      .ok ⟨clause.bindings.map fun v => ⟨none, v.name⟩,
        ⟨Placeholder.arraySlot (Placeholder.collectionId index), span⟩⟩ := by
  obtain ⟨span, isClause⟩ := isClause_bareClause h index
  exact ⟨span, read_eq_ok_iff.mpr isClause⟩

/-- Two variables with types. -/
theorem typed_clause_rewritten :
    LoopClause.read "(model.Todo todo, int i) of todos" =
        .ok ⟨[⟨some "model.Todo", "todo"⟩, ⟨some "int", "i"⟩], ⟨"todos", ⟨28, 33⟩⟩⟩ ∧
      bareClause [⟨some "model.Todo", "todo"⟩, ⟨some "int", "i"⟩] (Placeholder.collectionId 3) =
        "(todo, i) in col$3Array" ∧
      ∃ span, LoopClause.read "(todo, i) in col$3Array" =
        .ok ⟨[⟨none, "todo"⟩, ⟨none, "i"⟩], ⟨"col$3Array", span⟩⟩ := by
  have read : LoopClause.read "(model.Todo todo, int i) of todos" =
      .ok ⟨[⟨some "model.Todo", "todo"⟩, ⟨some "int", "i"⟩], ⟨"todos", ⟨28, 33⟩⟩⟩ := rfl
  have rewritten : bareClause [⟨some "model.Todo", "todo"⟩, ⟨some "int", "i"⟩]
      (Placeholder.collectionId 3) = "(todo, i) in col$3Array" := by decide
  obtain ⟨span, again⟩ := rewriting_keeps_variables read 3
  rw [rewritten] at again
  exact ⟨read, rewritten, span, again⟩

end TemplateCompiler.Markup
