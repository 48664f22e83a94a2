import TemplateCompiler.Proofs.Markup.VariableReading

/-!
# Reading loop clauses

A text is read as a loop clause exactly if it spells that clause in the grammar where a variable
without a type may be called as types are, by names with dots between them. The clauses whose
variables are identifiers are those among them that are read with such names.

## Main statements

* `Markup.read_eq_ok_iff` — a text is read as the clause that it spells
* `Markup.isPath_of_read` — what variables are called
* `Markup.isClause_isName_iff` — the clauses whose variables are identifiers
* `Markup.clause_read_iff_spelled` — both, and where the collection stands
-/
namespace TemplateCompiler.Markup

open Text

variable {cs rest : List Char} {bindings : List LoopVariable} {clause : LoopClause}
  {parts : ClauseParts} {text : String}

/-! ## Keywords and collections -/

theorem exists_of_readKeywords {value : Unit}
    (h : ((readKeyword "in" cs).orElse (readKeyword "of" cs)).outcome = some (value, rest)) :
    ∃ keyword, (keyword = "in" ∨ keyword = "of") ∧ cs = keyword.toList ++ rest ∧
      EndsName rest := by
  rw [Attempt.outcome_orElse, Option.or_eq_some_iff] at h
  rcases h with first | ⟨-, second⟩
  · exact ⟨"in", .inl rfl, exists_of_readKeyword first⟩
  · exact ⟨"of", .inr rfl, exists_of_readKeyword second⟩

/-- One of the two keywords is read. -/
theorem outcome_readKeywords {keyword : String} (isKeyword : isKeyword keyword = true)
    (ends : EndsName rest) :
    ((readKeyword "in" (keyword.toList ++ rest)).orElse
      (readKeyword "of" (keyword.toList ++ rest))).outcome = some ((), rest) := by
  rw [Attempt.outcome_orElse, outcome_readKeyword isKeyword ends,
    outcome_readKeyword isKeyword ends]
  rw [Markup.isKeyword, Bool.or_eq_true, beq_iff_eq, beq_iff_eq] at isKeyword
  rcases isKeyword with rfl | rfl <;> rfl

theorem exists_of_readCollection {collection : List Char}
    (h : (readCollection cs).outcome = some (collection, rest)) :
    collection = cs ∧ cs ≠ [] := by
  rw [readCollection] at h
  split at h
  · cases h
  · next nonempty =>
    obtain ⟨rfl, -⟩ := eq_of_done h
    exact ⟨rfl, by simpa using nonempty⟩

/-- Text that is left behind the keyword is the collection. -/
theorem outcome_readCollection (nonempty : cs ≠ []) :
    (readCollection cs).outcome = some (cs, []) := by
  rw [readCollection, if_neg (by simpa using nonempty)]
  rfl

/-- The collection of a clause that has been read. -/
theorem ofParts_append (lead collection : List Char) (bindings : List LoopVariable) :
    LoopClause.ofParts (lead ++ collection) bindings collection =
      ⟨bindings, ⟨String.ofList (trimEnd collection),
        ⟨byteLength lead, byteLength lead + byteLength (trimEnd collection)⟩⟩⟩ := by
  simp [LoopClause.ofParts]

/-! ## Clauses -/

/-- **What is read as a clause is spelled as one.** -/
theorem exists_of_readClause {collection : List Char}
    (h : (readClause cs).outcome = some ((bindings, collection), rest)) :
    ∃ parts : ClauseParts, cs = parts.text ∧
      parts.Spells IsPath (LoopClause.ofParts cs bindings collection) := by
  obtain ⟨_, afterNames, hnames, behindNames⟩ := exists_of_andThen h
  obtain ⟨_, afterKeyword, hkeyword, behindKeyword⟩ := exists_of_andThen behindNames
  obtain ⟨space, afterSpace, hspace, behindSpace⟩ := exists_of_andThen behindKeyword
  obtain ⟨_, hcollection, same⟩ := exists_of_map behindSpace
  obtain ⟨rfl, rfl⟩ := Prod.mk.inj same
  obtain ⟨front, blankFront, splitFront⟩ := exists_blanks_trimStart cs
  have dark : ∀ c ∈ (trimStart cs).head?, isBlank c = false := fun c => of_mem_head?_dropWhile
  obtain ⟨names, gap, splitNames, spelled, blankGap, ends⟩ := exists_of_readVariables dark hnames
  obtain ⟨gap', blankGap', splitGap⟩ := exists_blanks_trimStart afterNames
  obtain ⟨keyword, isKeyword, splitKeyword, endsKeyword⟩ := exists_of_readKeywords hkeyword
  obtain ⟨splitSpace, blankSpace, noBlank⟩ := exists_of_readBlanks hspace
  obtain ⟨rfl, nonempty⟩ := exists_of_readCollection hcollection
  obtain ⟨c, tail, rfl⟩ := List.exists_cons_of_ne_nil nonempty
  have trimmed := trimmed_trimEnd ⟨c, tail, rfl, noBlank c rfl⟩
  obtain ⟨back, blankBack, splitBack⟩ := exists_blanks_trimEnd (c :: tail)
  have blanks : IsBlanks (gap ++ gap') := by
    rw [IsBlanks, List.all_append, blankGap, blankGap', Bool.and_true]
  have whole : cs = (front ++ (names ++ ((gap ++ gap') ++ (keyword.toList ++ space)))) ++
      (c :: tail) := by
    rw [splitFront, splitNames, splitGap, splitKeyword, splitSpace]
    simp only [List.append_assoc]
  refine ⟨⟨front, names, gap ++ gap', keyword, space, trimEnd (c :: tail), back⟩, ?_, ?_⟩
  · rw [ClauseParts.text, ClauseParts.lead, ← splitBack]
    exact whole
  rw [whole, ofParts_append]
  refine ⟨blankFront, spelled, blanks, isKeyword, ⟨?_, ?_⟩, blankSpace, trimmed, blankBack, rfl⟩
  · rw [splitGap, splitKeyword, ← List.append_assoc] at ends
    exact isWordChar_in_front blanks (isKeyword_iff.mpr isKeyword) ends
  · rw [splitSpace, splitBack, ← List.append_assoc] at endsKeyword
    exact (endsName_append_iff (by simp [trimmed.ne_nil])).mp endsKeyword

/-- **What is spelled as a clause is read as one.** -/
theorem outcome_readClause (spells : parts.Spells IsPath clause) :
    (readClause parts.text).outcome =
      some ((clause.bindings, parts.collection ++ parts.back), []) := by
  have isKeyword := isKeyword_iff.mpr spells.keyword
  obtain ⟨c, rest, names, noBlank⟩ := spells.bindings.exists_first
  obtain ⟨d, tail, collection, noBlank'⟩ := spells.trimmed.first
  have split : parts.text = parts.front ++ (parts.bindings ++ (parts.gap ++
      (parts.keyword.toList ++ (parts.space ++ (parts.collection ++ parts.back))))) := by
    simp only [ClauseParts.text, ClauseParts.lead, List.append_assoc]
  have trimmed : trimStart parts.text = parts.bindings ++ (parts.gap ++
      (parts.keyword.toList ++ (parts.space ++ (parts.collection ++ parts.back)))) := by
    rw [split, trimStart_blanks spells.front, names]
    exact trimStart_cons noBlank _
  have ends : EndsName (parts.space ++ (parts.collection ++ parts.back)) := by
    rw [← List.append_assoc]
    exact (endsName_append_iff (by simp [spells.trimmed.ne_nil])).mpr spells.alone.behind
  have border : (parts.collection ++ parts.back).head?.any isBlank = false := by
    rw [collection]
    exact head?_any_isBlank noBlank' _
  obtain ⟨behind, hnames, hkeyword⟩ := outcome_readVariables spells.bindings spells.gap isKeyword
    ⟨spells.alone.before, ends⟩
  rw [readClause, trimmed, outcome_andThen_of hnames]
  dsimp only
  rw [hkeyword, outcome_andThen_of (outcome_readKeywords isKeyword ends),
    outcome_andThen_of (outcome_readBlanks spells.space border)]
  exact outcome_map_of (outcome_readCollection (by simp [spells.trimmed.ne_nil])) _

/-- **A text is read as a clause exactly if it spells that clause.** -/
theorem read_eq_ok_iff : LoopClause.read text = .ok clause ↔ IsClause IsPath text clause := by
  constructor
  · intro h
    simp only [LoopClause.read] at h
    split at h
    · next outcome =>
      obtain rfl := Except.ok.inj h
      exact exists_of_readClause outcome
    · cases h
  · rintro ⟨parts, split, spells⟩
    have collection : trimEnd (parts.collection ++ parts.back) = parts.collection := by
      rw [trimEnd_blanks _ spells.back, spells.trimmed.trimEnd_eq]
    simp only [LoopClause.read, split, outcome_readClause spells]
    rw [ClauseParts.text, ofParts_append, collection, ← spells.collection]

/-- What is read has a variable, and untyped ones are called as types are. -/
theorem isPath_of_read (h : LoopClause.read text = .ok clause) :
    clause.bindings ≠ [] ∧ ∀ v ∈ clause.bindings, IsPath v.name := by
  obtain ⟨parts, -, spells⟩ := read_eq_ok_iff.mp h
  exact spells.bindings.called fun _ => IsName.isPath

/-- **The clauses whose variables are identifiers** are those that are read with such names. -/
theorem isClause_isName_iff :
    IsClause IsName text clause ↔
      LoopClause.read text = .ok clause ∧ ∀ v ∈ clause.bindings, IsName v.name := by
  rw [read_eq_ok_iff]
  constructor
  · intro h
    have ⟨parts, _, spells⟩ := h
    exact ⟨h.imp fun v _ _ => IsName.isPath, (spells.bindings.called fun _ => id).2⟩
  · rintro ⟨h, names⟩
    exact h.imp fun v mem _ _ => names v mem

/-- **A text is read as a loop clause if and only if it spells one.** The collection in it is the
text without blanks at its ends that stands in its span. A variable without a type may be called by
names with dots between them; the clauses of the grammar in which it is one identifier are those
among them whose variables are called so. -/
theorem clause_read_iff_spelled (text : String) (clause : LoopClause) :
    (LoopClause.read text = .ok clause ↔ IsClause IsPath text clause) ∧
      (IsClause IsName text clause ↔
        LoopClause.read text = .ok clause ∧ ∀ v ∈ clause.bindings, IsName v.name) ∧
      (LoopClause.read text = .ok clause →
        slice text.toList clause.collection.span = clause.collection.text.toList ∧
          Trimmed clause.collection.text.toList) := by
  refine ⟨read_eq_ok_iff, isClause_isName_iff, fun h => ?_⟩
  have isClause := read_eq_ok_iff.mp h
  exact ⟨isClause.slice_collection, isClause.trimmed_collection⟩

/-- Two variables with types, and a blank behind the collection. -/
theorem typed_clause_spelled :
    LoopClause.read "(model.Todo todo, int i) of todos.all() " =
        .ok ⟨[⟨some "model.Todo", "todo"⟩, ⟨some "int", "i"⟩], ⟨"todos.all()", ⟨28, 39⟩⟩⟩ ∧
      slice "(model.Todo todo, int i) of todos.all() ".toList ⟨28, 39⟩ = "todos.all()".toList := by
  have read : LoopClause.read "(model.Todo todo, int i) of todos.all() " =
      .ok ⟨[⟨some "model.Todo", "todo"⟩, ⟨some "int", "i"⟩], ⟨"todos.all()", ⟨28, 39⟩⟩⟩ := rfl
  exact ⟨read, ((clause_read_iff_spelled _ _).2.2 read).1⟩

/-- Names with a dot between them are read as one variable without a type, which is not an
identifier. -/
theorem dotted_variable_is_read :
    LoopClause.read "a.b in c" = .ok ⟨[⟨none, "a.b"⟩], ⟨"c", ⟨7, 8⟩⟩⟩ ∧
      ¬ IsName "a.b" ∧ ∀ clause, ¬ IsClause IsName "a.b in c" clause := by
  have read : LoopClause.read "a.b in c" = .ok ⟨[⟨none, "a.b"⟩], ⟨"c", ⟨7, 8⟩⟩⟩ := rfl
  have noName : ¬ IsName "a.b" := by
    rintro ⟨⟨c, rest, same, -, continues⟩, -⟩
    obtain ⟨-, rfl⟩ := List.cons.inj (show 'a' :: ['.', 'b'] = c :: rest from same)
    exact absurd continues (by decide)
  refine ⟨read, noName, fun clause documented => ?_⟩
  obtain ⟨again, names⟩ := isClause_isName_iff.mp documented
  obtain rfl := Except.ok.inj (read.symm.trans again)
  exact noName (names _ List.mem_cons_self)

end TemplateCompiler.Markup
