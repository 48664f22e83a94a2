import TemplateCompiler.Proofs.Markup.ClauseGrammar
import TemplateCompiler.Proofs.Text.Run

/-!
# Reading the variables of a loop

Variables are read as the grammar spells them. A reader looks at the text behind what it reads, so
each one has two lemmas. What it has read is spelled by the text that it took, and what is spelled
in front of a text that ends it is read.

What ends a variable is the interesting part. The first word of a variable is read as a type, and
only what follows tells whether it is one: a name behind blanks, but not a keyword.

## Main definitions

* `Markup.EndsPath`, `Markup.EndsVariable` — what may follow a type, and a variable

## Main statements

* `Markup.exists_of_readSeparated`, `Markup.outcome_readSeparated` — items with separators
* `Markup.exists_of_readVariable`, `Markup.outcome_readVariable` — one variable
* `Markup.exists_of_readVariables`, `Markup.outcome_readVariables` — what stands in front of a
  keyword
-/
namespace TemplateCompiler.Markup

open Text

variable {α β : Type} {cs rest : List Char} {c : Char}

/-! ## Attempts

What a reader makes of text is said for its outcome. Notes have no part in it. -/

section Attempts

variable {first : Attempt α} {value : α}

/-- What has been read when reading went on and succeeded. -/
theorem exists_of_andThen {next : α → List Char → Attempt β} {result : β × List Char}
    (h : (first.andThen next).outcome = some result) :
    ∃ value rest, first.outcome = some (value, rest) ∧ (next value rest).outcome = some result := by
  rw [Attempt.outcome_andThen] at h
  obtain ⟨⟨value, rest⟩, hfirst, hnext⟩ := Option.bind_eq_some_iff.mp h
  exact ⟨value, rest, hfirst, hnext⟩

/-- What has been read when a value was changed. -/
theorem exists_of_map {f : α → β} {result : β} {rest : List Char}
    (h : (first.map f).outcome = some (result, rest)) :
    ∃ value, first.outcome = some (value, rest) ∧ f value = result := by
  rw [Attempt.outcome_map] at h
  obtain ⟨⟨value, behind⟩, hfirst, heq⟩ := Option.map_eq_some_iff.mp h
  obtain ⟨rfl, rfl⟩ := Prod.mk.inj heq
  exact ⟨value, hfirst, rfl⟩

/-- What a reader that is done has read. -/
theorem eq_of_done {value' : α} {rest' : List Char} {notes : List Note}
    (h : (Attempt.done value rest notes).outcome = some (value', rest')) :
    value = value' ∧ rest = rest' :=
  Prod.mk.inj (Option.some.inj h)

/-- Reading goes on with what has been read. -/
theorem outcome_andThen_of (h : first.outcome = some (value, rest))
    (next : α → List Char → Attempt β) :
    (first.andThen next).outcome = (next value rest).outcome := by
  rw [Attempt.outcome_andThen, h]
  rfl

theorem outcome_andThen_of_none (h : first.outcome = none) (next : α → List Char → Attempt β) :
    (first.andThen next).outcome = none := by
  rw [Attempt.outcome_andThen, h]
  rfl

theorem outcome_map_of (h : first.outcome = some (value, rest)) (f : α → β) :
    (first.map f).outcome = some (f value, rest) := by
  rw [Attempt.outcome_map, h]
  rfl

end Attempts

/-! ## Words and marks -/

section Words

variable {word name : String} {mark : Char} {value : Unit} {blanks : List Char}

/-- Text in front of a character that is no blank. -/
theorem head?_any_isBlank (noBlank : isBlank c = false) (rest : List Char) :
    (c :: rest).head?.any isBlank = false := by
  simpa using noBlank

theorem exists_of_readWord (h : (readWord cs).outcome = some (word, rest)) :
    cs = word.toList ++ rest ∧ IsWord word ∧ EndsName rest := by
  unfold readWord at h
  split at h
  · next c tail =>
    split at h
    · next start =>
      obtain ⟨rfl, rfl⟩ := eq_of_done h
      rw [String.toList_ofList, cutRun_taken, cutRun_rest, List.cons_append,
        List.takeWhile_append_dropWhile]
      exact ⟨rfl, ⟨c, _, String.toList_ofList, start, List.all_takeWhile⟩,
        fun d => of_mem_head?_dropWhile⟩
    · cases h
  · cases h

theorem outcome_readWord (h : IsWord word) (ends : EndsName rest) :
    (readWord (word.toList ++ rest)).outcome = some (word, rest) := by
  obtain ⟨c, tail, same, start, continues⟩ := h
  have border : rest.head?.any isIdentifierContinue = false := by
    cases rest with
    | nil => rfl
    | cons d rest => exact ends d rfl
  have whole : String.ofList (c :: tail) = word := by rw [← same, String.ofList_toList]
  rw [same, List.cons_append, readWord, if_pos start, cutRun_run continues border]
  simp only [whole]
  rfl

/-- Nothing is read as a word where none begins. -/
theorem outcome_readWord_of_not_start (h : isIdentifierStart c = false) (rest : List Char) :
    (readWord (c :: rest)).outcome = none := by
  rw [readWord, if_neg (by simp [h])]
  rfl

theorem exists_of_readName (h : (readName cs).outcome = some (name, rest)) :
    cs = name.toList ++ rest ∧ IsName name ∧ EndsName rest := by
  obtain ⟨word, behind, hword, h⟩ := exists_of_andThen h
  obtain ⟨rfl, isWord, ends⟩ := exists_of_readWord hword
  split at h
  · cases h
  · next notKeyword =>
    obtain ⟨rfl, rfl⟩ := eq_of_done h
    exact ⟨rfl, ⟨isWord, by simpa using notKeyword⟩, ends⟩

theorem outcome_readName (h : IsName name) (ends : EndsName rest) :
    (readName (name.toList ++ rest)).outcome = some (name, rest) := by
  rw [readName, outcome_andThen_of (outcome_readWord h.word ends)]
  simp [h.notKeyword, Attempt.done]

/-- A keyword is not read as a name. -/
theorem outcome_readName_of_isKeyword (h : isKeyword word = true) (ends : EndsName rest) :
    (readName (word.toList ++ rest)).outcome = none := by
  rw [readName, outcome_andThen_of (outcome_readWord (isWord_of_isKeyword h) ends)]
  simp [h, Attempt.failed]

theorem exists_of_readKeyword (h : (readKeyword word cs).outcome = some (value, rest)) :
    cs = word.toList ++ rest ∧ EndsName rest := by
  obtain ⟨read, behind, hread, h⟩ := exists_of_andThen h
  obtain ⟨rfl, -, ends⟩ := exists_of_readWord hread
  split at h
  · next same =>
    obtain ⟨-, rfl⟩ := eq_of_done h
    exact ⟨by rw [same], ends⟩
  · cases h

/-- A keyword is read, and not another one. -/
theorem outcome_readKeyword {keyword : String} (h : isKeyword word = true) (ends : EndsName rest) :
    (readKeyword keyword (word.toList ++ rest)).outcome =
      if word = keyword then some ((), rest) else none := by
  rw [readKeyword, outcome_andThen_of (outcome_readWord (isWord_of_isKeyword h) ends)]
  split <;> rfl

theorem exists_of_readMark (h : (readMark mark cs).outcome = some (value, rest)) :
    cs = mark :: rest := by
  unfold readMark at h
  dsimp only at h
  split at h
  · split at h
    · next same =>
      obtain ⟨-, rfl⟩ := eq_of_done h
      rw [same]
    · cases h
  · cases h

theorem outcome_readMark (mark : Char) (rest : List Char) :
    (readMark mark (mark :: rest)).outcome = some ((), rest) := by
  simp [readMark, Attempt.done]

/-- A mark is not read where something else stands. -/
theorem outcome_readMark_of_ne (h : ∀ c ∈ cs.head?, c ≠ mark) :
    (readMark mark cs).outcome = none := by
  cases cs with
  | nil => rfl
  | cons c rest => simp [readMark, h c rfl, Attempt.failed]

theorem exists_of_readBlanks (h : (readBlanks cs).outcome = some (blanks, rest)) :
    cs = blanks ++ rest ∧ IsBlanks blanks ∧ ∀ c ∈ rest.head?, isBlank c = false := by
  obtain ⟨rfl, rfl⟩ := eq_of_done h
  exact ⟨List.takeWhile_append_dropWhile.symm, List.all_takeWhile, fun c => of_mem_head?_dropWhile⟩

theorem outcome_readBlanks (blank : IsBlanks blanks) (border : rest.head?.any isBlank = false) :
    (readBlanks (blanks ++ rest)).outcome = some (blanks, rest) := by
  rw [readBlanks, cutRun_run blank border]
  rfl

theorem exists_of_readPaddedMark (h : (readPaddedMark mark cs).outcome = some (value, rest)) :
    ∃ before behind, cs = before ++ mark :: (behind ++ rest) ∧ IsBlanks before ∧
      IsBlanks behind := by
  obtain ⟨_, tail, hmark, h⟩ := exists_of_andThen h
  obtain ⟨-, rfl⟩ := eq_of_done h
  obtain ⟨before, blankBefore, split⟩ := exists_blanks_trimStart cs
  obtain ⟨behind, blankBehind, splitTail⟩ := exists_blanks_trimStart tail
  refine ⟨before, behind, ?_, blankBefore, blankBehind⟩
  rw [← splitTail, ← exists_of_readMark hmark]
  exact split

theorem outcome_readPaddedMark (mark : Char) (noBlank : isBlank mark = false)
    (blank : IsBlanks blanks) (rest : List Char) :
    (readPaddedMark mark (blanks ++ mark :: rest)).outcome = some ((), trimStart rest) := by
  rw [readPaddedMark, trimStart_blanks blank, trimStart_cons noBlank,
    outcome_andThen_of (outcome_readMark mark rest)]
  rfl

theorem outcome_readPaddedMark_of_ne (noBlank : isBlank c = false) (h : c ≠ mark)
    (blank : IsBlanks blanks) (rest : List Char) :
    (readPaddedMark mark (blanks ++ c :: rest)).outcome = none := by
  rw [readPaddedMark, trimStart_blanks blank, trimStart_cons noBlank]
  refine outcome_andThen_of_none (outcome_readMark_of_ne ?_) _
  rintro _ ⟨⟩
  exact h

end Words

/-! ## Repetitions -/

section Repetitions

variable {separator : List Char → Attempt Unit} {item : List Char → Attempt α}
  {spells : α → List Char → Prop} {border : List Char → Prop} {values : List α}
  {text : List Char} {fuel : Nat}

/-- Further items that have been read. -/
theorem exists_of_readMore
    (reads : ∀ cs value rest, ((separator cs).andThen fun _ => item).outcome = some (value, rest) →
      ∃ piece, cs = piece ++ rest ∧ spells value piece ∧ border rest)
    (front : border cs) (h : (readMore separator item fuel cs).outcome = some (values, rest)) :
    ∃ text, cs = text ++ rest ∧ Repeats spells values text ∧ border rest := by
  induction fuel generalizing cs values with
  | zero =>
    obtain ⟨rfl, rfl⟩ := eq_of_done h
    exact ⟨[], rfl, .nil, front⟩
  | succ fuel ih =>
    simp only [readMore] at h
    split at h
    · next value behind hnext =>
      obtain ⟨⟨more, _⟩, hmore, same⟩ := Option.map_eq_some_iff.mp h
      obtain ⟨rfl, rfl⟩ := Prod.mk.inj same
      obtain ⟨piece, rfl, spelled, ends⟩ := reads _ _ _ hnext
      obtain ⟨text, rfl, repeats, ends⟩ := ih ends hmore
      exact ⟨piece ++ text, (List.append_assoc ..).symm, .cons spelled repeats, ends⟩
    · obtain ⟨rfl, rfl⟩ := eq_of_done h
      exact ⟨[], rfl, .nil, front⟩

/-- Further items are read up to text that does not go on with one. -/
theorem outcome_readMore
    (reads : ∀ value piece, spells value piece → ∀ rest, border rest →
      ((separator (piece ++ rest)).andThen fun _ => item).outcome = some (value, rest))
    (borders : ∀ value piece, spells value piece → ∀ rest, border (piece ++ rest))
    (repeats : Repeats spells values text) (ends : border rest)
    (stops : ((separator rest).andThen fun _ => item).outcome = none)
    (enough : values.length ≤ fuel) :
    border (text ++ rest) ∧
      (readMore separator item fuel (text ++ rest)).outcome = some (values, rest) := by
  induction repeats generalizing fuel with
  | nil =>
    refine ⟨ends, ?_⟩
    cases fuel with
    | zero => rfl
    | succ fuel =>
      rw [List.nil_append, readMore]
      simp only [stops]
      rfl
  | cons spelled repeats ih =>
    rw [List.append_assoc]
    refine ⟨borders _ _ spelled _, ?_⟩
    cases fuel with
    | zero => cases enough
    | succ fuel =>
      obtain ⟨ends, more⟩ := ih (Nat.le_of_succ_le_succ enough)
      rw [readMore]
      simp only [reads _ _ spelled _ ends, more, Option.map_some]

/-- What has been read where items are separated. -/
theorem exists_of_readSeparated {spellsFirst : α → List Char → Prop}
    (readsFirst : ∀ cs value rest, (item cs).outcome = some (value, rest) →
      ∃ piece, cs = piece ++ rest ∧ spellsFirst value piece ∧ border rest)
    (reads : ∀ cs value rest, ((separator cs).andThen fun _ => item).outcome = some (value, rest) →
      ∃ piece, cs = piece ++ rest ∧ spells value piece ∧ border rest)
    (h : (readSeparated separator item cs).outcome = some (values, rest)) :
    ∃ first more piece text, values = first :: more ∧ cs = piece ++ (text ++ rest) ∧
      spellsFirst first piece ∧ Repeats spells more text ∧ border rest := by
  obtain ⟨first, behind, hfirst, h⟩ := exists_of_andThen h
  obtain ⟨more, hmore, rfl⟩ := exists_of_map h
  obtain ⟨piece, rfl, spelled, ends⟩ := readsFirst _ _ _ hfirst
  obtain ⟨text, rfl, repeats, ends⟩ := exists_of_readMore reads ends hmore
  exact ⟨first, more, piece, text, rfl, rfl, spelled, repeats, ends⟩

/-- Separated items are read up to text that does not go on with one. -/
theorem outcome_readSeparated {first : α} {piece : List Char}
    (readsFirst : ∀ rest, border rest → (item (piece ++ rest)).outcome = some (first, rest))
    (reads : ∀ value piece, spells value piece → ∀ rest, border rest →
      ((separator (piece ++ rest)).andThen fun _ => item).outcome = some (value, rest))
    (borders : ∀ value piece, spells value piece → ∀ rest, border (piece ++ rest))
    (nonempty : ∀ value piece, spells value piece → piece ≠ [])
    (repeats : Repeats spells values text) (ends : border rest)
    (stops : ((separator rest).andThen fun _ => item).outcome = none) :
    (readSeparated separator item (piece ++ (text ++ rest))).outcome =
      some (first :: values, rest) := by
  have enough : values.length ≤ (text ++ rest).length + 1 := by
    have le := repeats.length_le nonempty
    rw [List.length_append]
    omega
  obtain ⟨behind, more⟩ := outcome_readMore reads borders repeats ends stops enough
  rw [readSeparated, outcome_andThen_of (readsFirst _ behind)]
  exact outcome_map_of more _

end Repetitions

/-! ## Types -/

/-- The first name of a type. -/
def SpellsName (name : String) (cs : List Char) : Prop := IsName name ∧ cs = name.toList

/-- A further name of a type, behind a dot. -/
def SpellsFurtherName (name : String) (cs : List Char) : Prop :=
  IsName name ∧ cs = '.' :: name.toList

/-- What may follow a type: it does not go on with the last name, and not with another one. -/
def EndsPath (rest : List Char) : Prop :=
  ∀ c ∈ rest.head?, isIdentifierContinue c = false ∧ c ≠ '.'

theorem exists_of_readTypePath {path : String}
    (h : (readTypePath cs).outcome = some (path, rest)) :
    cs = path.toList ++ rest ∧ IsPath path ∧ EndsName rest := by
  have readsFirst (cs : List Char) (name : String) (rest : List Char)
      (h : (readName cs).outcome = some (name, rest)) :
      ∃ piece, cs = piece ++ rest ∧ SpellsName name piece ∧ EndsName rest := by
    obtain ⟨split, isName, ends⟩ := exists_of_readName h
    exact ⟨name.toList, split, ⟨isName, rfl⟩, ends⟩
  have reads (cs : List Char) (name : String) (rest : List Char)
      (h : ((readMark '.' cs).andThen fun _ => readName).outcome = some (name, rest)) :
      ∃ piece, cs = piece ++ rest ∧ SpellsFurtherName name piece ∧ EndsName rest := by
    obtain ⟨_, tail, hmark, hname⟩ := exists_of_andThen h
    obtain ⟨rfl, isName, ends⟩ := exists_of_readName hname
    exact ⟨'.' :: name.toList, exists_of_readMark hmark, ⟨isName, rfl⟩, ends⟩
  obtain ⟨names, hnames, rfl⟩ := exists_of_map h
  obtain ⟨first, more, piece, text, rfl, rfl, ⟨isName, rfl⟩, repeats, ends⟩ :=
    exists_of_readSeparated readsFirst reads hnames
  have spelled := repeats.eq_flatMap (fun name => ".".toList ++ name.toList) fun _ _ h => h.2
  refine ⟨?_, ⟨first, more, rfl, isName, repeats.forall fun _ _ h => h.1⟩, ends⟩
  rw [toList_intercalate, ← spelled, List.append_assoc]

/-- A type is read. -/
theorem outcome_readTypePath {path : String} (h : IsPath path) (ends : EndsPath rest) :
    (readTypePath (path.toList ++ rest)).outcome = some (path, rest) := by
  have reads (name : String) (piece : List Char) (spelled : SpellsFurtherName name piece)
      (rest : List Char) (ends : EndsName rest) :
      ((readMark '.' (piece ++ rest)).andThen fun _ => readName).outcome = some (name, rest) := by
    obtain ⟨isName, rfl⟩ := spelled
    rw [List.cons_append, outcome_andThen_of (outcome_readMark '.' _)]
    exact outcome_readName isName ends
  have borders (name : String) (piece : List Char) (spelled : SpellsFurtherName name piece)
      (rest : List Char) : EndsName (piece ++ rest) := by
    obtain ⟨-, rfl⟩ := spelled
    rintro _ ⟨⟩
    decide
  have nonempty (name : String) (piece : List Char) (spelled : SpellsFurtherName name piece) :
      piece ≠ [] :=
    spelled.2 ▸ List.cons_ne_nil _ _
  obtain ⟨first, more, rfl, hfirst, hmore⟩ := h
  have repeats : Repeats SpellsFurtherName more
      (more.flatMap fun name => ".".toList ++ name.toList) :=
    repeats_flatMap _ fun name mem => ⟨hmore name mem, rfl⟩
  have stops : ((readMark '.' rest).andThen fun _ => readName).outcome = none :=
    outcome_andThen_of_none (outcome_readMark_of_ne fun c mem => (ends c mem).2) _
  have all := outcome_readSeparated (fun rest => outcome_readName hfirst) reads borders nonempty
    repeats (fun c mem => (ends c mem).1) stops
  rw [readTypePath, toList_intercalate, List.append_assoc]
  exact outcome_map_of all _

/-! ## Variables -/

section Variables

variable {v : LoopVariable} {bindings : List LoopVariable} {blanks gap : List Char}
  {keyword : String}

/-- Blanks end a type. -/
theorem endsPath_blanks (blank : IsBlanks blanks) (nonempty : blanks ≠ []) (rest : List Char) :
    EndsPath (blanks ++ rest) := by
  obtain ⟨d, blanks, rfl⟩ := List.exists_cons_of_ne_nil nonempty
  have first : isBlank d = true := List.all_eq_true.mp blank d List.mem_cons_self
  rintro _ ⟨⟩
  refine ⟨isIdentifierContinue_of_isBlank first, ?_⟩
  rintro rfl
  cases first

/-- A declared name is read behind blanks. -/
theorem outcome_readDeclaredName (blank : IsBlanks blanks) (nonempty : blanks ≠ [])
    (border : rest.head?.any isBlank = false) :
    (readDeclaredName (blanks ++ rest)).outcome = (readName rest).outcome := by
  rw [readDeclaredName, outcome_andThen_of (outcome_readBlanks blank border),
    if_neg (by simpa using nonempty)]

theorem exists_of_readVariable (h : (readVariable cs).outcome = some (v, rest)) :
    ∃ spelled, cs = spelled ++ rest ∧ SpellsVariable IsPath v spelled ∧ EndsName rest := by
  obtain ⟨path, behind, hpath, h⟩ := exists_of_andThen h
  obtain ⟨name?, hname, rfl⟩ := exists_of_map h
  obtain ⟨rfl, isPath, ends⟩ := exists_of_readTypePath hpath
  rw [Attempt.optional] at hname
  split at hname
  · next name tail hdeclared =>
    obtain ⟨rfl, rfl⟩ := Prod.mk.inj (Option.some.inj hname)
    obtain ⟨blanks, tail, hblanks, hread⟩ := exists_of_andThen hdeclared
    obtain ⟨rfl, blank, -⟩ := exists_of_readBlanks hblanks
    split at hread
    · cases hread
    · next nonempty =>
      obtain ⟨rfl, isName, ends⟩ := exists_of_readName hread
      refine ⟨path.toList ++ (blanks ++ name.toList), ?_, ?_, ends⟩
      · rw [List.append_assoc, List.append_assoc]
      · exact .typed isPath blank (by simpa using nonempty) isName
  · obtain ⟨rfl, rfl⟩ := Prod.mk.inj (Option.some.inj hname)
    exact ⟨path.toList, rfl, .bare isPath, ends⟩

/-- What may follow a variable: it ends its name, and no other name comes behind blanks. -/
structure EndsVariable (rest : List Char) : Prop where
  path : EndsPath rest
  noName : (readDeclaredName rest).outcome = none

/-- **A variable is read**, with its type if it has one. -/
theorem outcome_readVariable (h : SpellsVariable IsPath v cs) (ends : EndsVariable rest) :
    (readVariable (cs ++ rest)).outcome = some (v, rest) := by
  cases h with
  | bare isPath =>
    rw [readVariable, outcome_andThen_of (outcome_readTypePath isPath ends.path),
      Attempt.optional, ends.noName]
    rfl
  | @typed type name blanks isPath blank nonempty isName =>
    obtain ⟨c, word, same, start⟩ := isName.word.exists_cons
    have border : (name.toList ++ rest).head?.any isBlank = false := by
      rw [same]
      exact head?_any_isBlank (isBlank_of_isIdentifierStart start) _
    have declared : (readDeclaredName (blanks ++ (name.toList ++ rest))).outcome =
        some (name, rest) := by
      rw [outcome_readDeclaredName blank nonempty border]
      exact outcome_readName isName fun c mem => (ends.path c mem).1
    rw [List.append_assoc, List.append_assoc, readVariable,
      outcome_andThen_of (outcome_readTypePath isPath (endsPath_blanks blank nonempty _)),
      Attempt.optional, declared]
    rfl

/-- A comma or a closing parenthesis ends a variable. -/
theorem endsVariable_mark {c : Char} (mark : c = ',' ∨ c = ')') (blank : IsBlanks blanks)
    (rest : List Char) : EndsVariable (blanks ++ c :: rest) := by
  have noStart : isIdentifierStart c = false := by rcases mark with rfl | rfl <;> decide
  have noBlank : isBlank c = false := by rcases mark with rfl | rfl <;> decide
  have noPath : isIdentifierContinue c = false ∧ c ≠ '.' := by
    rcases mark with rfl | rfl <;> decide
  by_cases empty : blanks = []
  · subst empty
    refine ⟨by rintro _ ⟨⟩; exact noPath, ?_⟩
    rw [readDeclaredName,
      outcome_andThen_of (outcome_readBlanks blank (head?_any_isBlank noBlank rest))]
    rfl
  · refine ⟨endsPath_blanks blank empty _, ?_⟩
    rw [outcome_readDeclaredName blank empty (head?_any_isBlank noBlank rest), readName]
    exact outcome_andThen_of_none (outcome_readWord_of_not_start noStart rest) _

/-- The keyword of a clause ends a variable, because it is not the name behind a type. -/
theorem endsVariable_keyword (blank : IsBlanks blanks) (nonempty : blanks ≠ [])
    (isKeyword : isKeyword keyword = true) (ends : EndsName rest) :
    EndsVariable (blanks ++ (keyword.toList ++ rest)) := by
  obtain ⟨c, word, same, start⟩ := (isWord_of_isKeyword isKeyword).exists_cons
  have border : (keyword.toList ++ rest).head?.any isBlank = false := by
    rw [same]
    exact head?_any_isBlank (isBlank_of_isIdentifierStart start) _
  refine ⟨endsPath_blanks blank nonempty _, ?_⟩
  rw [outcome_readDeclaredName blank nonempty border]
  exact outcome_readName_of_isKeyword isKeyword ends

/-! ## Lists of variables -/

theorem exists_of_readVariableList
    (h : (readVariableList cs).outcome = some (bindings, rest)) :
    ∃ blanks spelled gap, cs = blanks ++ (spelled ++ (gap ++ rest)) ∧ IsBlanks blanks ∧
      SpellsVariables IsPath bindings spelled ∧ IsBlanks gap ∧ spelled.getLast? = some ')' := by
  have reads (cs : List Char) (v : LoopVariable) (rest : List Char)
      (h : ((readPaddedMark ',' cs).andThen fun _ => readVariable).outcome = some (v, rest)) :
      ∃ piece, cs = piece ++ rest ∧ SpellsFurther IsPath v piece ∧ EndsName rest := by
    obtain ⟨_, tail, hcomma, hread⟩ := exists_of_andThen h
    obtain ⟨before, behind, rfl, blankBefore, blankBehind⟩ := exists_of_readPaddedMark hcomma
    obtain ⟨spelled, rfl, isSpelled, ends⟩ := exists_of_readVariable hread
    refine ⟨_, ?_, .intro blankBefore blankBehind isSpelled, ends⟩
    simp only [List.append_assoc, List.cons_append]
  obtain ⟨_, tail, hopen, hinside⟩ := exists_of_andThen h
  obtain ⟨all, behind, hall, hend⟩ := exists_of_andThen hinside
  obtain ⟨_, hclose, rfl⟩ := exists_of_map hend
  obtain ⟨blanks, front, rfl, blank, blankFront⟩ := exists_of_readPaddedMark hopen
  obtain ⟨back, gap, rfl, blankBack, blankGap⟩ := exists_of_readPaddedMark hclose
  obtain ⟨first, more, piece, text, rfl, rfl, spelled, repeats, -⟩ :=
    exists_of_readSeparated (fun _ _ _ => exists_of_readVariable) reads hall
  refine ⟨blanks, _, gap, ?_, blank, .list blankFront spelled repeats blankBack, blankGap, ?_⟩
  · simp only [List.append_assoc, List.cons_append, List.nil_append]
  · simp only [← List.append_assoc, ← List.cons_append, List.getLast?_concat]

/-- **Variables in parentheses are read.** -/
theorem outcome_readVariableList {first : LoopVariable} {more : List LoopVariable}
    {front text back : List Char} (blankFront : IsBlanks front)
    (spelled : SpellsVariable IsPath first cs) (repeats : Repeats (SpellsFurther IsPath) more text)
    (blankBack : IsBlanks back) (rest : List Char) :
    (readVariableList ('(' :: (front ++ (cs ++ (text ++ (back ++ [')']))) ++ rest))).outcome =
      some (first :: more, Text.trimStart rest) := by
  have reads (v : LoopVariable) (piece : List Char) (h : SpellsFurther IsPath v piece)
      (rest : List Char) (ends : EndsVariable rest) :
      ((readPaddedMark ',' (piece ++ rest)).andThen fun _ => readVariable).outcome =
        some (v, rest) := by
    obtain ⟨blankBefore, blankGap, isSpelled⟩ := h
    rename_i before gap cs
    have comma := outcome_readPaddedMark ',' rfl blankBefore (gap ++ (cs ++ rest))
    rw [trimStart_blanks blankGap, isSpelled.trimStart] at comma
    rw [List.append_assoc, List.cons_append, List.append_assoc, outcome_andThen_of comma]
    exact outcome_readVariable isSpelled ends
  have borders (v : LoopVariable) (piece : List Char) (h : SpellsFurther IsPath v piece)
      (rest : List Char) : EndsVariable (piece ++ rest) := by
    obtain ⟨blankBefore, -, -⟩ := h
    rw [List.append_assoc, List.cons_append]
    exact endsVariable_mark (.inl rfl) blankBefore _
  have nonempty (v : LoopVariable) (piece : List Char) (h : SpellsFurther IsPath v piece) :
      piece ≠ [] := by
    obtain ⟨-, -, -⟩ := h
    simp
  have stops : ((readPaddedMark ',' (back ++ ')' :: rest)).andThen fun _ => readVariable).outcome =
      none :=
    outcome_andThen_of_none (outcome_readPaddedMark_of_ne rfl (by decide) blankBack rest) _
  have nothing : IsBlanks [] := rfl
  have opened := outcome_readPaddedMark '(' rfl nothing
    (front ++ (cs ++ (text ++ (back ++ ')' :: rest))))
  rw [List.nil_append, trimStart_blanks blankFront, spelled.trimStart] at opened
  have all := outcome_readSeparated (fun rest => outcome_readVariable spelled) reads borders
    nonempty repeats (endsVariable_mark (.inr rfl) blankBack rest) stops
  have closed := outcome_readPaddedMark ')' rfl blankBack rest
  simp only [List.append_assoc, List.singleton_append]
  rw [readVariableList, outcome_andThen_of opened, outcome_andThen_of all]
  exact outcome_map_of closed _

/-! ## Variables in front of a keyword -/

/-- A keyword stands alone behind a parenthesis, behind blanks, and behind a name that ends. -/
theorem isWordChar_in_front {tail : List Char} (blank : IsBlanks gap)
    (isKeyword : isKeyword keyword = true)
    (ends : cs.getLast? = some ')' ∨ EndsName (gap ++ (keyword.toList ++ tail))) :
    ∀ c ∈ (cs ++ gap).getLast?, isWordChar c = false := by
  rcases List.eq_nil_or_concat' gap with rfl | ⟨init, last, rfl⟩
  · rw [List.append_nil]
    rcases ends with parenthesis | ends
    · rw [parenthesis]
      rintro _ ⟨⟩
      decide
    · -- the keyword would belong to the name in front of it
      rw [Markup.isKeyword, Bool.or_eq_true, beq_iff_eq, beq_iff_eq] at isKeyword
      rcases isKeyword with rfl | rfl
      · exact absurd (ends 'i' rfl) (by decide)
      · exact absurd (ends 'o' rfl) (by decide)
  · rw [← List.append_assoc, List.getLast?_concat]
    rintro _ ⟨⟩
    exact isWordChar_of_isBlank (List.all_eq_true.mp blank last (by simp))

theorem exists_of_readVariables (front : ∀ c ∈ cs.head?, isBlank c = false)
    (h : (readVariables cs).outcome = some (bindings, rest)) :
    ∃ spelled gap, cs = spelled ++ (gap ++ rest) ∧ SpellsVariables IsPath bindings spelled ∧
      IsBlanks gap ∧ (spelled.getLast? = some ')' ∨ EndsName (gap ++ rest)) := by
  rw [readVariables, Attempt.outcome_orElse, Option.or_eq_some_iff] at h
  rcases h with several | ⟨-, one⟩
  · obtain ⟨blanks, spelled, gap, rfl, blank, isSpelled, blankGap, last⟩ :=
      exists_of_readVariableList several
    cases blanks with
    | nil => exact ⟨spelled, gap, rfl, isSpelled, blankGap, .inl last⟩
    | cons d blanks =>
      have first := List.all_eq_true.mp blank d List.mem_cons_self
      rw [front d rfl] at first
      cases first
  · obtain ⟨v, hv, rfl⟩ := exists_of_map one
    obtain ⟨spelled, rfl, isSpelled, ends⟩ := exists_of_readVariable hv
    exact ⟨spelled, [], rfl, .single isSpelled, rfl, .inr ends⟩

/-- **Variables in front of a keyword that stands alone are read**, and perhaps the blanks behind
them. -/
theorem outcome_readVariables {names tail : List Char}
    (spelled : SpellsVariables IsPath bindings names) (blank : IsBlanks gap)
    (isKeyword : isKeyword keyword = true) (alone : StandsAlone (names ++ gap) tail) :
    ∃ rest, (readVariables (names ++ (gap ++ (keyword.toList ++ tail)))).outcome =
        some (bindings, rest) ∧ Text.trimStart rest = keyword.toList ++ tail := by
  obtain ⟨c, word, same, start⟩ := (isWord_of_isKeyword isKeyword).exists_cons
  have trimmed : Text.trimStart (gap ++ (keyword.toList ++ tail)) = keyword.toList ++ tail := by
    rw [trimStart_blanks blank, same]
    exact trimStart_cons (isBlank_of_isIdentifierStart start) _
  cases spelled with
  | @single v cs isSpelled =>
    have nonempty : gap ≠ [] := by
      rintro rfl
      obtain ⟨c, last, inWord⟩ := isSpelled.exists_last
      have none := alone.before c (by rw [List.append_nil]; exact last)
      rw [inWord] at none
      cases none
    have ends := endsVariable_keyword blank nonempty isKeyword alone.behind
    have notSeveral : (readVariableList (names ++ (gap ++ (keyword.toList ++ tail)))).outcome =
        none := by
      obtain ⟨c, rest, rfl, start⟩ := isSpelled.exists_cons
      have nothing : IsBlanks [] := rfl
      have noList : c ≠ '(' := by
        rintro rfl
        exact absurd start (by decide)
      exact outcome_andThen_of_none (outcome_readPaddedMark_of_ne
        (isBlank_of_isIdentifierStart start) noList nothing _) _
    refine ⟨_, ?_, trimmed⟩
    rw [readVariables, Attempt.outcome_orElse, notSeveral,
      outcome_map_of (outcome_readVariable isSpelled ends)]
    rfl
  | list blankFront isSpelled repeats blankBack =>
    have several := outcome_readVariableList blankFront isSpelled repeats blankBack
      (gap ++ (keyword.toList ++ tail))
    refine ⟨_, ?_, (congrArg Text.trimStart trimmed).trans ?_⟩
    · rw [readVariables, Attempt.outcome_orElse, List.cons_append, several]
      rfl
    · rw [same]
      exact trimStart_cons (isBlank_of_isIdentifierStart start) _

end Variables

end TemplateCompiler.Markup
