import Mathlib.Data.Finset.Card
import Mathlib.Data.Nat.Find
import TemplateCompiler.Placeholder

/-!
# Finding placeholders

A placeholder is recognised by what stands around it: the character before its lead, and the first
character behind its number that is no digit. Where two stretches of text are separated by a
border, characters that neither a name nor a placeholder has, they can therefore be searched one
by one. This is what makes it possible to say which placeholders a text with holes has.

## Main definitions

* `Placeholder.Border` — characters that separate placeholders from the text around them

## Main statements

* `Placeholder.findFrom_border` — text is searched on either side of a border apart
* `Placeholder.findFrom_number` — a lead with a number is found, and nothing else in it
* `Placeholder.findFrom_eq_nil` — nothing is found where the lead's dollar sign is missing
-/
namespace TemplateCompiler.Placeholder

open Text

/-- Characters that no placeholder has, at least one of them. -/
def Border (cs : List Char) : Prop := cs ≠ [] ∧ ∀ c ∈ cs, isGlue c = false

/-- What is used of a lead: all its characters are those of names, a dollar sign among them. -/
structure IsLead (lead : List Char) : Prop where
  glue : ∀ c ∈ lead, isGlue c = true
  dollar : '$' ∈ lead

theorem isLead_expressionLead : IsLead expressionLead.toList :=
  ⟨List.all_eq_true.mp (by decide), by decide⟩

theorem isLead_collectionLead : IsLead collectionLead.toList :=
  ⟨List.all_eq_true.mp (by decide), by decide⟩

theorem isGlue_of_isDigit {c : Char} (h : c.isDigit = true) : isGlue c = true := by
  simp [isGlue, Char.isAlphanum, h]

variable {lead : List Char}

/-- A lead does not begin where its first character is missing. -/
theorem IsLead.after?_cons (hlead : IsLead lead) {c : Char} (h : c ∉ lead.head?)
    (cs : List Char) : after? lead (c :: cs) = none := by
  cases lead with
  | nil => exact absurd hlead.dollar List.not_mem_nil
  | cons l lead =>
    have ne : l ≠ c := by
      rintro rfl
      exact h rfl
    simp [after?, ne]

/-! ## Borders -/

/-- Whether given characters are a border can be computed. -/
theorem border_of_any {cs : List Char} (nonempty : cs ≠ []) (h : cs.any isGlue = false) :
    Border cs := by
  refine ⟨nonempty, ?_⟩
  intro c mem
  simpa using List.any_eq_false.mp h c mem

/-- What the lead may be glued to does not matter behind a character that is no glue. -/
theorem findFrom_before {before : Option Char} (h : before.any isGlue = false)
    (offset skip : Nat) (cs : List Char) :
    findFrom lead before offset skip cs = findFrom lead none offset skip cs := by
  cases cs with
  | nil => rfl
  | cons c cs =>
    cases skip with
    | succ skip => rfl
    | zero => simp [findFrom, h]

/-- A border is passed over. -/
theorem findFrom_of_border (hlead : IsLead lead) {left : List Char} (h : Border left)
    (before : Option Char) (offset : Nat) (rest : List Char) :
    findFrom lead before offset 0 (left ++ rest) =
      findFrom lead none (offset + byteLength left) 0 rest := by
  obtain ⟨nonempty, noGlue⟩ := h
  induction left generalizing before offset with
  | nil => exact absurd rfl nonempty
  | cons c left ih =>
    have hc := noGlue c List.mem_cons_self
    -- the lead begins with glue, so it does not begin here
    have first : c ∉ lead.head? := by
      intro same
      have glue := hlead.glue c (List.mem_of_mem_head? same)
      simp [glue] at hc
    rw [List.cons_append, findFrom, hlead.after?_cons first, byteLength_cons, ← Nat.add_assoc]
    cases left with
    | nil => exact findFrom_before (by simpa using hc) _ _ _
    | cons d left =>
      exact ih _ _ (List.cons_ne_nil d left) fun e he => noGlue e (List.mem_cons_of_mem c he)

/-- Whether text begins with the lead is decided in front of a border. -/
theorem after?_border (hlead : IsLead lead) {left : List Char} (h : Border left)
    (cs rest : List Char) :
    after? lead (cs ++ (left ++ rest)) = (after? lead cs).map (· ++ (left ++ rest)) := by
  obtain ⟨c, left, rfl⟩ := List.exists_cons_of_ne_nil h.1
  refine after?_append ?_ cs
  intro d hd mem
  obtain rfl := Option.some.inj hd
  have noGlue := h.2 c List.mem_cons_self
  simp [hlead.glue c mem] at noGlue

/-- A number ends in front of a border. -/
theorem takeWhile_isDigit_border {left : List Char} (h : Border left) (cs rest : List Char) :
    (cs ++ (left ++ rest)).takeWhile Char.isDigit = cs.takeWhile Char.isDigit := by
  obtain ⟨c, left, rfl⟩ := List.exists_cons_of_ne_nil h.1
  have noDigit : c.isDigit = false := by
    by_contra digit
    have glue := isGlue_of_isDigit (by simpa using digit)
    simp [h.2 c List.mem_cons_self] at glue
  rw [List.takeWhile_append, List.cons_append, List.takeWhile_cons_of_neg (by simp [noDigit])]
  split
  · rename_i all
    rw [List.append_nil]
    exact ((List.takeWhile_sublist _).eq_of_length all).symm
  · rfl

/-- **Text is searched on either side of a border apart.** -/
theorem findFrom_border (hlead : IsLead lead) {left : List Char} (h : Border left)
    (rest : List Char) {cs : List Char} {skip : Nat} (le : skip ≤ cs.length)
    (before : Option Char) (offset : Nat) :
    findFrom lead before offset skip (cs ++ (left ++ rest)) =
      findFrom lead before offset skip cs ++
        findFrom lead none (offset + byteLength cs + byteLength left) 0 rest := by
  induction cs generalizing skip before offset with
  | nil =>
    obtain rfl : skip = 0 := Nat.le_zero.mp le
    exact findFrom_of_border hlead h before offset rest
  | cons c cs ih =>
    rw [byteLength_cons, ← Nat.add_assoc, List.cons_append]
    cases skip with
    | succ skip => exact ih (Nat.le_of_succ_le_succ le) _ _
    | zero =>
      have begins := after?_border hlead h (c :: cs) rest
      rw [List.cons_append] at begins
      rw [findFrom, findFrom, begins]
      cases hafter : after? lead (c :: cs) with
      | none => exact ih (Nat.zero_le _) _ _
      | some number =>
        have split := after?_eq_some_iff.mp hafter
        have length := congrArg List.length split
        rw [List.length_cons, List.length_append] at length
        have digits := (List.takeWhile_sublist (p := Char.isDigit) (l := number)).length_le
        simp only [Option.map_some, takeWhile_isDigit_border h]
        split
        · refine ih ?_ _ _
          omega
        · rw [List.cons_append]
          refine congrArg _ (ih ?_ _ _)
          rw [List.length_append]
          omega

/-! ## Stretches without placeholders -/

/-- Nothing is found in text without the lead. -/
theorem findFrom_eq_nil_of_not_infix {cs : List Char} (h : ¬ lead <:+: cs)
    (before : Option Char) (offset skip : Nat) : findFrom lead before offset skip cs = [] := by
  induction cs generalizing before offset skip with
  | nil => cases skip <;> rfl
  | cons c cs ih =>
    have behind : ¬ lead <:+: cs := fun inside => h (inside.trans (List.suffix_cons c cs).isInfix)
    cases skip with
    | succ skip => exact ih behind _ _ _
    | zero =>
      have absent : after? lead (c :: cs) = none := by
        by_contra found
        obtain ⟨rest, hrest⟩ := Option.ne_none_iff_exists'.mp found
        rw [after?_eq_some_iff.mp hrest] at h
        exact h (List.prefix_append lead rest).isInfix
      rw [findFrom, absent]
      exact ih behind _ _ _

/-- Nothing is found where the lead's dollar sign is missing. -/
theorem findFrom_eq_nil (hlead : IsLead lead) {cs : List Char} (h : '$' ∉ cs)
    (before : Option Char) (offset skip : Nat) : findFrom lead before offset skip cs = [] :=
  findFrom_eq_nil_of_not_infix (fun inside => h (inside.subset hlead.dollar)) _ _ _

/-- Text without the first character of the lead is passed over. -/
theorem findFrom_append_of_not_mem (hlead : IsLead lead) {cs : List Char}
    (h : ∀ l ∈ lead.head?, l ∉ cs) (rest : List Char) (before : Option Char) (offset : Nat) :
    ∃ before', findFrom lead before offset 0 (cs ++ rest) =
      findFrom lead before' (offset + byteLength cs) 0 rest := by
  induction cs generalizing before offset with
  | nil => exact ⟨before, rfl⟩
  | cons c cs ih =>
    have first : c ∉ lead.head? := fun same => h c same List.mem_cons_self
    obtain ⟨before', behind⟩ := ih (fun l hl mem => h l hl (List.mem_cons_of_mem c mem)) (some c)
      (offset + c.utf8Size)
    refine ⟨before', ?_⟩
    rw [List.cons_append, findFrom, hlead.after?_cons first, byteLength_cons, ← Nat.add_assoc,
      ← behind]

/-- What has been recognised already is passed over. -/
theorem findFrom_skip (lead cs rest : List Char) (before : Option Char) (offset : Nat) :
    ∃ before', findFrom lead before offset cs.length (cs ++ rest) =
      findFrom lead before' (offset + byteLength cs) 0 rest := by
  induction cs generalizing before offset with
  | nil => exact ⟨before, rfl⟩
  | cons c cs ih =>
    obtain ⟨before', more⟩ := ih (some c) (offset + c.utf8Size)
    refine ⟨before', ?_⟩
    rw [byteLength_cons, ← Nat.add_assoc, ← more]
    rfl

/-! ## Names of placeholders -/

theorem isDigit_of_mem_toString {n : Nat} {c : Char} (h : c ∈ (toString n).toList) :
    c.isDigit = true := by
  rw [Nat.toString_eq_repr, Nat.toList_repr] at h
  exact Nat.isDigit_of_mem_toDigits (by decide) (by decide) h

theorem toString_ne_nil (n : Nat) : (toString n).toList ≠ [] := by
  rw [Nat.toString_eq_repr, Nat.toList_repr]
  exact Nat.toDigits_ne_nil

theorem dollar_not_mem_toString (n : Nat) : '$' ∉ (toString n).toList := by
  intro mem
  exact absurd (isDigit_of_mem_toString mem) (by decide)

/-- **A lead with a number is found**, and nothing else in it or in the text behind it, if that is
no part of the number and has no dollar sign. -/
theorem findFrom_number (hlead : IsLead lead) (n : Nat) (rest : List Char) (dollar : '$' ∉ rest)
    (digit : ∀ c ∈ rest.head?, c.isDigit = false) (offset : Nat) :
    findFrom lead none offset 0 (lead ++ (toString n).toList ++ rest) =
      [⟨String.ofList (lead ++ (toString n).toList),
        ⟨offset, offset + byteLength (lead ++ (toString n).toList)⟩⟩] := by
  have number : ((toString n).toList ++ rest).takeWhile Char.isDigit = (toString n).toList := by
    rw [List.takeWhile_append_of_pos fun c hc => isDigit_of_mem_toString hc]
    cases rest with
    | nil => simp
    | cons c rest =>
      rw [List.takeWhile_cons_of_neg (by simp [digit c rfl]), List.append_nil]
  have nonempty := toString_ne_nil n
  generalize (toString n).toList = digits at number nonempty
  cases lead with
  | nil => exact absurd hlead.dollar (by simp)
  | cons l lead =>
    have begins : after? (l :: lead) (l :: (lead ++ digits ++ rest)) = some (digits ++ rest) := by
      rw [after?_eq_some_iff]
      simp
    obtain ⟨before, more⟩ := findFrom_skip (l :: lead) (lead ++ digits) rest (some l)
      (offset + l.utf8Size)
    rw [findFrom_eq_nil hlead dollar] at more
    have count : (l :: lead ++ digits).length - 1 = (lead ++ digits).length := by simp
    rw [List.cons_append, List.cons_append, findFrom, begins]
    simp only [number, List.isEmpty_eq_false_iff.mpr nonempty, Option.any_none, Bool.or_self,
      Bool.false_eq_true, if_false]
    rw [count, more]
    simp

/-- Nothing is found in the name of another family, whose lead does not have the first character
of the one that is looked for. -/
theorem findFrom_other (hlead : IsLead lead) {other : List Char}
    (h : ∀ l ∈ lead.head?, l ∉ other) (n : Nat) {rest : List Char} (dollar : '$' ∉ rest)
    (before : Option Char) (offset : Nat) :
    findFrom lead before offset 0 (other ++ ((toString n).toList ++ rest)) = [] := by
  obtain ⟨before', behind⟩ :=
    findFrom_append_of_not_mem hlead h ((toString n).toList ++ rest) before offset
  rw [behind]
  refine findFrom_eq_nil hlead ?_ _ _ _
  rw [List.mem_append, not_or]
  exact ⟨dollar_not_mem_toString n, dollar⟩

/-! ## Numbers from zero on -/

theorem toString_injective : Function.Injective fun n : Nat => toString n := by
  intro m n same
  have digits := congrArg String.toList (show toString m = toString n from same)
  rw [Nat.toString_eq_repr, Nat.toString_eq_repr, Nat.toList_repr, Nat.toList_repr] at digits
  have values := congrArg (fun ds => Nat.ofDigitChars 10 ds 0) digits
  simpa only [Nat.ofDigitChars_ten_toDigits] using values

/-- Distinct numbers make distinct names. -/
theorem name_injective (lead : String) : Function.Injective fun n : Nat => lead ++ toString n := by
  intro m n same
  have texts := congrArg String.toList (show lead ++ toString m = lead ++ toString n from same)
  rw [String.toList_append, String.toList_append] at texts
  exact toString_injective (String.toList_inj.mp (List.append_cancel_left texts))

/-- The names of expressions are none of collections. -/
theorem expressionId_ne_collectionId (m n : Nat) : expressionId m ≠ collectionId n := by
  intro same
  have texts := congrArg String.toList same
  rw [expressionId, collectionId, String.toList_append, String.toList_append] at texts
  have first : some 'e' = some 'c' := congrArg List.head? texts
  exact absurd first (by decide)

/-- A lead with a number is made of the characters of names. -/
theorem isGlue_name {lead : String} (hlead : IsLead lead.toList) (index : Nat) :
    ∀ c ∈ (lead ++ toString index).toList, isGlue c = true := by
  intro c mem
  rw [String.toList_append, List.mem_append] at mem
  rcases mem with inLead | inNumber
  · exact hlead.glue c inLead
  · exact isGlue_of_isDigit (isDigit_of_mem_toString inNumber)

theorem isGlue_expressionId (index : Nat) : ∀ c ∈ (expressionId index).toList, isGlue c = true :=
  isGlue_name isLead_expressionLead index

/-- So are data slots. -/
theorem isGlue_arraySlot (index : Nat) :
    ∀ c ∈ (arraySlot (collectionId index)).toList, isGlue c = true := by
  intro c mem
  rw [arraySlot, String.toList_append, List.mem_append] at mem
  rcases mem with inName | inEnd
  · exact isGlue_name isLead_collectionLead index c inName
  · exact List.all_eq_true.mp (show "Array".toList.all isGlue = true by decide) c inEnd

/-- As many names are present as numbers are known to have theirs present. -/
theorem le_card_of_known {lead : String} {present : List String} {count : Nat}
    (known : ∀ index < count, lead ++ toString index ∈ present) :
    count ≤ present.toFinset.card := by
  have subset : (Finset.range count).image (fun index => lead ++ toString index) ⊆
      present.toFinset := by
    intro name mem
    obtain ⟨index, inRange, rfl⟩ := Finset.mem_image.mp mem
    exact List.mem_toFinset.mpr (known index (Finset.mem_range.mp inRange))
  have le := Finset.card_le_card subset
  rwa [Finset.card_image_of_injective _ (name_injective lead), Finset.card_range] at le

/-- Numbering has a gap, because there are finitely many names. -/
theorem exists_gap (lead : String) (present : List String) :
    ∃ count : Nat, (∀ index < count, lead ++ toString index ∈ present) ∧
      lead ++ toString count ∉ present := by
  have missing : ∃ index : Nat, lead ++ toString index ∉ present := by
    by_contra all
    have known : ∀ index < present.toFinset.card + 1, lead ++ toString index ∈ present :=
      fun index _ => of_not_not fun absent => all ⟨index, absent⟩
    exact absurd (le_card_of_known known) (Nat.not_succ_le_self _)
  classical
  refine ⟨Nat.find missing, ?_, Nat.find_spec missing⟩
  intro index lt
  exact of_not_not (Nat.find_min missing lt)

/-- There is one such gap only. -/
theorem gap_unique {lead : String} {present : List String} {m n : Nat}
    (below : ∀ index < m, lead ++ toString index ∈ present) (gap : lead ++ toString m ∉ present)
    (below' : ∀ index < n, lead ++ toString index ∈ present)
    (gap' : lead ++ toString n ∉ present) : m = n := by
  rcases Nat.lt_trichotomy m n with lt | same | lt
  · exact absurd (below' m lt) gap
  · exact same
  · exact absurd (below n lt) gap'

/-- Names that are present up to a number and no further are found up to that number. -/
theorem sequentialIds_eq {lead : String} {present : List String} {count : Nat}
    (known : ∀ index < count, lead ++ toString index ∈ present)
    (last : lead ++ toString count ∉ present) :
    sequentialIds lead present = (List.range count).map fun index => lead ++ toString index := by
  have enough : count ≤ present.length :=
    (le_card_of_known known).trans (List.toFinset_card_le present)
  obtain ⟨more, hmore⟩ := Nat.exists_eq_add_of_le enough
  rw [sequentialIds, hmore, List.range_add, List.map_append, List.takeWhile_append_of_pos]
  · cases more with
    | zero => simp
    | succ more =>
      have missing : ¬ present.contains (lead ++ toString (count + 0)) = true := by
        simpa using last
      rw [List.range_succ_eq_map, List.map_cons, List.map_cons,
        List.takeWhile_cons_of_neg missing, List.append_nil]
  · intro name mem
    obtain ⟨index, inRange, rfl⟩ := List.mem_map.mp mem
    simpa using known index (List.mem_range.mp inRange)

end TemplateCompiler.Placeholder
