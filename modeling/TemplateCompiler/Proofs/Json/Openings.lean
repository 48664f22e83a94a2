import TemplateCompiler.Proofs.Json.Copying

/-!
# Where containers open

Every container of a value opens at a place in the compact text, inside a number of others. Reading
a value with a limited number of levels stops at the first container at the level that is not to be
used, and there is one if and only if the value is as deep as that.

## Main definitions

* `Json.Opens` — a container and the text in front of it
* `Json.OpensFirst` — the first container at a depth

## Main statements

* `Json.Opens.exists_compact_eq` — where a container opens there is a bracket in the text
* `Json.tooDeep?_eq_some_iff` — reading stops at the first container that is too deep
* `Json.exists_opensFirst_iff` — how deep a value is that has such a container
-/
namespace TemplateCompiler.Json

open Text

/-! ## Places of containers -/

mutual

/-- A container in the compact text of a value: `depth` counts the containers around it and itself,
and `front` is the text in front of its opening bracket. -/
inductive Opens : Value → (depth : Nat) → (front : List Char) → Prop where
  | array (items : List Value) : Opens (.array items) 1 []
  | object (members : List (String × Value)) : Opens (.object members) 1 []
  | inArray {items : List Value} {depth : Nat} {front : List Char} :
    OpensInItems [] items depth front → Opens (.array items) (depth + 1) ('[' :: front)
  | inObject {members : List (String × Value)} {depth : Nat} {front : List Char} :
    OpensInMembers [] members depth front → Opens (.object members) (depth + 1) ('{' :: front)

/-- A container in the text of items with commas between them; `lead` stands before the first
one. -/
inductive OpensInItems : (lead : List Char) → List Value → Nat → List Char → Prop where
  | here {lead : List Char} {item : Value} {rest : List Value} {depth : Nat} {front : List Char} :
    Opens item depth front → OpensInItems lead (item :: rest) depth (lead ++ front)
  | behind {lead : List Char} {item : Value} {rest : List Value} {depth : Nat}
    {front : List Char} :
    OpensInItems [','] rest depth front →
      OpensInItems lead (item :: rest) depth (lead ++ item.compact ++ front)

/-- A container in the text of members with commas between them; `lead` stands before the first
one. -/
inductive OpensInMembers : (lead : List Char) → List (String × Value) → Nat → List Char → Prop where
  | here {lead : List Char} {key : String} {value : Value} {rest : List (String × Value)}
    {depth : Nat} {front : List Char} :
    Opens value depth front →
      OpensInMembers lead ((key, value) :: rest) depth (lead ++ quote key ++ ':' :: front)
  | behind {lead : List Char} {key : String} {value : Value} {rest : List (String × Value)}
    {depth : Nat} {front : List Char} :
    OpensInMembers [','] rest depth front →
      OpensInMembers lead ((key, value) :: rest) depth
        (lead ++ quote key ++ ':' :: value.compact ++ front)

end

/-- The first container at a depth: no other at this depth has less text in front of it. -/
structure OpensFirst (value : Value) (depth : Nat) (front : List Char) : Prop where
  opens : Opens value depth front
  first : ∀ other, Opens value depth other → front.length ≤ other.length

/-! ## Brackets -/

/-- Text that begins with the opening bracket of a container. -/
def BeginsContainer (text : List Char) : Prop := ∃ rest, text = '[' :: rest ∨ text = '{' :: rest

theorem BeginsContainer.append {text : List Char} (begins : BeginsContainer text)
    (more : List Char) : BeginsContainer (text ++ more) := by
  obtain ⟨rest, rfl | rfl⟩ := begins
  · exact ⟨rest ++ more, .inl rfl⟩
  · exact ⟨rest ++ more, .inr rfl⟩

mutual

/-- **Where a container opens there is a bracket in the text.** -/
theorem Opens.exists_compact_eq : ∀ {value : Value} {depth : Nat} {front : List Char},
    Opens value depth front → ∃ text, BeginsContainer text ∧ value.compact = front ++ text
  | _, _, _, .array items => ⟨_, ⟨_, .inl rfl⟩, by rw [Value.compact]; rfl⟩
  | _, _, _, .object members => ⟨_, ⟨_, .inr rfl⟩, by rw [Value.compact]; rfl⟩
  | _, _, _, .inArray inside => by
    obtain ⟨text, begins, whole⟩ := inside.exists_compact_eq
    exact ⟨_, begins.append [']'], by rw [Value.compact, whole]; simp⟩
  | _, _, _, .inObject inside => by
    obtain ⟨text, begins, whole⟩ := inside.exists_compact_eq
    exact ⟨_, begins.append ['}'], by rw [Value.compact, whole]; simp⟩

theorem OpensInItems.exists_compact_eq : ∀ {lead : List Char} {items : List Value} {depth : Nat}
    {front : List Char}, OpensInItems lead items depth front →
      ∃ text, BeginsContainer text ∧ compactItems lead items = front ++ text
  | lead, _ :: rest, _, _, .here inside => by
    obtain ⟨text, begins, whole⟩ := inside.exists_compact_eq
    exact ⟨_, begins.append (compactItems [','] rest), by rw [compactItems, whole]; simp⟩
  | lead, _ :: rest, _, _, .behind inside => by
    obtain ⟨text, begins, whole⟩ := inside.exists_compact_eq
    exact ⟨_, begins, by rw [compactItems, whole]; simp⟩

theorem OpensInMembers.exists_compact_eq : ∀ {lead : List Char} {members : List (String × Value)}
    {depth : Nat} {front : List Char}, OpensInMembers lead members depth front →
      ∃ text, BeginsContainer text ∧ compactMembers lead members = front ++ text
  | lead, _ :: rest, _, _, .here inside => by
    obtain ⟨text, begins, whole⟩ := inside.exists_compact_eq
    exact ⟨_, begins.append (compactMembers [','] rest), by rw [compactMembers, whole]; simp⟩
  | lead, _ :: rest, _, _, .behind inside => by
    obtain ⟨text, begins, whole⟩ := inside.exists_compact_eq
    exact ⟨_, begins, by rw [compactMembers, whole]; simp⟩

end

/-! ## The first container that is too deep -/

mutual

/-- Reading stops at a container. -/
theorem opens_of_tooDeep? : ∀ (value : Value) {levels : Nat} {front : List Char},
    0 < levels → value.tooDeep? levels = some front → Opens value levels front
  | .null, _, _, _, found | .bool _, _, _, _, found | .number _, _, _, _, found
  | .string _, _, _, _, found => by
    simp [Value.tooDeep?] at found
  | .array items, levels, front, positive, found => by
    rw [Value.tooDeep?] at found
    split at found
    · obtain rfl := Option.some.inj found
      obtain rfl : levels = 1 := by omega
      exact .array items
    · obtain ⟨inner, deep, rfl⟩ := Option.map_eq_some_iff.mp found
      obtain ⟨fewer, rfl⟩ : ∃ fewer, levels = fewer + 1 := ⟨levels - 1, by omega⟩
      exact .inArray (opensInItems_of_tooDeep? items [] (by omega) deep)
  | .object members, levels, front, positive, found => by
    rw [Value.tooDeep?] at found
    split at found
    · obtain rfl := Option.some.inj found
      obtain rfl : levels = 1 := by omega
      exact .object members
    · obtain ⟨inner, deep, rfl⟩ := Option.map_eq_some_iff.mp found
      obtain ⟨fewer, rfl⟩ : ∃ fewer, levels = fewer + 1 := ⟨levels - 1, by omega⟩
      exact .inObject (opensInMembers_of_tooDeep? members [] (by omega) deep)

theorem opensInItems_of_tooDeep? : ∀ (items : List Value) (lead : List Char) {levels : Nat}
    {front : List Char}, 0 < levels → itemsTooDeep? levels lead items = some front →
      OpensInItems lead items levels front
  | [], _, _, _, _, found => by simp [itemsTooDeep?] at found
  | item :: rest, lead, levels, front, positive, found => by
    rw [itemsTooDeep?] at found
    split at found
    · next inner deep =>
      obtain rfl := Option.some.inj found
      exact .here (opens_of_tooDeep? item positive deep)
    · obtain ⟨inner, deep, rfl⟩ := Option.map_eq_some_iff.mp found
      exact .behind (opensInItems_of_tooDeep? rest [','] positive deep)

theorem opensInMembers_of_tooDeep? : ∀ (members : List (String × Value)) (lead : List Char)
    {levels : Nat} {front : List Char}, 0 < levels →
      membersTooDeep? levels lead members = some front → OpensInMembers lead members levels front
  | [], _, _, _, _, found => by simp [membersTooDeep?] at found
  | (key, value) :: rest, lead, levels, front, positive, found => by
    rw [membersTooDeep?] at found
    split at found
    · next inner deep =>
      obtain rfl := Option.some.inj found
      exact .here (opens_of_tooDeep? value positive deep)
    · obtain ⟨inner, deep, rfl⟩ := Option.map_eq_some_iff.mp found
      exact .behind (opensInMembers_of_tooDeep? rest [','] positive deep)

end

/-- Something is found, and it has no more text in front of it. -/
def FindsBefore (found : Option (List Char)) (front : List Char) : Prop :=
  ∃ first, found = some first ∧ first.length ≤ front.length

theorem FindsBefore.map {found : Option (List Char)} {front : List Char}
    (finds : FindsBefore found front) (more : List Char) :
    FindsBefore (found.map (more ++ ·)) (more ++ front) := by
  obtain ⟨first, rfl, le⟩ := finds
  exact ⟨more ++ first, rfl, by simpa using le⟩

mutual

/-- Reading does not get past a container that is too deep. -/
theorem Opens.findsBefore : ∀ {value : Value} {depth : Nat} {front : List Char},
    Opens value depth front → 0 < depth ∧ FindsBefore (value.tooDeep? depth) front
  | _, _, _, .array items => ⟨Nat.one_pos, [], by simp [Value.tooDeep?], Nat.le_refl 0⟩
  | _, _, _, .object members => ⟨Nat.one_pos, [], by simp [Value.tooDeep?], Nat.le_refl 0⟩
  | _, depth + 1, _, .inArray inside => by
    obtain ⟨positive, finds⟩ := inside.findsBefore
    refine ⟨Nat.succ_pos depth, ?_⟩
    rw [Value.tooDeep?, if_neg (by omega)]
    exact finds.map ['[']
  | _, depth + 1, _, .inObject inside => by
    obtain ⟨positive, finds⟩ := inside.findsBefore
    refine ⟨Nat.succ_pos depth, ?_⟩
    rw [Value.tooDeep?, if_neg (by omega)]
    exact finds.map ['{']

theorem OpensInItems.findsBefore : ∀ {lead : List Char} {items : List Value} {depth : Nat}
    {front : List Char}, OpensInItems lead items depth front →
      0 < depth ∧ FindsBefore (itemsTooDeep? depth lead items) front
  | lead, item :: rest, depth, _, .here inside => by
    obtain ⟨positive, first, found, le⟩ := inside.findsBefore
    refine ⟨positive, lead ++ first, ?_, by simpa using le⟩
    rw [itemsTooDeep?, found]
  | lead, item :: rest, depth, _, .behind inside => by
    obtain ⟨positive, finds⟩ := inside.findsBefore
    refine ⟨positive, ?_⟩
    rw [itemsTooDeep?]
    cases deep : item.tooDeep? depth with
    | some first =>
      have before := (item.prefix_of_tooDeep? deep).length_le
      exact ⟨lead ++ first, rfl, by simp; omega⟩
    | none => exact finds.map _

theorem OpensInMembers.findsBefore : ∀ {lead : List Char} {members : List (String × Value)}
    {depth : Nat} {front : List Char}, OpensInMembers lead members depth front →
      0 < depth ∧ FindsBefore (membersTooDeep? depth lead members) front
  | lead, (key, value) :: rest, depth, _, .here inside => by
    obtain ⟨positive, first, found, le⟩ := inside.findsBefore
    refine ⟨positive, lead ++ quote key ++ ':' :: first, ?_, by simpa using le⟩
    rw [membersTooDeep?, found]
  | lead, (key, value) :: rest, depth, _, .behind inside => by
    obtain ⟨positive, finds⟩ := inside.findsBefore
    refine ⟨positive, ?_⟩
    rw [membersTooDeep?]
    cases deep : value.tooDeep? depth with
    | some first =>
      have before := (value.prefix_of_tooDeep? deep).length_le
      exact ⟨lead ++ quote key ++ ':' :: first, rfl, by simp; omega⟩
    | none => exact finds.map _

end

/-- **Reading stops at the first container that is too deep.** -/
theorem tooDeep?_eq_some_iff {value : Value} {levels : Nat} (positive : 0 < levels)
    {front : List Char} : value.tooDeep? levels = some front ↔ OpensFirst value levels front := by
  have least {front : List Char} (found : value.tooDeep? levels = some front) :
      OpensFirst value levels front := by
    refine ⟨opens_of_tooDeep? value positive found, fun other opens => ?_⟩
    obtain ⟨-, first, same, le⟩ := opens.findsBefore
    obtain rfl := Option.some.inj (found.symm.trans same)
    exact le
  refine ⟨least, fun opensFirst => ?_⟩
  obtain ⟨-, first, found, le⟩ := opensFirst.opens.findsBefore
  -- two beginnings of one text of the same length
  have length : first.length = front.length :=
    Nat.le_antisymm le (opensFirst.first first (least found).opens)
  obtain ⟨text, -, whole⟩ := opensFirst.opens.exists_compact_eq
  obtain ⟨text', -, whole'⟩ := (least found).opens.exists_compact_eq
  rw [found, (List.append_inj (whole'.symm.trans whole) length).1]

/-- **A value has a container at a depth** if and only if it is that deep. -/
theorem exists_opensFirst_iff {value : Value} {levels : Nat} (positive : 0 < levels) :
    (∃ front, OpensFirst value levels front) ↔ levels ≤ value.depth := by
  simp only [← tooDeep?_eq_some_iff positive]
  rw [← Option.isSome_iff_exists, ← Option.ne_none_iff_isSome, ne_eq,
    value.tooDeep?_eq_none_iff positive, Nat.not_lt]

/-- Two of three containers at the same depth: the first one stands behind an escaped key. -/
example :
    let value : Value := .object [("a\n", .null), ("b", .array [.number (.integer 7)]),
      ("c", .object [])]
    value.compact = "\x7b\"a\\n\":null,\"b\":[7],\"c\":\x7b\x7d\x7d".toList ∧
      value.tooDeep? 2 = some "\x7b\"a\\n\":null,\"b\":".toList := by
  decide

end TemplateCompiler.Json
