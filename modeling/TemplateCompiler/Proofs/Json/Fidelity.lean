import TemplateCompiler.Proofs.Json.Copying
import TemplateCompiler.Proofs.OrderedMap

/-!
# Values that survive

A value is read as it was written if its objects are maps and its numbers are read as they were
written. Integers are, and so are doubles unless the reader's rounding leads to another one.

## Main definitions

* `Json.Number.Faithful`, `Json.Value.Faithful` — numbers and values that are read as they are

## Main statements

* `Json.Value.reread_of_faithful` — they stay what they are
* `Json.copyData_of_faithful` — what comes of copying them
-/
namespace TemplateCompiler.Json

/-! ## Numbers -/

/-- A number that is read as it is written: any integer, or a double of which reading what is
written gives the same double again. -/
def Number.Faithful : Number → Prop
  | .integer _ => True
  | .float d => readNumber (Number.float d).chars = .ok (.float d, [])

theorem Number.faithful_iff {number : Number} : number.Faithful ↔ number.reread = number := by
  cases number with
  | integer n => exact iff_of_true trivial (reread_integer n)
  | float d =>
    have read := readNumber_chars (.float d) (rfl : EndsNumber [])
    rw [List.append_nil] at read
    rw [Faithful, read]
    simp

-- `3e23` is three times a power of ten that is no double
example : ¬ (Number.float ⟨false, Decimal.magnitude ⟨3, 23⟩, by decide +kernel⟩).Faithful := by
  rw [Number.faithful_iff]
  decide +kernel

/-! ## Values -/

mutual

/-- A value that is read as it is written: its numbers are, and no object has a key twice. -/
def Value.Faithful : Value → Prop
  | .number value => value.Faithful
  | .array items => itemsFaithful items
  | .object members => (entryKeys members).Nodup ∧ membersFaithful members
  | _ => True

/-- The items are read as they are written. -/
def itemsFaithful : List Value → Prop
  | [] => True
  | item :: rest => item.Faithful ∧ itemsFaithful rest

/-- The values of the members are read as they are written. -/
def membersFaithful : List (String × Value) → Prop
  | [] => True
  | (_, value) :: rest => value.Faithful ∧ membersFaithful rest

end

theorem membersFaithful_iff {members : List (String × Value)} :
    membersFaithful members ↔ ∀ member ∈ members, member.2.Faithful := by
  induction members with
  | nil => simp [membersFaithful]
  | cons member rest ih => simp [membersFaithful, ih]

mutual

/-- **A faithful value is read as it is.** -/
theorem Value.reread_of_faithful : ∀ value : Value, value.Faithful → value.reread = value
  | .null, _ | .bool _, _ | .string _, _ => by rw [Value.reread] <;> simp
  | .number _, faithful => by rw [Value.reread, Number.faithful_iff.mp faithful]
  | .array items, faithful => by rw [Value.reread, rereadItems_of_faithful items faithful]
  | .object members, faithful => by
    have each := map_reread_of_faithful members faithful.2
    have distinct : (entryKeys ([] ++ members)).Nodup := faithful.1
    rw [Value.reread, rereadMembers_eq distinct, List.nil_append, each]

theorem rereadItems_of_faithful : ∀ items : List Value,
    itemsFaithful items → rereadItems items = items
  | [], _ => rfl
  | item :: rest, faithful => by
    rw [rereadItems, item.reread_of_faithful faithful.1, rereadItems_of_faithful rest faithful.2]

theorem map_reread_of_faithful : ∀ members : List (String × Value), membersFaithful members →
    (members.map fun member => (member.1, member.2.reread)) = members
  | [], _ => rfl
  | (_, value) :: rest, faithful => by
    rw [List.map_cons, value.reread_of_faithful faithful.1, map_reread_of_faithful rest faithful.2]

end

/-- **What comes of copying a data object** of faithful values: the object itself, unless a
container in it is too deep. -/
theorem copyData_of_faithful {data : OrderedMap Value} (faithful : membersFaithful data.entries) :
    copyData data =
      match copyColumn? data with
      | none => .ok data
      | some column => .error column := by
  have distinct : (entryKeys ([] ++ data.entries)).Nodup := data.nodup_keys
  have copied := copyData_eq data
  rw [rereadMembers_eq distinct, map_reread_of_faithful _ faithful, List.nil_append,
    OrderedMap.ofList_entries] at copied
  exact copied

end TemplateCompiler.Json
