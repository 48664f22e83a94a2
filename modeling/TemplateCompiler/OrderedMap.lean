/-!
# Maps that keep their order

A map from names to values which remembers the order in which its keys were first inserted.
Inserting a key again keeps its place and replaces its value, so generated text lists members
in the order of their first declaration and with their last one.

## Main definitions

* `OrderedMap` — entries with pairwise distinct keys
* `OrderedMap.get?`, `OrderedMap.contains`, `OrderedMap.keys`
* `OrderedMap.upsert`, `OrderedMap.insert`, `OrderedMap.ofList`
-/
namespace TemplateCompiler

/-- The keys of an association list, in order. -/
def entryKeys {α : Type} (entries : List (String × α)) : List String := entries.map Prod.fst

/-- The first value under a key. -/
def lookupEntry {α : Type} (key : String) : List (String × α) → Option α
  | [] => none
  | (k, v) :: rest => if k = key then some v else lookupEntry key rest

/-- Replace the value under `key` by `f` of it, or append a new entry with `f none`. -/
def upsertEntry {α : Type} (key : String) (f : Option α → α) :
    List (String × α) → List (String × α)
  | [] => [(key, f none)]
  | (k, v) :: rest =>
    if k = key then (k, f (some v)) :: rest else (k, v) :: upsertEntry key f rest

theorem entryKeys_upsertEntry {α : Type} (key : String) (f : Option α → α)
    (entries : List (String × α)) :
    entryKeys (upsertEntry key f entries) =
      if key ∈ entryKeys entries then entryKeys entries else entryKeys entries ++ [key] := by
  induction entries with
  | nil => simp [upsertEntry, entryKeys]
  | cons entry rest ih =>
    obtain ⟨k, v⟩ := entry
    by_cases h : k = key
    · simp [upsertEntry, entryKeys, h]
    · simp only [upsertEntry, h, if_false]
      simp only [entryKeys, List.map_cons, List.mem_cons] at ih ⊢
      rw [ih]
      have h' : ¬ key = k := fun e => h e.symm
      by_cases hm : key ∈ List.map Prod.fst rest <;> simp [hm, h']

theorem lookupEntry_upsertEntry {α : Type} (key other : String) (f : Option α → α)
    (entries : List (String × α)) :
    lookupEntry other (upsertEntry key f entries) =
      if other = key then some (f (lookupEntry key entries)) else lookupEntry other entries := by
  induction entries with
  | nil =>
    by_cases h : other = key
    · simp [upsertEntry, lookupEntry, h]
    · simpa [upsertEntry, lookupEntry, h] using Ne.symm h
  | cons entry rest ih =>
    obtain ⟨k, v⟩ := entry
    by_cases hk : k = key
    · by_cases ho : other = key
      · simp [upsertEntry, lookupEntry, hk, ho]
      · have ho' : ¬ key = other := fun e => ho e.symm
        simp [upsertEntry, lookupEntry, hk, ho, ho']
    · by_cases ho : k = other
      · have hne : ¬ other = key := fun e => hk (ho.trans e)
        simp [upsertEntry, lookupEntry, ho, hne]
      · simp [upsertEntry, lookupEntry, hk, ho, ih]

/-- A value under a new key is added at the end. -/
theorem upsertEntry_of_not_mem {α : Type} {key : String} {entries : List (String × α)}
    (h : key ∉ entryKeys entries) (f : Option α → α) :
    upsertEntry key f entries = entries ++ [(key, f none)] := by
  induction entries with
  | nil => rfl
  | cons entry rest ih =>
    obtain ⟨k, v⟩ := entry
    simp only [entryKeys, List.map_cons, List.mem_cons, not_or] at h
    have ne : ¬ k = key := fun e => h.1 e.symm
    simp only [upsertEntry, ne, if_false, List.cons_append]
    rw [ih h.2]

/-- Where keys are distinct, every entry is found under its key. -/
theorem lookupEntry_of_mem {α : Type} {key : String} {value : α} {entries : List (String × α)}
    (nodup : (entryKeys entries).Nodup) (mem : (key, value) ∈ entries) :
    lookupEntry key entries = some value := by
  induction entries with
  | nil => simp at mem
  | cons entry rest ih =>
    obtain ⟨k, v⟩ := entry
    have distinct := List.nodup_cons.mp nodup
    rcases List.mem_cons.mp mem with here | behind
    · obtain ⟨rfl, rfl⟩ := Prod.mk.inj here
      simp [lookupEntry]
    · have isKey : key ∈ entryKeys rest := List.mem_map_of_mem behind
      have ne : ¬ k = key := by
        rintro rfl
        exact distinct.1 isKey
      simp only [lookupEntry, ne, if_false]
      exact ih distinct.2 behind

/-- What is found under a key is an entry. -/
theorem mem_of_lookupEntry {α : Type} {key : String} {value : α} {entries : List (String × α)}
    (found : lookupEntry key entries = some value) : (key, value) ∈ entries := by
  induction entries with
  | nil => cases found
  | cons entry rest ih =>
    obtain ⟨k, v⟩ := entry
    rw [lookupEntry] at found
    split at found
    · next same =>
      obtain rfl := Option.some.inj found
      exact same ▸ List.mem_cons_self
    · exact List.mem_cons_of_mem _ (ih found)

/-- Entries in the order in which their keys were first inserted, each key once. -/
structure OrderedMap (α : Type) where
  entries : List (String × α)
  nodup_keys : (entryKeys entries).Nodup

namespace OrderedMap

variable {α β : Type}

instance [Repr α] : Repr (OrderedMap α) := ⟨fun m n => reprPrec m.entries n⟩

instance [DecidableEq α] : DecidableEq (OrderedMap α) := fun a b =>
  if h : a.entries = b.entries then
    isTrue (by cases a; cases b; cases h; rfl)
  else isFalse fun e => h (congrArg OrderedMap.entries e)

/-- The map without entries. -/
def empty : OrderedMap α := ⟨[], List.nodup_nil⟩

instance : Inhabited (OrderedMap α) := ⟨empty⟩
instance : EmptyCollection (OrderedMap α) := ⟨empty⟩

/-- The keys in order. -/
def keys (m : OrderedMap α) : List String := entryKeys m.entries

/-- The number of entries. -/
def size (m : OrderedMap α) : Nat := m.entries.length

/-- Whether there are no entries. -/
def isEmpty (m : OrderedMap α) : Bool := m.entries.isEmpty

/-- The value under a key. -/
def get? (m : OrderedMap α) (key : String) : Option α := lookupEntry key m.entries

/-- Whether a key has a value. -/
def contains (m : OrderedMap α) (key : String) : Bool := (m.get? key).isSome

/-- Replace the value under `key` by `f` of it, or add the key at the end with `f none`. -/
def upsert (m : OrderedMap α) (key : String) (f : Option α → α) : OrderedMap α where
  entries := upsertEntry key f m.entries
  nodup_keys := by
    rw [entryKeys_upsertEntry]
    split
    · exact m.nodup_keys
    · rename_i h
      rw [List.nodup_append]
      refine ⟨m.nodup_keys, by simp, ?_⟩
      intro a ha b hb
      rw [List.mem_singleton] at hb
      exact fun e => h (hb ▸ e ▸ ha)

/-- Give `key` a value. A key that is already present keeps its place. -/
def insert (m : OrderedMap α) (key : String) (value : α) : OrderedMap α :=
  m.upsert key fun _ => value

/-- Insert pairs one after the other. -/
def ofList (pairs : List (String × α)) : OrderedMap α :=
  pairs.foldl (fun m pair => m.insert pair.1 pair.2) empty

theorem entries_foldl_insert (m : OrderedMap α) {pairs : List (String × α)}
    (nodup : (entryKeys (m.entries ++ pairs)).Nodup) :
    (pairs.foldl (fun m pair => m.insert pair.1 pair.2) m).entries = m.entries ++ pairs := by
  induction pairs generalizing m with
  | nil => simp
  | cons pair rest ih =>
    have new : pair.1 ∉ entryKeys m.entries := by
      rw [entryKeys, List.map_append, List.nodup_append] at nodup
      intro mem
      exact nodup.2.2 _ mem _ List.mem_cons_self rfl
    have first : (m.insert pair.1 pair.2).entries = m.entries ++ [pair] :=
      upsertEntry_of_not_mem new _
    have split : m.entries ++ pair :: rest = (m.entries ++ [pair]) ++ rest := by simp
    rw [List.foldl_cons, ih, first, split]
    rwa [first, ← split]

/-- Pairs with distinct keys are the entries of their map. -/
theorem entries_ofList {pairs : List (String × α)} (nodup : (entryKeys pairs).Nodup) :
    (ofList pairs).entries = pairs :=
  entries_foldl_insert empty nodup

@[simp] theorem entries_empty : (empty : OrderedMap α).entries = [] := rfl
@[simp] theorem get?_empty (key : String) : (empty : OrderedMap α).get? key = none := rfl
@[simp] theorem keys_empty : (empty : OrderedMap α).keys = [] := rfl

theorem get?_upsert (m : OrderedMap α) (key other : String) (f : Option α → α) :
    (m.upsert key f).get? other =
      if other = key then some (f (m.get? key)) else m.get? other :=
  lookupEntry_upsertEntry key other f m.entries

theorem get?_insert (m : OrderedMap α) (key other : String) (value : α) :
    (m.insert key value).get? other = if other = key then some value else m.get? other :=
  get?_upsert m key other _

theorem keys_upsert (m : OrderedMap α) (key : String) (f : Option α → α) :
    (m.upsert key f).keys = if key ∈ m.keys then m.keys else m.keys ++ [key] :=
  entryKeys_upsertEntry key f m.entries

theorem keys_insert (m : OrderedMap α) (key : String) (value : α) :
    (m.insert key value).keys = if key ∈ m.keys then m.keys else m.keys ++ [key] :=
  keys_upsert m key _

theorem mem_keys_iff {m : OrderedMap α} {key : String} :
    key ∈ m.keys ↔ (m.get? key).isSome := by
  obtain ⟨entries, nodup⟩ := m
  simp only [keys, get?]
  clear nodup
  induction entries with
  | nil => simp [entryKeys, lookupEntry]
  | cons entry rest ih =>
    obtain ⟨k, v⟩ := entry
    simp only [entryKeys, List.map_cons, List.mem_cons, lookupEntry] at ih ⊢
    by_cases h : k = key
    · simp [h]
    · have h' : ¬ key = k := fun e => h e.symm
      simp [h, h', ih]

end OrderedMap

end TemplateCompiler
