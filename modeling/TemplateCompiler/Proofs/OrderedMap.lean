import Mathlib.Data.List.Induction
import TemplateCompiler.OrderedMap

/-!
# Maps made of lists

A list of pairs makes a map pair by pair. A key stands where it comes first in the list and has the
value with which it comes last.

## Main statements

* `OrderedMap.keys_ofList`, `OrderedMap.get?_ofList` — keys and values of the map
* `OrderedMap.entries_ofList_iff` — when every pair is an entry
-/
namespace TemplateCompiler

variable {α β : Type}

theorem entryKeys_append (front behind : List (String × α)) :
    entryKeys (front ++ behind) = entryKeys front ++ entryKeys behind :=
  List.map_append

theorem lookupEntry_append (key : String) (front behind : List (String × α)) :
    lookupEntry key (front ++ behind) = (lookupEntry key front).or (lookupEntry key behind) := by
  induction front with
  | nil => rfl
  | cons entry front ih =>
    rw [List.cons_append, lookupEntry, lookupEntry, ih]
    split <;> rfl

/-- Looking up values under keys that are computed from them. -/
theorem lookupEntry_map (key : String) (name : β → String) (value : β → α) (xs : List β) :
    lookupEntry key (xs.map fun x => (name x, value x)) =
      (xs.find? fun x => name x == key).map value := by
  induction xs with
  | nil => rfl
  | cons x xs ih =>
    rw [List.map_cons, lookupEntry, ih]
    by_cases same : name x = key
    · rw [if_pos same, List.find?_cons_of_pos (by simpa using same), Option.map_some]
    · rw [if_neg same, List.find?_cons_of_neg (by simpa using same)]

/-- One more value counts if it has not come before. -/
theorem eraseDups_concat [DecidableEq α] (xs : List α) (x : α) :
    (xs ++ [x]).eraseDups = if x ∈ xs then xs.eraseDups else xs.eraseDups ++ [x] := by
  rw [List.eraseDups_append]
  by_cases known : x ∈ xs
  · have none : [x].removeAll xs = [] := by simp [List.removeAll, known]
    rw [if_pos known, none, List.eraseDups_nil, List.append_nil]
  · have new : [x].removeAll xs = [x] := by simp [List.removeAll, known]
    rw [if_neg known, new]
    rfl

namespace OrderedMap

theorem ofList_concat (pairs : List (String × α)) (pair : String × α) :
    ofList (pairs ++ [pair]) = (ofList pairs).insert pair.1 pair.2 := by
  rw [ofList, List.foldl_append]
  rfl

/-- **The keys are those of the list**, each where it comes first. -/
theorem keys_ofList (pairs : List (String × α)) :
    (ofList pairs).keys = (entryKeys pairs).eraseDups := by
  induction pairs using List.reverseRecOn with
  | nil => rfl
  | append_singleton pairs pair ih =>
    rw [ofList_concat, keys_insert, ih, entryKeys_append]
    have last : entryKeys [pair] = [pair.1] := rfl
    simp only [last, eraseDups_concat, List.mem_eraseDups]

/-- **The value under a key is the last one of the list.** -/
theorem get?_ofList (pairs : List (String × α)) (key : String) :
    (ofList pairs).get? key = lookupEntry key pairs.reverse := by
  induction pairs using List.reverseRecOn with
  | nil => rfl
  | append_singleton pairs pair ih =>
    rw [ofList_concat, get?_insert, ih, List.reverse_concat, lookupEntry]
    by_cases same : pair.1 = key
    · rw [if_pos same.symm, if_pos same]
    · rw [if_neg (Ne.symm same), if_neg same]

/-- Every entry is a pair of the list. -/
theorem mem_of_mem_entries_ofList {pairs : List (String × α)} {entry : String × α}
    (mem : entry ∈ (ofList pairs).entries) : entry ∈ pairs := by
  have found : (ofList pairs).get? entry.1 = some entry.2 :=
    lookupEntry_of_mem (ofList pairs).nodup_keys mem
  rw [get?_ofList] at found
  exact List.mem_reverse.mp (mem_of_lookupEntry found)

/-- Maps with the same entries in the same order are the same. -/
@[ext] theorem ext {m n : OrderedMap α} (same : m.entries = n.entries) : m = n := by
  cases m
  cases n
  cases same
  rfl

/-- A map is made of its entries. -/
theorem ofList_entries (m : OrderedMap α) : ofList m.entries = m :=
  ext (entries_ofList m.nodup_keys)

/-- Every pair is an entry if and only if the keys are distinct. -/
theorem entries_ofList_iff {pairs : List (String × α)} :
    (ofList pairs).entries = pairs ↔ (entryKeys pairs).Nodup := by
  refine ⟨fun same => ?_, entries_ofList⟩
  rw [← same]
  exact (ofList pairs).nodup_keys

end OrderedMap

end TemplateCompiler
