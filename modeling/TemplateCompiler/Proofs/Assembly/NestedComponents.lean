import Mathlib
import TemplateCompiler.Proofs.Assembly.Stages
import TemplateCompiler.Proofs.OrderedMap
import TemplateCompiler.Proofs.Registry.Nesting

/-!
# Nested components of an assembled component

Assembly looks every nested component up and keeps the definition under the name of its tag. Two
types may have the same tag: the module path and the ending of a type's name are dropped, and case
and hyphens do not survive. Then the later type takes the place of the earlier one.

## Main definitions

* `bareStem` — what decides about a tag's name, hyphens aside

## Main statements

* `Registry.definition?_getWith` — lookups change no definition
* `Assembly.exists_nested_of_nestedComponents` — the map of nested components is made of definitions
* `Assembly.components_of_assemble` — what the nested components are and when none is lost
-/
namespace TemplateCompiler

/-! ## Lookups and definitions -/

namespace Registry

variable {me : ThreadId} {r : Registry} {name : String}

/-- Lookups one after the other change no definition if none of them does. -/
theorem definition?_getEach
    {get : Registry → String → Except RegistryError ComponentDefinition × Registry}
    {n : String} (kept : ∀ r name, (get r name).2.definition? n = r.definition? n) (r : Registry)
    (names : List String) :
    (getEach get r names).2.definition? n = r.definition? n := by
  induction names generalizing r with
  | nil => rfl
  | cons name rest ih =>
    have first := kept r name
    rw [getEach]
    generalize get r name = outcome at first
    obtain ⟨answer, after⟩ := outcome
    cases answer with
    | error e => exact first
    | ok d => exact (ih after).trans first

/-- **Lookups change no definition.** -/
theorem definition?_getWith (fuel : Nat) (r : Registry) (name n : String) :
    (getWith me fuel r name).2.definition? n = r.definition? n := by
  induction fuel generalizing r name with
  | zero => rfl
  | succ fuel ih =>
    have inspected := r.inspects me name
    rw [getWith]
    generalize r.inspect me name = outcome at inspected
    cases inspected with
    | missing => rfl
    | wait => rfl
    | ready d => rfl
    | started d =>
      have nested := definition?_getEach ih (r.claim me name) d.dependencies
      rw [definition?_claim] at nested
      dsimp only
      generalize getEach (getWith me fuel) (r.claim me name) d.dependencies = outcome at nested
      obtain ⟨answer, after⟩ := outcome
      cases answer <;> simpa using nested

/-- What a lookup hands out is the definition that is registered. -/
theorem definition?_of_getWith {fuel : Nat} {d : ComponentDefinition}
    (found : (getWith me fuel r name).1 = .ok d) : r.definition? name = some d := by
  cases fuel with
  | zero => cases found
  | succ fuel =>
    have inspected := r.inspects me name
    rw [getWith] at found
    generalize r.inspect me name = outcome at inspected found
    cases inspected with
    | missing => cases found
    | wait => cases found
    | ready other known => exact Except.ok.inj found ▸ known
    | started other known =>
      dsimp only at found
      generalize getEach (getWith me fuel) (r.claim me name) other.dependencies = outcome at found
      obtain ⟨answer, after⟩ := outcome
      cases answer with
      | error e => cases found
      | ok => exact Except.ok.inj found ▸ known

end Registry

/-! ## Tags -/

/-- The stem of a type's name in lower case and without hyphens. -/
def bareStem (typeName : String) : List Char :=
  ((tagStem typeName).flatMap Text.toLowercase).filter (· ≠ '-')

theorem filter_hyphenate (before : Option Char) (cs : List Char) :
    (hyphenate before cs).filter (· ≠ '-') = (cs.flatMap Text.toLowercase).filter (· ≠ '-') := by
  induction cs generalizing before with
  | nil => rfl
  | cons c cs ih =>
    rw [hyphenate, List.filter_append, List.filter_append, ih, List.flatMap_cons,
      List.filter_append]
    split <;> rfl

/-- Types have different tags if their stems differ in more than case and hyphens. -/
theorem bareStem_eq_of_tagName_eq {a b : String} (same : tagName a = tagName b) :
    bareStem a = bareStem b := by
  have hyphenated : hyphenate none (tagStem a) = hyphenate none (tagStem b) :=
    String.ofList_injective same
  rw [bareStem, bareStem, ← filter_hyphenate none, hyphenated, filter_hyphenate]

theorem nodup_tags_of_nodup_stems {types : List String} (nodup : (types.map bareStem).Nodup) :
    (types.map tagName).Nodup :=
  List.pairwise_map.mpr ((List.pairwise_map.mp nodup).imp fun ne same =>
    ne (bareStem_eq_of_tagName_eq same))

/-! ## Nested components -/

namespace Assembly

/-- The entry of a nested component: its definition under the name of its tag. -/
def tagged (nested : ComponentDefinition) : String × ComponentDefinition :=
  (tagName nested.typeName, nested)

/-- **Nested components are the registered definitions of the types**, bound one after the other. -/
theorem exists_nested_of_nestedComponents {r : Registry} {bound components} {names : List String}
    (ok : (nestedComponents r bound names).1 = .ok components) :
    ∃ nested : List ComponentDefinition, nested.map (·.typeName) = names ∧
      (∀ n ∈ nested, r.definition? n.typeName = some n) ∧
        components = (nested.map tagged).foldl (fun m entry => m.insert entry.1 entry.2) bound := by
  induction names generalizing r bound with
  | nil => exact ⟨[], rfl, nofun, (Except.ok.inj ok).symm⟩
  | cons name rest ih =>
    rw [nestedComponents] at ok
    have kept (n : String) : (r.get name).2.definition? n = r.definition? n :=
      Registry.definition?_getWith _ r name n
    have known (d : ComponentDefinition) (found : (r.get name).1 = .ok d) :
        r.definition? name = some d := Registry.definition?_of_getWith found
    generalize r.get name = outcome at ok kept known
    obtain ⟨answer, after⟩ := outcome
    cases answer with
    | error e => cases ok
    | ok d =>
      have here := known d rfl
      obtain ⟨nested, names, definitions, rfl⟩ := ih ok
      have named : d.typeName = name := Registry.typeName_of_definition? here
      refine ⟨d :: nested, by rw [List.map_cons, names, named], ?_, ?_⟩
      · intro n mem
        rcases List.mem_cons.mp mem with rfl | later
        · rwa [named]
        · rw [← kept]
          exact definitions n later
      · rw [List.map_cons, List.foldl_cons, tagged, named]

variable {d : ComponentDefinition} {i : Instance} {r : Registry} {options : ComponentOptions}

/-- **What the nested components of an assembled component are.** They are the registered
definitions of the types it nests, under the names of their tags, and of types with one tag the
last one is found. None is lost if and only if no two types have the same tag, for which it is
enough that their stems differ in more than case and hyphens. -/
theorem components_of_assemble (ok : (assemble d i r).1 = .ok options) :
    ∃ nested : List ComponentDefinition,
      nested.map (·.typeName) = d.dependencies ∧
      (∀ n ∈ nested, r.definition? n.typeName = some n) ∧
      options.components.keys = (d.dependencies.map tagName).eraseDups ∧
      (∀ tag, options.components.get? tag =
        nested.reverse.find? fun n => tagName n.typeName == tag) ∧
      (options.components.entries = nested.map (fun n => (tagName n.typeName, n)) ↔
        (d.dependencies.map tagName).Nodup) ∧
      ((d.dependencies.map bareStem).Nodup → (d.dependencies.map tagName).Nodup) := by
  obtain ⟨nested, names, definitions, components⟩ :=
    exists_nested_of_nestedComponents (assemble_eq_ok_iff.mp ok).components
  have made : options.components = .ofList (nested.map tagged) := components
  have keys : entryKeys (nested.map tagged) = d.dependencies.map tagName := by
    rw [← names, List.map_map, entryKeys, List.map_map]
    rfl
  refine ⟨nested, names, definitions, ?_, fun tag => ?_, ?_, nodup_tags_of_nodup_stems⟩
  · rw [made, OrderedMap.keys_ofList, keys]
  · rw [made, OrderedMap.get?_ofList, ← List.map_reverse]
    exact (lookupEntry_map tag _ (fun n => n) _).trans Option.map_id'
  · rw [made, ← keys]
    exact OrderedMap.entries_ofList_iff

/-- A component that declares nothing but the types nested in it. -/
def nesting (name : String) (types : List String) : ComponentDefinition :=
  .of { (default : ComponentType) with name, components := types } none

/-- Two types with different tags are both found. -/
theorem item_and_list_are_nested :
    ∃ options,
      (assemble (nesting "App" ["todo.TodoItemComponent", "todo.TodoList"])
        ⟨fun _ => none, fun _ => none⟩
        (.ofDefinitions [nesting "todo.TodoItemComponent" [], nesting "todo.TodoList" []])).1 =
          .ok options ∧
      options.components.entries =
        [("todo-item", nesting "todo.TodoItemComponent" []),
          ("todo-list", nesting "todo.TodoList" [])] := by
  obtain ⟨options, ok⟩ : ∃ options,
      (assemble (nesting "App" ["todo.TodoItemComponent", "todo.TodoList"])
        ⟨fun _ => none, fun _ => none⟩
        (.ofDefinitions [nesting "todo.TodoItemComponent" [], nesting "todo.TodoList" []])).1 =
          .ok options := ⟨_, rfl⟩
  obtain ⟨nested, names, definitions, -, -, whole, stems⟩ := components_of_assemble ok
  refine ⟨options, ok, ?_⟩
  rw [whole.mpr (stems (by decide +kernel))]
  obtain ⟨item, list, rfl⟩ : ∃ item list, nested = [item, list] :=
    List.length_eq_two.mp ((List.length_map _).symm.trans (congrArg List.length names))
  have itemName : item.typeName = "todo.TodoItemComponent" := (List.cons.inj names).1
  have listName : list.typeName = "todo.TodoList" := (List.cons.inj (List.cons.inj names).2).1
  have itemKnown := definitions item List.mem_cons_self
  have listKnown := definitions list (List.mem_cons_of_mem _ List.mem_cons_self)
  rw [itemName] at itemKnown
  rw [listName] at listKnown
  obtain rfl : nesting "todo.TodoItemComponent" [] = item := Option.some.inj itemKnown
  obtain rfl : nesting "todo.TodoList" [] = list := Option.some.inj listKnown
  decide +kernel

/-- Of two types with one tag the later one is left. -/
theorem same_tag_loses_component :
    ∃ options,
      (assemble (nesting "App" ["a.Item", "b.Item"]) ⟨fun _ => none, fun _ => none⟩
        (.ofDefinitions [nesting "a.Item" [], nesting "b.Item" []])).1 = .ok options ∧
      options.components.entries = [("item", nesting "b.Item" [])] := by
  refine ⟨_, rfl, ?_⟩
  decide +kernel

end Assembly

end TemplateCompiler
