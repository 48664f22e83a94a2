import Mathlib
import TemplateCompiler.Proofs.Compilation
import TemplateCompiler.Proofs.Registry.History

/-!
# What is registered

Registration goes through the components of a manifest, resolves the type of each and puts its
definition into the registry. A type that does not resolve is passed over without a failure. All
components have been made from declared types, so this can only happen to one of them: a declared
type with the name of the root has no ancestry. Whatever nests it cannot be found either.

The root is that of the manifest, even if the manifest names none and the settings of the
compilation choose another. A type that was compiled like any other may be lost for that reason.

## Main definitions

* `Manifest.Nests`, `Manifest.Reaches` — nested types as they are declared
* `Manifest.Registrable`, `Manifest.Resolvable` — what can be registered, and what can be found

## Main statements

* `registerAll_of_new` — registration as a series of definitions that are put in
* `definition?_ofDefinitions_compiled` — what is registered
* `registered_iff_ne_root` — which components are lost, and which lookups succeed
* `configured_root_is_lost` — that an ordinary type may be among them
-/
namespace TemplateCompiler

/-! ## Components and declared types -/

variable {m : Manifest} {settings : Settings} {readText : String → Except FileError String}
  {components : List CompiledComponent}

theorem Manifest.types_hierarchyFor (m : Manifest) (settings : Settings) :
    (m.hierarchyFor settings).types = m.hierarchy.types := by
  unfold hierarchyFor
  split <;> rfl

/-- **There is one component for each declared type, in order.** -/
theorem typeNames_of_compileManifest [Markup.Matching]
    (compiles : compileManifest m settings readText = .ok components) :
    components.map (fun c => c.descriptor.typeName) = m.hierarchy.types.map ComponentType.name := by
  have steps := forall₂_of_mapM compiles
  rw [Manifest.types_hierarchyFor] at steps
  generalize m.hierarchy.types = types at steps
  clear compiles
  induction steps with
  | nil => rfl
  | cons declared _ ih =>
    obtain ⟨x, descriptor⟩ := exists_descriptor_of_compileDeclared declared
    rw [List.map_cons, List.map_cons, ih, descriptor]
    rfl

theorem nodup_of_compileManifest [Markup.Matching]
    (compiles : compileManifest m settings readText = .ok components) :
    (components.map fun c => c.descriptor.typeName).Nodup :=
  typeNames_of_compileManifest compiles ▸ m.hierarchy.nodup_names

/-! ## A series of definitions -/

namespace Registry

variable {r : Registry}

/-- A definition of a new type is put in without a failure. -/
theorem register?_of_new {d : ComponentDefinition} (new : r.definition? d.typeName = none) :
    r.register? d = .ok (r.withDefinition d) := by
  have absent : ¬ r.contains d.typeName := by
    rwa [contains_iff, ne_eq, not_not, stage?_eq_none_iff]
  simp [withDefinition, register?, absent]

/-- The first definition of a type counts, unless one is there already. -/
theorem definition?_foldl_withDefinition (definitions : List ComponentDefinition) (n : String) :
    (definitions.foldl withDefinition r).definition? n =
      (r.definition? n).or (definitions.find? fun d => d.typeName == n) := by
  induction definitions generalizing r with
  | nil => simp
  | cons d rest ih =>
    rw [List.foldl_cons, ih, definition?_withDefinition, List.find?_cons]
    by_cases own : n = d.typeName
    · subst own
      cases known : r.definition? d.typeName with
      | none => simp [stage?_eq_none_iff, known]
      | some old => simp [stage?_eq_none_iff, known]
    · have other : (d.typeName == n) = false := beq_false_of_ne (Ne.symm own)
      simp [own, other]

/-- Among definitions of distinct types each is found. -/
theorem definition?_ofDefinitions_eq_some_iff {definitions : List ComponentDefinition}
    (nodup : (definitions.map (·.typeName)).Nodup) {n : String}
    {d : ComponentDefinition} :
    (ofDefinitions definitions).definition? n = some d ↔ d ∈ definitions ∧ d.typeName = n := by
  rw [ofDefinitions, definition?_foldl_withDefinition, show empty.definition? n = none from rfl,
    Option.none_or]
  constructor
  · intro found
    exact ⟨List.mem_of_find?_eq_some found, by simpa using List.find?_some found⟩
  · rintro ⟨mem, rfl⟩
    cases found : definitions.find? fun other => other.typeName == d.typeName with
    | none => exact absurd (List.find?_eq_none.mp found d mem) (by simp)
    | some other =>
      have same : other.typeName = d.typeName := by simpa using List.find?_some found
      have inList := List.mem_of_find?_eq_some found
      rw [List.inj_on_of_nodup_map nodup inList mem same]

end Registry

/-! ## Registration -/

/-- The definition under which a component is registered, unless its type does not resolve. -/
def Manifest.definitionOf? (m : Manifest) (c : CompiledComponent) : Option ComponentDefinition :=
  (m.hierarchy.resolved? c.descriptor.typeName).map c.definition

/-- A component is registered under the name of the type that it was compiled from. -/
theorem typeName_of_definitionOf? {c : CompiledComponent} {d : ComponentDefinition}
    (resolves : m.definitionOf? c = some d) : d.typeName = c.descriptor.typeName := by
  obtain ⟨type, found, rfl⟩ := Option.map_eq_some_iff.mp resolves
  exact TypeHierarchy.name_of_resolved? found

theorem isSome_definitionOf?_iff {c : CompiledComponent} :
    (m.definitionOf? c).isSome ↔
      m.hierarchy.Declares c.descriptor.typeName ∧ c.descriptor.typeName ≠ m.hierarchy.root := by
  rw [Manifest.definitionOf?, Option.isSome_map, TypeHierarchy.resolved?_eq, Option.isSome_map,
    ← TypeHierarchy.exists_get?_iff, ← Option.isSome_iff_exists]
  split
  · next root => simp [root]
  · next other => simp [other]

/-- **Registration puts one definition after the other in**, for each component whose type
resolves. -/
theorem registerAll_of_new {r : Registry}
    (nodup : (components.map fun c => c.descriptor.typeName).Nodup)
    (new : ∀ c ∈ components, r.definition? c.descriptor.typeName = none) :
    registerAll m components r =
      .ok ((components.filterMap m.definitionOf?).foldl Registry.withDefinition r) := by
  unfold registerAll
  induction components generalizing r with
  | nil => rfl
  | cons c rest ih =>
    have distinct := List.nodup_cons.mp nodup
    have newRest := fun other mem => new other (List.mem_cons_of_mem c mem)
    rw [List.foldlM_cons, List.filterMap_cons]
    cases resolves : m.hierarchy.resolved? c.descriptor.typeName with
    | none =>
      have none : m.definitionOf? c = none := by
        rw [Manifest.definitionOf?, resolves, Option.map_none]
      simp only [none]
      exact ih distinct.2 newRest
    | some type =>
      have some : m.definitionOf? c = some (c.definition type) := by
        rw [Manifest.definitionOf?, resolves, Option.map_some]
      have own : (c.definition type).typeName = c.descriptor.typeName :=
        typeName_of_definitionOf? some
      have free : r.definition? (c.definition type).typeName = none := by
        rw [own]
        exact new c List.mem_cons_self
      simp only [some, Registry.register?_of_new free, List.foldl_cons]
      refine ih distinct.2 ?_
      intro other mem
      have ne : other.descriptor.typeName ≠ (c.definition type).typeName := by
        rw [own]
        intro same
        exact distinct.1 (List.mem_map.mpr ⟨other, mem, same⟩)
      rw [Registry.definition?_withDefinition, if_neg fun h => ne h.1, newRest other mem]

/-! ## Nested types -/

/-- The type `x` is declared and nests `y`. -/
def Manifest.Nests (m : Manifest) (x y : String) : Prop :=
  ∃ c, m.hierarchy.get? x = some c ∧ y ∈ c.components

/-- One comes from `x` to `y` by going to nested types. -/
def Manifest.Reaches (m : Manifest) : String → String → Prop := Relation.ReflTransGen m.Nests

/-- The type is declared and is not the root. -/
def Manifest.Registrable (m : Manifest) (name : String) : Prop :=
  m.hierarchy.Declares name ∧ name ≠ m.hierarchy.root

/-- The type and all that one comes to from it are declared and not the root. -/
def Manifest.Resolvable (m : Manifest) (name : String) : Prop :=
  ∀ n, m.Reaches name n → m.Registrable n

/-- One stays among types that nest only each other. -/
theorem Manifest.Reaches.mem {names : List String}
    (closed : ∀ c ∈ m.hierarchy.types, c.name ∈ names → c.components ⊆ names) {x y : String}
    (reaches : m.Reaches x y) (first : x ∈ names) : y ∈ names := by
  induction reaches with
  | refl => exact first
  | tail _ nests ih =>
    obtain ⟨c, found, mem⟩ := nests
    have declared := List.mem_of_find?_eq_some found
    rw [← TypeHierarchy.name_of_get? found] at ih
    exact closed c declared ih mem

/-- The definition of a component nests what its type nests in the manifest. -/
theorem mem_dependencies_iff {c : CompiledComponent} {d : ComponentDefinition}
    (resolves : m.definitionOf? c = some d) (y : String) :
    y ∈ d.dependencies ↔ m.Nests d.typeName y := by
  rw [typeName_of_definitionOf? resolves]
  obtain ⟨type, found, rfl⟩ := Option.map_eq_some_iff.mp resolves
  obtain ⟨own, declared, -, same⟩ := TypeHierarchy.exists_get?_of_resolved? found
  have dependencies : (c.definition type).dependencies = own.components := same
  rw [dependencies]
  constructor
  · intro mem
    exact ⟨own, declared, mem⟩
  · rintro ⟨other, again, mem⟩
    obtain rfl := Option.some.inj (declared.symm.trans again)
    exact mem

/-- The registry holds a definition for each type that can be registered and for no other, and what
the types nest is what the manifest says. -/
structure Registry.Holds (r : Registry) (m : Manifest) : Prop where
  definition : ∀ n, m.Registrable n ↔ r.definition? n ≠ none
  nested : ∀ n d, r.definition? n = some d → ∀ y, y ∈ d.dependencies ↔ m.Nests n y

/-- What is declared and not the root can be found, whatever happens after its registration. -/
theorem Registry.Holds.finds {r later : Registry} (holds : r.Holds m) (ext : r.Extends later)
    (rest : later.AtRest) {name : String} (resolvable : m.Resolvable name) : later.Finds name := by
  have known (n : String) (reaches : m.Reaches name n) :
      ∃ d, later.definition? n = some d ∧ ∀ y ∈ d.dependencies, m.Nests n y := by
    obtain ⟨d, found⟩ :=
      Option.ne_none_iff_exists'.mp ((holds.definition n).mp (resolvable n reaches))
    exact ⟨d, ext.definitions n d found, fun y => (holds.nested n d found y).mp⟩
  refine (finds_iff_complete rest).mpr fun n needs => ?_
  have reaches : m.Reaches name n := by
    induction needs with
    | refl => exact .refl
    | tail _ opens ih =>
      obtain ⟨d, found, nested⟩ := known _ ih
      obtain ⟨⟨other, again, mem⟩, -⟩ := opens
      obtain rfl := Option.some.inj (found.symm.trans again)
      exact ih.tail (nested _ mem)
  obtain ⟨d, found, -⟩ := known n reaches
  rw [contains_iff, ne_eq, stage?_eq_none_iff, found]
  simp

/-- As long as nothing is ensured, all that can be found is declared and not the root. -/
theorem Registry.Holds.resolvable {r : Registry} (holds : r.Holds m) (rest : r.AtRest)
    (untouched : ∀ n, ¬ r.isEnsured n) {name : String} (finds : r.Finds name) :
    m.Resolvable name := by
  have complete := (finds_iff_complete rest).mp finds
  have registrable (n : String) (needs : r.Needs name n) : m.Registrable n := by
    have contained := contains_iff.mp (complete n needs)
    rw [ne_eq, stage?_eq_none_iff] at contained
    exact (holds.definition n).mpr contained
  intro n reaches
  refine registrable n ?_
  induction reaches with
  | refl => exact .refl
  | tail _ nests ih =>
    obtain ⟨d, found⟩ :=
      Option.ne_none_iff_exists'.mp ((holds.definition _).mp (registrable _ ih))
    exact ih.tail ⟨⟨d, found, (holds.nested _ d found _).mpr nests⟩, untouched _⟩

/-- **What is registered** are the definitions of the components whose types resolve. -/
theorem definition?_ofDefinitions_compiled [Markup.Matching]
    (compiles : compileManifest m settings readText = .ok components) {n : String}
    {d : ComponentDefinition} :
    (Registry.ofDefinitions (components.filterMap m.definitionOf?)).definition? n = some d ↔
      ∃ c ∈ components, m.definitionOf? c = some d ∧ c.descriptor.typeName = n := by
  have distinct := List.pairwise_map.mp (nodup_of_compileManifest compiles)
  have nodup : ((components.filterMap m.definitionOf?).map (·.typeName)).Nodup := by
    refine List.pairwise_map.mpr (List.Pairwise.filterMap _ ?_ distinct)
    intro c other ne d found d' found'
    rwa [typeName_of_definitionOf? found, typeName_of_definitionOf? found']
  rw [Registry.definition?_ofDefinitions_eq_some_iff nodup, List.mem_filterMap]
  constructor
  · rintro ⟨⟨c, mem, resolves⟩, rfl⟩
    exact ⟨c, mem, resolves, (typeName_of_definitionOf? resolves).symm⟩
  · rintro ⟨c, mem, resolves, rfl⟩
    exact ⟨⟨c, mem, resolves⟩, typeName_of_definitionOf? resolves⟩

theorem holds_ofDefinitions [Markup.Matching] (compiles : compileManifest m settings readText = .ok components) :
    (Registry.ofDefinitions (components.filterMap m.definitionOf?)).Holds m := by
  constructor
  · intro n
    rw [Option.ne_none_iff_exists']
    simp only [definition?_ofDefinitions_compiled compiles]
    constructor
    · intro registrable
      have declared := registrable.1
      rw [TypeHierarchy.Declares, ← typeNames_of_compileManifest compiles] at declared
      obtain ⟨c, mem, rfl⟩ := List.mem_map.mp declared
      obtain ⟨d, resolves⟩ := Option.isSome_iff_exists.mp (isSome_definitionOf?_iff.mpr registrable)
      exact ⟨d, c, mem, resolves, rfl⟩
    · rintro ⟨d, c, -, resolves, rfl⟩
      exact isSome_definitionOf?_iff.mp (Option.isSome_of_mem resolves)
  · intro n d known y
    obtain ⟨c, -, resolves, rfl⟩ := (definition?_ofDefinitions_compiled compiles).mp known
    rw [mem_dependencies_iff resolves, typeName_of_definitionOf? resolves]

/-! ## What is lost -/

/-- **Registration loses the declared root and nothing else.** It succeeds, and every other
component is registered under its name with the members that its type inherits. A type can be
found if and only if it and all that one comes to from it are declared and not the root; then it
can be found after any further operations, too. -/
theorem registered_iff_ne_root [Markup.Matching] (compiles : compileManifest m settings readText = .ok components) :
    ∃ after, registerAll m components .empty = .ok after ∧
      (∀ c ∈ components, c.descriptor.typeName ≠ m.hierarchy.root →
        ∃ type, m.hierarchy.resolved? c.descriptor.typeName = some type ∧
          after.definition? c.descriptor.typeName = some (c.definition type)) ∧
      (∀ name, after.contains name ↔ m.Registrable name) ∧
      (∀ name, after.Finds name ↔ m.Resolvable name) ∧
      ∀ name, m.Resolvable name → ∀ operations, (after.run operations).Finds name := by
  have holds := holds_ofDefinitions compiles
  have coherent := Registry.coherent_ofDefinitions (components.filterMap m.definitionOf?)
  have untouched := Registry.not_isEnsured_ofDefinitions (components.filterMap m.definitionOf?)
  refine ⟨_, registerAll_of_new (nodup_of_compileManifest compiles) fun _ _ => rfl, ?_, ?_, ?_, ?_⟩
  · intro c mem other
    have declared : m.hierarchy.Declares c.descriptor.typeName := by
      rw [TypeHierarchy.Declares, ← typeNames_of_compileManifest compiles]
      exact List.mem_map_of_mem mem
    obtain ⟨d, resolves⟩ :=
      Option.isSome_iff_exists.mp (isSome_definitionOf?_iff.mpr ⟨declared, other⟩)
    have known := (definition?_ofDefinitions_compiled compiles).mpr ⟨c, mem, resolves, rfl⟩
    obtain ⟨type, found, rfl⟩ := Option.map_eq_some_iff.mp resolves
    exact ⟨type, found, known⟩
  · intro name
    rw [holds.definition, Registry.contains_iff, ne_eq, ne_eq, Registry.stage?_eq_none_iff]
    rfl
  · intro name
    exact ⟨holds.resolvable coherent.rest untouched, holds.finds (.refl _) coherent.rest⟩
  · intro name resolvable operations
    exact holds.finds (Registry.extends_run coherent operations) (coherent.run operations).rest
      resolvable

/-! ## Two roots -/

/-- Two types that nest each other, and the root, which is declared, too, and nests one of them. -/
def circleAndRoot : Manifest where
  hierarchy := ⟨[{ name := "Tree", components := ["Branch"] },
    { name := "Branch", components := ["Tree"] },
    { name := "Component", components := ["Tree"] }], defaultRootType, by decide⟩
  rootType := some defaultRootType
  basePath := none

/-- The two can be found, and the root is lost. -/
theorem circle_is_registered :
    ∃ components after,
      compileManifest circleAndRoot {} (fun _ => .error .notFound) = .ok components ∧
        registerAll circleAndRoot components .empty = .ok after ∧
        "Component" ∈ components.map (fun c => c.descriptor.typeName) ∧
        ¬ after.contains "Component" ∧ circleAndRoot.Resolvable "Tree" ∧ after.Finds "Tree" := by
  have compiles : compileManifest circleAndRoot {} (fun _ => .error .notFound) = .ok [_, _, _] :=
    rfl
  obtain ⟨after, registers, -, contains, finds, -⟩ := registered_iff_ne_root compiles
  have resolvable : circleAndRoot.Resolvable "Tree" := by
    intro n reaches
    have inside : n ∈ ["Tree", "Branch"] := reaches.mem (by decide) List.mem_cons_self
    rcases List.mem_pair.mp inside with rfl | rfl <;> exact ⟨by decide, by decide⟩
  refine ⟨_, after, compiles, registers, ?_, ?_, resolvable, (finds "Tree").mpr resolvable⟩
  · rw [typeNames_of_compileManifest compiles]
    decide
  rw [contains]
  exact fun registrable => registrable.2 rfl

/-- One type, and no root that the manifest names. -/
def plainComponent : Manifest where
  hierarchy := ⟨[{ name := "Component" }], defaultRootType, by decide⟩
  rootType := none
  basePath := none

/-- **An ordinary type is lost.** The settings choose another root, so that the type is compiled
like any other, and all that one comes to from it is declared. It is not registered, because the
manifest has it for its root, and the lookup fails. -/
theorem configured_root_is_lost :
    ∃ components after c,
      compileManifest plainComponent { rootType := "Base" } (fun _ => .error .notFound) =
          .ok components ∧
        registerAll plainComponent components .empty = .ok after ∧ c ∈ components ∧
        c.descriptor.typeName ≠ (plainComponent.hierarchyFor { rootType := "Base" }).root ∧
        (∀ n, plainComponent.Reaches c.descriptor.typeName n →
          plainComponent.hierarchy.Declares n) ∧
        after.definition? c.descriptor.typeName = none ∧ ¬ after.Finds c.descriptor.typeName := by
  refine ⟨_, _, _, rfl, rfl, List.mem_cons_self, by decide, ?_, by decide, ?_⟩
  · intro n reaches
    obtain rfl := List.mem_singleton.mp (reaches.mem (by decide) List.mem_cons_self)
    decide
  · rintro ⟨d, found⟩
    cases found

end TemplateCompiler
