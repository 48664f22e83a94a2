import Mathlib.Data.List.Infix
import TemplateCompiler.Component.Hierarchy

/-!
# Inherited computed properties

Two folds run along an ancestry. One collects the types of getters into a map and passes over
names that are there; the other appends the members of each ancestor to the type, unless one with
their key is there. What either has to say about a computed property is what a search along the
ancestry finds first, so they can only differ where they run along different ancestries.

Ancestries that differ in the root alone run together up to the first of the two roots.

## Main statements

* `TypeHierarchy.get?_inheritedComputed` — what the collected map holds
* `TypeHierarchy.computedType?_resolved` — the first getter of a resolved type
* `TypeHierarchy.ancestry_setRoot` — the ancestry under another root
-/
namespace TemplateCompiler.TypeHierarchy

/-! ## Collecting types -/

/-- Whether a declaration is a getter of the property. -/
def isGetter (property : String) (d : ComputedDeclaration) : Bool :=
  d.name == property && d.kind == .getter

theorem computedType?_eq (c : ComponentType) (property : String) :
    c.computedType? property =
      (c.computed.find? (isGetter property)).map ComputedDeclaration.typeName := rfl

/-- One more declaration counts if nothing has been collected under its name. -/
theorem get?_collectGetter (collected : OrderedMap String) (d : ComputedDeclaration)
    (property : String) :
    (collectGetter collected d).get? property =
      (collected.get? property).or
        (if isGetter property d then some d.typeName else none) := by
  unfold collectGetter isGetter
  by_cases name : d.name = property
  · subst name
    cases kind : d.kind with
    | setter => simp
    | getter =>
      cases known : collected.get? d.name with
      | none => simp [OrderedMap.contains, known, OrderedMap.get?_insert]
      | some type => simp [OrderedMap.contains, known]
  · have other : ¬ property = d.name := fun same => name same.symm
    split
    · simp [OrderedMap.get?_insert, name, other]
    · simp [name]

/-- The first getter counts, unless something has been collected before. -/
theorem get?_foldl_collectGetter (collected : OrderedMap String)
    (declarations : List ComputedDeclaration) (property : String) :
    (declarations.foldl collectGetter collected).get? property =
      (collected.get? property).or
        ((declarations.find? (isGetter property)).map ComputedDeclaration.typeName) := by
  induction declarations generalizing collected with
  | nil => simp
  | cons d rest ih =>
    rw [List.foldl_cons, ih, get?_collectGetter, Option.or_assoc, List.find?_cons]
    cases isGetter property d <;> simp

/-- **The collected map holds what a search along the ancestry finds first.** -/
theorem get?_inheritedComputed (h : TypeHierarchy) (name property : String) :
    (h.inheritedComputed name).get? property = h.computedType? name property := by
  rw [inheritedComputed, get?_foldl_collectGetter, OrderedMap.get?_empty, Option.none_or,
    List.find?_flatMap, List.map_findSome?]
  rfl

/-! ## Appending members -/

section AppendNew

variable {α κ : Type} [DecidableEq κ] {key : α → κ}

/-- A search that looks at keys alone finds the same when members are appended whose keys are
new as when all of them are. -/
theorem find?_appendNew {p : α → Bool} (byKey : ∀ a b, key a = key b → p a = p b)
    (own more : List α) : (appendNew key own more).find? p = (own ++ more).find? p := by
  unfold appendNew
  induction more generalizing own with
  | nil => simp
  | cons a rest ih =>
    rw [List.foldl_cons, ih]
    split
    · -- a member with this key stands in front of it
      rename_i taken
      obtain ⟨b, mem, same⟩ := List.mem_map.mp taken
      rw [List.find?_append, List.find?_append, List.find?_cons]
      cases found : p a with
      | false => rfl
      | true =>
        have earlier : (own.find? p).isSome :=
          List.find?_isSome.mpr ⟨b, mem, by rw [byKey b a same, found]⟩
        obtain ⟨first, hfirst⟩ := Option.isSome_iff_exists.mp earlier
        rw [hfirst, Option.some_or, Option.some_or]
    · rw [List.append_assoc, List.singleton_append]

end AppendNew

/-- An ancestor's getter counts where the type itself has none. -/
theorem computedType?_inherit (c ancestor : ComponentType) (property : String) :
    (inherit c ancestor).computedType? property =
      (c.computedType? property).or (ancestor.computedType? property) := by
  have byKey (a b : ComputedDeclaration) (same : (a.name, a.kind) = (b.name, b.kind)) :
      isGetter property a = isGetter property b := by
    obtain ⟨name, kind⟩ := Prod.mk.inj same
    rw [isGetter, isGetter, name, kind]
  rw [computedType?_eq, computedType?_eq, computedType?_eq, inherit, find?_appendNew byKey,
    List.find?_append, Option.map_or]

theorem computedType?_foldl_inherit (c : ComponentType) (ancestors : List ComponentType)
    (property : String) :
    (ancestors.foldl inherit c).computedType? property =
      (c.computedType? property).or
        (ancestors.findSome? fun ancestor => ancestor.computedType? property) := by
  induction ancestors generalizing c with
  | nil => simp
  | cons ancestor rest ih =>
    rw [List.foldl_cons, ih, computedType?_inherit, Option.or_assoc, List.findSome?_cons]
    cases ancestor.computedType? property <;> rfl

/-- **The first getter of a resolved type is what a search along the ancestry finds first.** -/
theorem computedType?_resolved {h : TypeHierarchy} {name : String} {c : ComponentType}
    (resolves : h.resolved? name = some c) (property : String) :
    c.computedType? property = h.computedType? name property := by
  unfold resolved? at resolves
  split at resolves
  · cases resolves
  · rename_i first ancestors walk
    obtain rfl := Option.some.inj resolves
    rw [computedType?_foldl_inherit, computedType?, walk, List.findSome?_cons]
    cases first.computedType? property <;> rfl

/-! ## Names and nested types -/

theorem name_foldl_inherit (c : ComponentType) (ancestors : List ComponentType) :
    (ancestors.foldl inherit c).name = c.name := by
  induction ancestors generalizing c with
  | nil => rfl
  | cons ancestor rest ih => exact ih (inherit c ancestor)

theorem components_foldl_inherit (c : ComponentType) (ancestors : List ComponentType) :
    (ancestors.foldl inherit c).components = c.components := by
  induction ancestors generalizing c with
  | nil => rfl
  | cons ancestor rest ih => exact ih (inherit c ancestor)

/-- A type is found under its own name. -/
theorem name_of_get? {h : TypeHierarchy} {name : String} {c : ComponentType}
    (found : h.get? name = some c) : c.name = name := by
  simpa using List.find?_some found

/-- A declared type is found by its name. -/
theorem exists_get?_iff {h : TypeHierarchy} {name : String} :
    (∃ c, h.get? name = some c) ↔ h.Declares name := by
  rw [← Option.isSome_iff_exists, get?, List.find?_isSome, Declares, List.mem_map]
  simp only [beq_iff_eq]

/-- An ancestry begins with the type that was asked for, unless that is the root. -/
theorem head?_ancestry (h : TypeHierarchy) (name : String) :
    (h.ancestry name).head? = if name = h.root then none else h.get? name := by
  unfold ancestry
  cases length : h.types.length with
  | zero => simp [chain, get?, List.eq_nil_of_length_eq_zero length]
  | succ fuel =>
    rw [chain]
    split
    · rfl
    · cases h.get? name <;> simp

/-- **A type resolves to itself, with the members of its ancestors**, if it is declared and not the
root. -/
theorem resolved?_eq (h : TypeHierarchy) (name : String) :
    h.resolved? name =
      (if name = h.root then none else h.get? name).map
        ((h.ancestry name).tail.foldl inherit) := by
  rw [← head?_ancestry, resolved?]
  cases h.ancestry name <;> rfl

/-- Resolving keeps the name of a type and what it nests. -/
theorem exists_get?_of_resolved? {h : TypeHierarchy} {name : String} {c : ComponentType}
    (resolves : h.resolved? name = some c) :
    ∃ own, h.get? name = some own ∧ c.name = own.name ∧ c.components = own.components := by
  rw [resolved?_eq] at resolves
  obtain ⟨own, found, rfl⟩ := Option.map_eq_some_iff.mp resolves
  split at found
  · cases found
  · exact ⟨own, found, name_foldl_inherit own _, components_foldl_inherit own _⟩

theorem name_of_resolved? {h : TypeHierarchy} {name : String} {c : ComponentType}
    (resolves : h.resolved? name = some c) : c.name = name := by
  obtain ⟨own, found, same, -⟩ := exists_get?_of_resolved? resolves
  rw [same, name_of_get? found]

/-! ## Another root -/

theorem chain_setRoot (h : TypeHierarchy) (root : String) (fuel : Nat) (seen : List String)
    (start : Option String) :
    h.chain fuel seen start <+: (h.setRoot root).chain fuel seen start ∨
      (h.setRoot root).chain fuel seen start <+: h.chain fuel seen start := by
  induction fuel generalizing seen start with
  | zero => exact .inl (List.prefix_refl _)
  | succ fuel ih =>
    cases start with
    | none => exact .inl (List.prefix_refl _)
    | some name =>
      rw [chain, chain, root_setRoot, show (h.setRoot root).get? name = h.get? name from rfl]
      -- the walk that comes to its root first is the shorter one
      by_cases own : name = h.root
      · rw [if_pos own]
        exact .inl List.nil_prefix
      by_cases other : name = root
      · rw [if_pos other]
        exact .inr List.nil_prefix
      rw [if_neg own, if_neg other]
      cases h.get? name with
      | none => exact .inl (List.prefix_refl _)
      | some c =>
        by_cases visited : c.name ∈ seen
        · simp only [if_pos visited]
          exact .inl (List.prefix_refl _)
        · simp only [if_neg visited]
          exact (ih (c.name :: seen) c.superclass).imp (List.cons_prefix_cons.mpr ⟨rfl, ·⟩)
            (List.cons_prefix_cons.mpr ⟨rfl, ·⟩)

/-- **Under another root** the ancestry of a type runs the same way, and one of the two ends
first. -/
theorem ancestry_setRoot (h : TypeHierarchy) (root name : String) :
    h.ancestry name <+: (h.setRoot root).ancestry name ∨
      (h.setRoot root).ancestry name <+: h.ancestry name :=
  h.chain_setRoot root h.types.length [] (some name)

end TemplateCompiler.TypeHierarchy
