import TemplateCompiler.Compilation
import TemplateCompiler.Proofs.Component.Walk

/-!
# Types that have no influence

Compiling a component looks at other types only through the ancestry of the component. An ancestry
stays what it is when further types are declared, in whatever order, as long as none of them has
the name at which it stops for want of a declaration. Only there a new type makes it longer.

## Main definitions

* `TypeHierarchy.StopsAt` — the name that is missing at the end of an ancestry

## Main statements

* `TypeHierarchy.IsAncestry.transfer` — an ancestry in another hierarchy
* `TypeHierarchy.ancestry_insert?_eq_iff` — when a new type leaves an ancestry as it is
* `compileComponent_congr` — what compilation depends on
* `unrelated_types_have_no_influence` — new types, and types in another order
-/
namespace TemplateCompiler

namespace TypeHierarchy

/-! ## Where an ancestry stops -/

/-- The ancestry of the type called `name` stops at the name `next`, which is not the root, because
no type of that name is declared. It may be the name that the ancestry was to begin with. -/
def StopsAt (h : TypeHierarchy) (name next : String) : Prop :=
  linkBehind name (h.ancestry name) = some next ∧ next ≠ h.root ∧ ¬ h.Declares next

instance (h : TypeHierarchy) (name next : String) : Decidable (h.StopsAt name next) :=
  inferInstanceAs (Decidable (_ ∧ _ ∧ _))

variable {h h' : TypeHierarchy} {name : String} {walk : List ComponentType} {u : ComponentType}

theorem isAncestry_ancestry (h : TypeHierarchy) (name : String) :
    h.IsAncestry name (h.ancestry name) :=
  (h.ends_ancestry name).isAncestry (.start h name)

theorem IsAncestry.eq_ancestry (isAncestry : h.IsAncestry name walk) : walk = h.ancestry name :=
  (Ends.of_isAncestry isAncestry (List.nil_append walk).symm).unique (h.ends_ancestry name)

/-- **An ancestry in another hierarchy.** It is one there if the hierarchies agree about the types
on it and the link behind it leads to nothing that is declared there alone. -/
theorem IsAncestry.transfer (isAncestry : h.IsAncestry name walk) (root : h'.root = h.root)
    (agree : ∀ c ∈ walk, h'.get? c.name = h.get? c.name)
    (ends : ∀ next ∈ linkBehind name walk, next ≠ h.root → h'.Declares next → h.Declares next) :
    h'.IsAncestry name walk where
  declared c mem := (agree c mem).trans (isAncestry.declared c mem)
  notRoot c mem := by
    rw [root]
    exact isAncestry.notRoot c mem
  distinct := isAncestry.distinct
  first := isAncestry.first
  linked := isAncestry.linked
  longest next mem := by
    rw [root]
    by_cases isRoot : next = h.root
    · exact .inl isRoot
    · refine (isAncestry.longest next mem).imp_right (Or.imp_left fun undeclared declares => ?_)
      exact undeclared (ends next mem isRoot declares)

/-! ## One more type -/

theorem insert?_of_not_declares (new : ¬ h.Declares u.name) :
    ∃ h', h.insert? u = some h' ∧ h'.types = h.types ++ [u] ∧ h'.root = h.root := by
  rw [insert?, dif_neg new]
  exact ⟨_, rfl, rfl, rfl⟩

theorem get?_of_types_concat (types : h'.types = h.types ++ [u]) (other : name ≠ u.name) :
    h'.get? name = h.get? name := by
  have last : ¬ u.name = name := Ne.symm other
  simp [get?, types, List.find?_append, last]

theorem declares_of_types_concat (types : h'.types = h.types ++ [u]) :
    h'.Declares name ↔ h.Declares name ∨ name = u.name := by
  simp [Declares, types, or_comm]

/-- **A new type leaves an ancestry as it is** if and only if the ancestry does not stop at its
name. -/
theorem ancestry_insert?_eq_iff (new : ¬ h.Declares u.name) (inserted : h.insert? u = some h')
    (name : String) : h'.ancestry name = h.ancestry name ↔ ¬ h.StopsAt name u.name := by
  obtain ⟨_, same, types, root⟩ := insert?_of_not_declares new
  obtain rfl := Option.some.inj (inserted.symm.trans same)
  have walk := h.isAncestry_ancestry name
  have known (c : ComponentType) (mem : c ∈ h.ancestry name) : c.name ≠ u.name := by
    rintro same
    exact new (same ▸ exists_get?_iff.mp ⟨c, walk.declared c mem⟩)
  constructor
  · -- there is a longer walk where the new type is missing
    rintro same ⟨behind, notRoot, -⟩
    have longest := (h'.isAncestry_ancestry name).longest u.name (same ▸ behind)
    rw [root, same] at longest
    rcases longest with isRoot | undeclared | visited
    · exact notRoot isRoot
    · exact undeclared ((declares_of_types_concat types).mpr (.inr rfl))
    · obtain ⟨c, mem, called⟩ := List.mem_map.mp visited
      exact known c mem called
  · intro apart
    refine (IsAncestry.eq_ancestry (walk.transfer root ?_ ?_)).symm
    · exact fun c mem => get?_of_types_concat types (known c mem)
    · intro next behind notRoot declares
      refine ((declares_of_types_concat types).mp declares).resolve_right ?_
      rintro rfl
      exact apart ⟨behind, notRoot, new⟩

/-- An ancestry that stops at a missing type goes on when the type is declared. -/
example :
    let child : ComponentType := { name := "Child", superclass := "Base" }
    let h : TypeHierarchy := ⟨[child], defaultRootType, by decide⟩
    h.StopsAt "Child" "Base" ∧ (h.ancestry "Child").map ComponentType.name = ["Child"] ∧
      (h.insert? { name := "Base" }).map (fun h' => (h'.ancestry "Child").map ComponentType.name) =
        some ["Child", "Base"] := by
  decide

/-! ## Types in another order -/

/-- A type is found wherever it is declared. -/
theorem get?_eq_some_iff {c : ComponentType} :
    h.get? name = some c ↔ c ∈ h.types ∧ c.name = name := by
  constructor
  · intro found
    exact ⟨List.mem_of_find?_eq_some found, name_of_get? found⟩
  · rintro ⟨mem, rfl⟩
    obtain ⟨d, found⟩ := exists_get?_iff.mpr (List.mem_map_of_mem mem)
    have isMember := List.mem_of_find?_eq_some found
    rw [found, List.inj_on_of_nodup_map h.nodup_names isMember mem (name_of_get? found)]

/-- **The order of declarations makes no difference to an ancestry.** -/
theorem ancestry_perm (types : h'.types.Perm h.types) (root : h'.root = h.root) (name : String) :
    h'.ancestry name = h.ancestry name := by
  have agree (name : String) : h'.get? name = h.get? name := by
    ext c
    rw [get?_eq_some_iff, get?_eq_some_iff, types.mem_iff]
  refine (IsAncestry.eq_ancestry ((h.isAncestry_ancestry name).transfer root ?_ ?_)).symm
  · exact fun c _ => agree c.name
  · intro next _ _ declares
    rwa [← exists_get?_iff, ← agree, exists_get?_iff]

end TypeHierarchy

/-! ## Compilation -/

namespace Extraction

variable {h h' : TypeHierarchy} {c : ComponentType}

/-- The types of computed properties are found along the ancestry. -/
theorem computedType?_congr (same : h'.ancestry c.name = h.ancestry c.name) :
    computedType? h' c = computedType? h c := by
  funext body
  rw [computedType?, computedType?, TypeHierarchy.computedType?, TypeHierarchy.computedType?, same]

/-- A step of the walk over a template asks for nothing else. -/
theorem Walk.step_congr (types : computedType? h' c = computedType? h c) :
    Walk.step h' c = Walk.step h c := by
  have classified : classifyExpression h' c = classifyExpression h c := by
    funext directive body
    simp only [classifyExpression, types]
  have slots : Walk.slot h' c = Walk.slot h c := by
    funext outer inner w slot
    cases slot <;> simp only [Walk.slot, classified]
  funext w site
  cases site <;> simp only [Walk.step, Walk.interpolation, slots, types]

end Extraction

section Compilation

variable {h h' : TypeHierarchy} {c : ComponentType}

theorem extract_congr [Markup.Matching] (same : h'.ancestry c.name = h.ancestry c.name) :
    extract h' c = extract h c := by
  funext template
  simp only [extract, Extraction.Walk.run,
    Extraction.Walk.step_congr (Extraction.computedType?_congr same)]

/-- **Compilation depends on other types through the ancestry of the component alone.** -/
theorem compileComponent_congr [Markup.Matching] (same : h'.ancestry c.name = h.ancestry c.name) :
    compileComponent h' c = compileComponent h c := by
  funext template settings
  simp only [compileComponent, Descriptor.make, TypeHierarchy.inheritedComputed, same,
    extract_congr same]

/-- **Unrelated types have no influence.** A component compiles to the same result, or to the same
problems, if one more type is declared, unless the ancestry of the component stops at its name for
want of a declaration, and if the types are declared in another order. -/
theorem unrelated_types_have_no_influence [Markup.Matching] (h : TypeHierarchy) (c : ComponentType)
    (template : Option String) (settings : Settings) :
    (∀ u : ComponentType, ¬ h.Declares u.name → ¬ h.StopsAt c.name u.name →
      ∃ h', h.insert? u = some h' ∧
        compileComponent h' c template settings = compileComponent h c template settings) ∧
    (∀ h' : TypeHierarchy, h'.types.Perm h.types → h'.root = h.root →
      compileComponent h' c template settings = compileComponent h c template settings) := by
  constructor
  · intro u new apart
    obtain ⟨h', inserted, -⟩ := TypeHierarchy.insert?_of_not_declares new
    have same := (TypeHierarchy.ancestry_insert?_eq_iff new inserted c.name).mpr apart
    exact ⟨h', inserted, by rw [compileComponent_congr same]⟩
  · intro h' types root
    rw [compileComponent_congr (TypeHierarchy.ancestry_perm types root c.name)]

/-- `Child` extends `Base`, which has a getter of `total` and extends a type that is missing. -/
def danglingTypes : List ComponentType :=
  [{ name := "Base", superclass := some "Missing", computed := [⟨"total", none, "int", .getter⟩] },
    { name := "Child", superclass := some "Base" }]

/-- A subtype of `Child` that hides the getter has no influence on `Child`, nor has the order of the
types. Only a type called `Missing` could have any. -/
theorem subtype_and_order_have_no_influence :
    let h : TypeHierarchy := ⟨danglingTypes, defaultRootType, by decide⟩
    let reversed : TypeHierarchy := ⟨danglingTypes.reverse, defaultRootType, by decide⟩
    let child : ComponentType := { name := "Child", superclass := some "Base" }
    let u : ComponentType :=
      { name := "Other", superclass := some "Child",
        computed := [⟨"total", none, "long", .getter⟩] }
    h.StopsAt "Child" "Missing" ∧ ¬ h.Declares u.name ∧ ¬ h.StopsAt "Child" u.name ∧
      (∃ h', h.insert? u = some h' ∧
        compileComponent h' child (some "\x7b\x7b total \x7d\x7d") {} =
          compileComponent h child (some "\x7b\x7b total \x7d\x7d") {}) ∧
      compileComponent reversed child (some "\x7b\x7b total \x7d\x7d") {} =
        compileComponent h child (some "\x7b\x7b total \x7d\x7d") {} := by
  intro h reversed child u
  have declared := unrelated_types_have_no_influence h child (some "\x7b\x7b total \x7d\x7d") {}
  have new : ¬ h.Declares u.name := by decide
  have apart : ¬ h.StopsAt "Child" u.name := by decide
  exact ⟨by decide, new, apart, declared.1 u new apart,
    declared.2 reversed (List.reverse_perm _) rfl⟩

end Compilation

end TemplateCompiler
