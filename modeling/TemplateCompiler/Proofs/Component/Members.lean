import Mathlib.Data.List.Induction
import Mathlib.Data.List.Nodup
import TemplateCompiler.Proofs.Component.Ancestry
import TemplateCompiler.Proofs.OrderedMap

/-!
# Inherited members

A resolved type has the members that it declares and behind them those that it inherits. Four lists
of members are folded in along the ancestry, each with a key of its own, and each fold looks for the
key of a member in a list that grows while it goes on. It comes to the same as one fold over all
that the ancestors declare, and what that leaves can be said at once: of every key that the type
does not declare itself, the first declaration.

## Main definitions

* `TypeHierarchy.FoldedIn` — the members that a type inherits from its ancestors

## Main statements

* `TypeHierarchy.exists_appendNew` — what appending members with new keys appends
* `TypeHierarchy.foldl_inherit` — all ancestors at once
* `TypeHierarchy.members_of_resolved` — the members of a resolved type
-/
namespace TemplateCompiler.TypeHierarchy

variable {α κ : Type} [DecidableEq κ] {key : α → κ}

/-! ## Appending members -/

theorem appendNew_concat (key : α → κ) (own more : List α) (x : α) :
    appendNew key own (more ++ [x]) =
      if key x ∈ (appendNew key own more).map key then appendNew key own more
      else appendNew key own more ++ [x] := by
  rw [appendNew, List.foldl_append]
  rfl

theorem appendNew_append (key : α → κ) (own more further : List α) :
    appendNew key own (more ++ further) = appendNew key (appendNew key own more) further :=
  List.foldl_append

/-- Behind its own members a list has those of another one whose keys are new, each where its key
comes first. -/
structure Appended (key : α → κ) (own more new : List α) : Prop where
  sublist : new.Sublist more
  nodup : (new.map key).Nodup
  fresh : ∀ x ∈ new, key x ∉ own.map key
  keys : new.map key = (more.map key).eraseDups.filter (· ∉ own.map key)

/-- The keys are those of both lists. -/
theorem Appended.mem_keys_iff {own more new : List α} (h : Appended key own more new) (k : κ) :
    k ∈ (own ++ new).map key ↔ k ∈ own.map key ∨ k ∈ more.map key := by
  rw [List.map_append, List.mem_append, h.keys, List.mem_filter, List.mem_eraseDups,
    decide_eq_true_iff]
  tauto

/-- **What appending members with new keys appends.** -/
theorem exists_appendNew (key : α → κ) (own more : List α) :
    ∃ new, appendNew key own more = own ++ new ∧ Appended key own more new := by
  induction more using List.reverseRecOn with
  | nil => exact ⟨[], (List.append_nil own).symm, .slnil, .nil, nofun, rfl⟩
  | append_singleton more x ih =>
    obtain ⟨new, appended, h⟩ := ih
    rw [appendNew_concat, appended]
    by_cases known : key x ∈ own.map key ∨ key x ∈ more.map key
    · rw [if_pos ((h.mem_keys_iff _).mpr known)]
      refine ⟨new, rfl, h.sublist.trans (List.sublist_append_left _ _), h.nodup, h.fresh, ?_⟩
      rw [h.keys, List.map_append, List.map_singleton, eraseDups_concat]
      split
      · rfl
      · next unknown =>
        rw [List.filter_append, List.filter_singleton, decide_not,
          decide_eq_true (known.resolve_right unknown)]
        exact (List.append_nil _).symm
    · rw [if_neg ((h.mem_keys_iff _).not.mpr known)]
      obtain ⟨notOwn, notMore⟩ := not_or.mp known
      refine ⟨new ++ [x], List.append_assoc own new [x], h.sublist.append (List.Sublist.refl _),
        ?nodup, ?fresh, ?keys⟩
      case nodup =>
        rw [List.map_append, List.map_singleton, List.nodup_append]
        refine ⟨h.nodup, List.nodup_singleton _, ?_⟩
        intro k mem k' mem' same
        obtain rfl := List.mem_singleton.mp mem'
        subst same
        rw [h.keys] at mem
        exact notMore (List.mem_eraseDups.mp (List.mem_of_mem_filter mem))
      case fresh =>
        intro y mem
        rcases List.mem_append.mp mem with before | here
        · exact h.fresh y before
        · obtain rfl := List.mem_singleton.mp here
          exact notOwn
      case keys =>
        rw [List.map_append, List.map_append, List.map_singleton, eraseDups_concat,
          if_neg notMore, List.filter_append, List.filter_singleton, h.keys,
          decide_eq_true notOwn]
        rfl

/-! ## Folding in ancestors -/

/-- **All ancestors at once**: each of the four lists gets what the ancestors declare, one after the
other, as far as its keys are new. -/
theorem foldl_inherit (c : ComponentType) (ancestors : List ComponentType) :
    ancestors.foldl inherit c =
      { c with
        methods := appendNew MethodDeclaration.name c.methods
          (ancestors.flatMap ComponentType.methods)
        computed := appendNew (fun d => (d.name, d.kind)) c.computed
          (ancestors.flatMap ComponentType.computed)
        watch := appendNew WatchDeclaration.property c.watch
          (ancestors.flatMap ComponentType.watch)
        hooks := appendNew id c.hooks (ancestors.flatMap ComponentType.hooks) } := by
  induction ancestors generalizing c with
  | nil => rfl
  | cons ancestor rest ih =>
    rw [List.foldl_cons, ih]
    simp only [inherit, List.flatMap_cons, appendNew_append]

/-- The members that a type inherits from its ancestors, of those that have a key. -/
structure FoldedIn (key : α → κ) (members : ComponentType → List α) (c : ComponentType)
    (ancestors : List ComponentType) (inherited : List α) : Prop where
  /-- They are declared by ancestors and come in the order of the ancestry. -/
  sublist : inherited.Sublist (ancestors.flatMap members)
  /-- The keys that the type does not declare itself, each where it is declared first. -/
  keys : inherited.map key =
    ((ancestors.flatMap members).map key).eraseDups.filter (· ∉ (members c).map key)
  /-- None of them repeats the key of another one. -/
  nodup : (inherited.map key).Nodup
  /-- None of them repeats a key of the type itself. -/
  fresh : ∀ x ∈ inherited, key x ∉ (members c).map key
  /-- There is a member for each key that the type or an ancestor declares. -/
  complete : ∀ t ∈ c :: ancestors, ∀ x ∈ members t, key x ∈ (members c ++ inherited).map key
  /-- The first member with a key is the first declaration of the nearest type that has one. -/
  nearest : ∀ k, (members c ++ inherited).find? (fun x => key x == k) =
    (c :: ancestors).findSome? fun t => (members t).find? fun x => key x == k

/-- What is folded in along an ancestry. -/
theorem exists_foldedIn (key : α → κ) (members : ComponentType → List α) (c : ComponentType)
    (ancestors : List ComponentType) :
    ∃ inherited, appendNew key (members c) (ancestors.flatMap members) = members c ++ inherited ∧
      FoldedIn key members c ancestors inherited := by
  obtain ⟨inherited, appended, h⟩ := exists_appendNew key (members c) (ancestors.flatMap members)
  refine ⟨inherited, appended, h.sublist, h.keys, h.nodup, h.fresh, ?_, ?_⟩
  · intro t mem x declared
    rw [h.mem_keys_iff]
    rcases List.mem_cons.mp mem with rfl | ancestor
    · exact .inl (List.mem_map_of_mem declared)
    · exact .inr (List.mem_map_of_mem (List.mem_flatMap.mpr ⟨t, ancestor, declared⟩))
  · intro k
    have byKey (a b : α) (same : key a = key b) : (key a == k) = (key b == k) := by rw [same]
    rw [← appended, find?_appendNew byKey, ← List.flatMap_cons, List.find?_flatMap]

/-- What a type with an ancestry resolves to. -/
theorem exists_resolved {h : TypeHierarchy} {name : String} {c : ComponentType}
    {ancestors : List ComponentType} (walk : h.ancestry name = c :: ancestors) :
    ∃ methods computed watch hooks,
      h.resolved? name = some
        { c with
          methods := c.methods ++ methods
          computed := c.computed ++ computed
          watch := c.watch ++ watch
          hooks := c.hooks ++ hooks } ∧
        FoldedIn MethodDeclaration.name ComponentType.methods c ancestors methods ∧
        FoldedIn (fun d : ComputedDeclaration => (d.name, d.kind)) ComponentType.computed c
          ancestors computed ∧
        FoldedIn WatchDeclaration.property ComponentType.watch c ancestors watch ∧
        FoldedIn id ComponentType.hooks c ancestors hooks := by
  obtain ⟨methods, appendsMethods, foldsMethods⟩ :=
    exists_foldedIn MethodDeclaration.name ComponentType.methods c ancestors
  obtain ⟨computed, appendsComputed, foldsComputed⟩ :=
    exists_foldedIn (fun d : ComputedDeclaration => (d.name, d.kind)) ComponentType.computed c
      ancestors
  obtain ⟨watch, appendsWatch, foldsWatch⟩ :=
    exists_foldedIn WatchDeclaration.property ComponentType.watch c ancestors
  obtain ⟨hooks, appendsHooks, foldsHooks⟩ :=
    exists_foldedIn id ComponentType.hooks c ancestors
  refine ⟨methods, computed, watch, hooks, ?_, foldsMethods, foldsComputed, foldsWatch, foldsHooks⟩
  rw [resolved?, walk]
  dsimp only
  rw [foldl_inherit, appendsMethods, appendsComputed, appendsWatch, appendsHooks]

/-- **The members of a resolved type.** A type with an ancestry resolves to its own declaration, but
for the methods, computed properties, watchers and hooks. Of these it has its own ones, unchanged,
and behind them those that it inherits: in the order of the ancestry, and for each key that it does
not declare itself the first declaration of the nearest ancestor. -/
theorem members_of_resolved {h : TypeHierarchy} {name : String} {c : ComponentType}
    {ancestors : List ComponentType} (walk : h.ancestry name = c :: ancestors) :
    h.get? name = some c ∧
      ∃ methods computed watch hooks,
        h.resolved? name = some
          { c with
            methods := c.methods ++ methods
            computed := c.computed ++ computed
            watch := c.watch ++ watch
            hooks := c.hooks ++ hooks } ∧
          FoldedIn MethodDeclaration.name ComponentType.methods c ancestors methods ∧
          FoldedIn (fun d : ComputedDeclaration => (d.name, d.kind)) ComponentType.computed c
            ancestors computed ∧
          FoldedIn WatchDeclaration.property ComponentType.watch c ancestors watch ∧
          FoldedIn id ComponentType.hooks c ancestors hooks := by
  refine ⟨?_, exists_resolved walk⟩
  have first := h.head?_ancestry name
  rw [walk, List.head?_cons] at first
  split at first
  · cases first
  · exact first.symm

/-- A type that declares a hook and a getter that its superclass has, too. -/
def leaf : ComponentType :=
  { (default : ComponentType) with
    name := "Leaf", superclass := "Base", hooks := ["mounted"]
    computed := [⟨"label", none, "String", .getter⟩] }

/-- Its superclass, which declares two watchers of one property. -/
def base : ComponentType :=
  { (default : ComponentType) with
    name := "Base", superclass := "Component", hooks := ["created", "mounted"]
    computed := [⟨"label", none, "Object", .getter⟩, ⟨"label", "setLabel", "void", .setter⟩]
    watch := [⟨"first", "items", false⟩, ⟨"second", "items", true⟩] }

/-- The hierarchy of the two. -/
def family : TypeHierarchy := ⟨[base, leaf], "Component", by decide⟩

/-- The getter of the superclass is hidden and the setter is inherited; of the watchers the first
one is. -/
theorem members_of_leaf :
    family.ancestry "Leaf" = [leaf, base] ∧
      family.resolved? "Leaf" = some
        { leaf with
          computed := leaf.computed ++ [⟨"label", "setLabel", "void", .setter⟩]
          watch := [⟨"first", "items", false⟩]
          hooks := ["mounted", "created"] } ∧
      FoldedIn (fun d : ComputedDeclaration => (d.name, d.kind)) ComponentType.computed leaf [base]
        [⟨"label", "setLabel", "void", .setter⟩] ∧
      FoldedIn WatchDeclaration.property ComponentType.watch leaf [base]
        [⟨"first", "items", false⟩] := by
  have walk : family.ancestry "Leaf" = [leaf, base] := by decide
  have resolves : family.resolved? "Leaf" = some
      { leaf with
        computed := leaf.computed ++ [⟨"label", "setLabel", "void", .setter⟩]
        watch := [⟨"first", "items", false⟩]
        hooks := ["mounted", "created"] } := by decide
  obtain ⟨-, methods, computed, watch, hooks, members, -, foldsComputed, foldsWatch, -⟩ :=
    members_of_resolved walk
  have same := Option.some.inj (resolves.symm.trans members)
  obtain rfl := List.append_cancel_left (congrArg ComponentType.computed same)
  obtain rfl : _ = watch := congrArg ComponentType.watch same
  exact ⟨walk, resolves, foldsComputed, foldsWatch⟩

end TemplateCompiler.TypeHierarchy
