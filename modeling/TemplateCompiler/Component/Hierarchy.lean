import TemplateCompiler.Component.Declaration

/-!
# Component hierarchies

The declared component types, each name once, and the root type at which inheritance stops.
The ancestry of a type is the chain of its superclasses. It ends before the root, at a type that
is not declared, and at one that is in the chain already, so it is finite for any declarations.

## Main definitions

* `TypeHierarchy` — declared types and a root
* `TypeHierarchy.ancestry` — a type and its superclasses
* `TypeHierarchy.computedType?`, `TypeHierarchy.inheritedComputed` — computed properties along
  the ancestry, the nearest declaration first
* `TypeHierarchy.resolved?` — a type with the members that it inherits
-/
namespace TemplateCompiler

/-- Declared types with pairwise distinct names, in the order of their declaration, and the name
of the root type. -/
structure TypeHierarchy where
  types : List ComponentType
  root : String
  nodup_names : (types.map ComponentType.name).Nodup

namespace TypeHierarchy

/-- The hierarchy without any types. -/
def empty (root : String) : TypeHierarchy := ⟨[], root, List.nodup_nil⟩

instance : Inhabited TypeHierarchy := ⟨empty defaultRootType⟩

/-- The type of a given name. -/
def get? (h : TypeHierarchy) (name : String) : Option ComponentType :=
  h.types.find? fun c => c.name == name

/-- Whether a type of the given name is declared. -/
def Declares (h : TypeHierarchy) (name : String) : Prop := name ∈ h.types.map ComponentType.name

instance (h : TypeHierarchy) (name : String) : Decidable (h.Declares name) :=
  inferInstanceAs (Decidable (_ ∈ _))

/-- Choose another root. -/
def setRoot (h : TypeHierarchy) (root : String) : TypeHierarchy := { h with root }

/-- Declare one more type, unless its name is taken. -/
def insert? (h : TypeHierarchy) (c : ComponentType) : Option TypeHierarchy :=
  if taken : h.Declares c.name then none
  else
    some
      { h with
        types := h.types ++ [c]
        nodup_names := by
          rw [List.map_append, List.nodup_append]
          refine ⟨h.nodup_names, by simp, ?_⟩
          intro a ha b hb
          simp only [List.map_cons, List.map_nil, List.mem_singleton] at hb
          exact fun e => taken (hb ▸ e ▸ ha) }

@[simp] theorem root_setRoot (h : TypeHierarchy) (root : String) : (h.setRoot root).root = root :=
  rfl
@[simp] theorem types_setRoot (h : TypeHierarchy) (root : String) :
    (h.setRoot root).types = h.types := rfl

/-! ## Ancestry -/

/-- The chain of types that begins with the one called `name`, without those whose names have
been `seen`. The fuel bounds its length. -/
def chain (h : TypeHierarchy) : (fuel : Nat) → (seen : List String) → Option String →
    List ComponentType
  | 0, _, _ => []
  | _ + 1, _, none => []
  | fuel + 1, seen, some name =>
    if name = h.root then []
    else
      match h.get? name with
      | none => []
      | some c =>
        if c.name ∈ seen then [] else c :: h.chain fuel (c.name :: seen) c.superclass

/-- The type called `name` and its superclasses, the nearest first. The types in it are distinct,
so their number bounds its length. -/
def ancestry (h : TypeHierarchy) (name : String) : List ComponentType :=
  h.chain h.types.length [] (some name)

/-- The type of a computed property, by the nearest declaration. -/
def computedType? (h : TypeHierarchy) (name property : String) : Option String :=
  (h.ancestry name).findSome? fun c => c.computedType? property

/-- Add a getter to the properties collected so far, unless a nearer one is there. -/
def collectGetter (collected : OrderedMap String) (d : ComputedDeclaration) : OrderedMap String :=
  if d.kind = .getter ∧ ¬collected.contains d.name then collected.insert d.name d.typeName
  else collected

/-- The types of all computed properties with a getter along the ancestry. -/
def inheritedComputed (h : TypeHierarchy) (name : String) : OrderedMap String :=
  ((h.ancestry name).flatMap ComponentType.computed).foldl collectGetter .empty

/-! ## Inherited members -/

/-- Append the members whose key is not taken yet. -/
def appendNew {α κ : Type} [DecidableEq κ] (key : α → κ) (own more : List α) : List α :=
  more.foldl (fun all x => if key x ∈ all.map key then all else all ++ [x]) own

/-- A type with the members of one ancestor. What the type has already hides what the ancestor
declares; the getter and the setter of a computed property are told apart. -/
def inherit (c ancestor : ComponentType) : ComponentType :=
  { c with
    methods := appendNew MethodDeclaration.name c.methods ancestor.methods
    computed := appendNew (fun d => (d.name, d.kind)) c.computed ancestor.computed
    watch := appendNew WatchDeclaration.property c.watch ancestor.watch
    hooks := appendNew id c.hooks ancestor.hooks }

/-- The type called `name` with all members that it inherits. -/
def resolved? (h : TypeHierarchy) (name : String) : Option ComponentType :=
  match h.ancestry name with
  | [] => none
  | c :: ancestors => some (ancestors.foldl inherit c)

end TypeHierarchy

end TemplateCompiler
