import Mathlib
import TemplateCompiler.Compilation
import TemplateCompiler.Proofs.Component.Inheritance
import TemplateCompiler.Proofs.Outcome

/-!
# Compiling and registering a manifest

A component is described twice. When it is compiled, its descriptor lists the computed properties
that it inherits; when it is registered, its definition carries the members themselves. Both come
from a walk along the ancestry, but compilation walks up to the root type that the settings choose,
unless the manifest names one, and registration always to the root that the manifest has.

The two walks run together up to the first of the two roots. The types behind it, which only one of
them visits, are where a descriptor and a definition can disagree.

## Main definitions

* `CompiledComponent.Agrees` — descriptor and definition agree about a computed property

## Main statements

* `inheritedComputed_of_compileManifest` — what a descriptor says about computed properties
* `metadata_of_registerAll` — what a registered definition says about the type
* `agrees_of_registerAll` — where the two agree
* `configured_root_disagrees` — that they need not
-/
namespace TemplateCompiler

open scoped List

/-! ## Compiled components -/

/-- A compiled component has a descriptor of its type. -/
theorem exists_descriptor [Markup.Matching] {h : TypeHierarchy} {c : ComponentType} {template : Option String}
    {settings : Settings} {compiled : CompiledComponent}
    (compiles : compileComponent h c template settings = .ok compiled) :
    ∃ x, compiled.descriptor = Descriptor.make h c x := by
  simp only [compileComponent] at compiles
  cases template with
  | none =>
    obtain rfl := Except.ok.inj compiles
    exact ⟨_, rfl⟩
  | some text =>
    dsimp only at compiles
    obtain ⟨x, -, compiles⟩ := exists_of_bind_ok compiles
    obtain rfl := Except.ok.inj compiles
    exact ⟨x, rfl⟩

variable {m : Manifest} {settings : Settings} {readText : String → Except FileError String}

theorem exists_descriptor_of_compileDeclared [Markup.Matching] {c : ComponentType} {compiled : CompiledComponent}
    (compiles : compileDeclared m settings readText c = .ok compiled) :
    ∃ x, compiled.descriptor = Descriptor.make (m.hierarchyFor settings) c x := by
  -- a template that is there has to be read before it is compiled
  suffices made : ∃ template,
      compileComponent (m.hierarchyFor settings) c template settings = .ok compiled by
    obtain ⟨template, same⟩ := made
    exact exists_descriptor same
  simp only [compileDeclared] at compiles
  split at compiles
  · split at compiles
    · rename_i same
      obtain rfl := Except.ok.inj compiles
      exact ⟨none, same⟩
    · cases compiles
  · split at compiles
    · rename_i source _
      split at compiles
      · rename_i same
        obtain rfl := Except.ok.inj compiles
        exact ⟨some source, same⟩
      · cases compiles
    · cases compiles

/-- **A descriptor lists what a search up to the root of compilation finds.** -/
theorem inheritedComputed_of_compileManifest [Markup.Matching] {components : List CompiledComponent}
    (compiles : compileManifest m settings readText = .ok components) {c : CompiledComponent}
    (mem : c ∈ components) (property : String) :
    c.descriptor.inheritedComputed.get? property =
      (m.hierarchyFor settings).computedType? c.descriptor.typeName property := by
  obtain ⟨type, -, declared⟩ := exists_of_mem_mapM compiles mem
  obtain ⟨x, descriptor⟩ := exists_descriptor_of_compileDeclared declared
  rw [descriptor]
  exact TypeHierarchy.get?_inheritedComputed _ _ _

/-! ## Registered definitions -/

/-- A registration adds its definition and keeps the others. -/
theorem Registry.definition?_of_register? {r after : Registry} {d : ComponentDefinition}
    (registers : r.register? d = .ok after) (name : String) :
    after.definition? name = if name = d.typeName then some d else r.definition? name := by
  unfold register? at registers
  split at registers
  · cases registers
  · obtain rfl := Except.ok.inj registers
    rw [definition?, OrderedMap.get?_insert]
    split <;> rfl

/-- **What is registered for a type that was not registered before** carries the members that the
type inherits in the manifest. -/
theorem metadata_of_registerAll {components : List CompiledComponent} {r after : Registry}
    (registers : registerAll m components r = .ok after) {name : String}
    (new : r.definition? name = none) {d : ComponentDefinition}
    (registered : after.definition? name = some d) :
    m.hierarchy.resolved? name = some d.metadata := by
  suffices general : ∀ r, (∀ d, r.definition? name = some d →
      m.hierarchy.resolved? name = some d.metadata) → registerAll m components r = .ok after →
        m.hierarchy.resolved? name = some d.metadata by
    refine general r ?_ registers
    intro d known
    rw [new] at known
    cases known
  clear new registers
  unfold registerAll
  induction components with
  | nil =>
    intro r known done
    obtain rfl := Except.ok.inj done
    exact known d registered
  | cons c rest ih =>
    intro r known done
    rw [List.foldlM_cons] at done
    split at done
    · rename_i metadata resolves
      cases step : r.register? (c.definition metadata) with
      | error e => simp [step, bind, Except.bind] at done
      | ok next =>
        rw [step] at done
        refine ih next ?_ done
        intro e found
        rw [Registry.definition?_of_register? step] at found
        split at found
        · rename_i own
          obtain rfl := Option.some.inj found
          have named : metadata.name = c.descriptor.typeName :=
            TypeHierarchy.name_of_resolved? resolves
          have own : name = metadata.name := own
          rw [own, named, resolves]
          rfl
        · exact known e found
    · exact ih r known done

/-! ## Agreement -/

/-- The first getter of a property in the definition has the type that the descriptor lists for
it, and there is none if and only if the descriptor lists none. -/
def CompiledComponent.Agrees (c : CompiledComponent) (d : ComponentDefinition)
    (property : String) : Prop :=
  d.metadata.computedType? property = c.descriptor.inheritedComputed.get? property

/-- The type declares a getter of the property. -/
def ComponentType.Computes (c : ComponentType) (property : String) : Prop :=
  (c.computedType? property).isSome

/-- Searches along a list and along a longer one find the same unless only the longer one finds
anything. -/
theorem findSome?_eq_append_iff {α β : Type} (f : α → Option β) (shared rest : List α) :
    shared.findSome? f = (shared ++ rest).findSome? f ↔
      (∃ a ∈ shared, (f a).isSome) ∨ ∀ a ∈ rest, ¬ (f a).isSome := by
  rw [List.findSome?_append, ← List.findSome?_isSome_iff]
  cases shared.findSome? f with
  | some b => simp
  | none => simp [eq_comm (a := none)]

/-- **Descriptor and definition agree about all computed properties if compilation and
registration have the same root**: the manifest names it, or the settings choose the one that the
manifest has. Otherwise the two walks share a part and one of them goes on behind it, and they
agree about a property exactly if a type in the shared part declares a getter of it or none of the
others does. -/
theorem agrees_of_registerAll [Markup.Matching] {components : List CompiledComponent} {r after : Registry}
    (compiles : compileManifest m settings readText = .ok components)
    (registers : registerAll m components r = .ok after) {c : CompiledComponent}
    (mem : c ∈ components) (new : r.definition? c.descriptor.typeName = none)
    {d : ComponentDefinition} (registered : after.definition? c.descriptor.typeName = some d) :
    (m.rootType.isSome ∨ settings.rootType = m.hierarchy.root →
        ∀ property, c.Agrees d property) ∧
      ∃ shared rest : List ComponentType,
        ((m.hierarchy.ancestry c.descriptor.typeName = shared ∧
            (m.hierarchyFor settings).ancestry c.descriptor.typeName = shared ++ rest) ∨
          ((m.hierarchyFor settings).ancestry c.descriptor.typeName = shared ∧
            m.hierarchy.ancestry c.descriptor.typeName = shared ++ rest)) ∧
        ∀ property, c.Agrees d property ↔
          (∃ type ∈ shared, type.Computes property) ∨ ∀ type ∈ rest, ¬ type.Computes property := by
  have resolves := metadata_of_registerAll registers new registered
  have agrees (property : String) : c.Agrees d property ↔
      m.hierarchy.computedType? c.descriptor.typeName property =
        (m.hierarchyFor settings).computedType? c.descriptor.typeName property := by
    rw [CompiledComponent.Agrees, inheritedComputed_of_compileManifest compiles mem,
      TypeHierarchy.computedType?_resolved resolves]
  generalize c.descriptor.typeName = name at agrees ⊢
  simp only [agrees, TypeHierarchy.computedType?]
  constructor
  · intro same property
    have hierarchies : m.hierarchyFor settings = m.hierarchy := by
      unfold Manifest.hierarchyFor
      cases root : m.rootType with
      | some _ => rfl
      | none =>
        rw [root] at same
        simp [TypeHierarchy.setRoot, same.resolve_left (by simp)]
    rw [hierarchies]
  · have walks : m.hierarchy.ancestry name <+: (m.hierarchyFor settings).ancestry name ∨
        (m.hierarchyFor settings).ancestry name <+: m.hierarchy.ancestry name := by
      unfold Manifest.hierarchyFor
      split
      · exact .inl (List.prefix_refl _)
      · exact m.hierarchy.ancestry_setRoot settings.rootType name
    rcases walks with ⟨rest, whole⟩ | ⟨rest, whole⟩
    · refine ⟨_, rest, .inl ⟨rfl, whole.symm⟩, fun property => ?_⟩
      rw [← whole]
      exact findSome?_eq_append_iff _ _ _
    · refine ⟨_, rest, .inr ⟨rfl, whole.symm⟩, fun property => ?_⟩
      rw [← whole, eq_comm]
      exact findSome?_eq_append_iff _ _ _

/-! ## A type and its superclass -/

/-- `Child` extends `Base`, which has a getter of `x`. The document names no root type. -/
def baseAndChild : Manifest where
  hierarchy := ⟨[{ name := "Base", computed := [⟨"x", none, "int", .getter⟩] },
    { name := "Child", superclass := some "Base" }], defaultRootType, by decide⟩
  rootType := none
  basePath := none

/-- With the default settings the descriptor of `Child` lists `x`, as its definition does. -/
theorem inherited_getter_agrees :
    ∃ components after c d,
      compileManifest baseAndChild {} (fun _ => .error .notFound) = .ok components ∧
        registerAll baseAndChild components {} = .ok after ∧ c ∈ components ∧
        c.descriptor.typeName = "Child" ∧ after.definition? c.descriptor.typeName = some d ∧
        d.metadata.computedType? "x" = some "int" ∧ ∀ property, c.Agrees d property := by
  have compiles :
      compileManifest baseAndChild {} (fun _ => .error .notFound) = .ok [_, _] := rfl
  refine ⟨_, _, _, _, compiles, rfl, List.mem_cons_of_mem _ List.mem_cons_self, rfl, rfl,
    by decide, ?_⟩
  have agree := agrees_of_registerAll (r := {}) compiles rfl
    (List.mem_cons_of_mem _ List.mem_cons_self) rfl rfl
  exact agree.1 (.inr rfl)

/-- **A root type in the settings separates them.** If it is `Base`, then the descriptor of `Child`
does not list `x`, but the definition that is registered has the getter. -/
theorem configured_root_disagrees :
    ∃ components after c d,
      compileManifest baseAndChild { rootType := "Base" } (fun _ => .error .notFound) =
          .ok components ∧
        registerAll baseAndChild components {} = .ok after ∧ c ∈ components ∧
        after.definition? c.descriptor.typeName = some d ∧
        c.descriptor.inheritedComputed.get? "x" = none ∧
        d.metadata.computedType? "x" = some "int" :=
  ⟨_, _, _, _, rfl, rfl, List.mem_cons_of_mem _ List.mem_cons_self, rfl, by decide, by decide⟩

end TemplateCompiler
