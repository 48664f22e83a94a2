import TemplateCompiler.Proofs.Assembly.Finalisation
import TemplateCompiler.Proofs.Json.Copying
import TemplateCompiler.Proofs.Registry.Runs

/-!
# What assembly needs

Assembly goes through a definition in stages and stops at the first thing that is missing. What can
be missing is a list that can be written down from the definition, the instance and the registry
alone. Assembly succeeds if the list is empty, and otherwise its error is the head of the list.

Only the nested components change the registry when they are looked up, and they come after all
that the instance has to offer.

## Main definitions

* `Assembly.Numbered` — how many expressions and collections a template numbers without a gap
* `Assembly.obstacles` — all that is missing, in the order in which assembly asks for it
* `Assembly.Supplied` — nothing is missing
* `Assembly.Yields` — an outcome against a list of failures

## Main statements

* `Assembly.obstacles_eq_nil_iff` — the list is empty if nothing is missing
* `Assembly.yields_memberOptions` — the stages before the registry
* `Assembly.assembles_iff_supplied` — the whole of assembly
-/
namespace TemplateCompiler.Assembly

open Placeholder

/-! ## What is needed -/

/-- The first number without a collection of its name. -/
def IsCollectionGap (t : CompiledTemplate) (m : Nat) : Prop :=
  (∀ k < m, collectionId k ∈ t.methods.keys) ∧ collectionId m ∉ t.methods.keys

/-- The template has `n` expressions and `m` collections before the first gaps in their numbers. A
template without text has none. -/
def Numbered (d : ComponentDefinition) (n m : Nat) : Prop :=
  match d.template with
  | none => n = 0 ∧ m = 0
  | some t => if t.text = "" then n = 0 ∧ m = 0 else IsGap t n ∧ IsCollectionGap t m

/-- A prop is declared under the name. -/
def Declares (d : ComponentDefinition) (prop : String) : Prop :=
  ∃ p ∈ d.metadata.props, p.name = prop

instance (d : ComponentDefinition) (prop : String) : Decidable (Declares d prop) :=
  inferInstanceAs (Decidable (∃ p ∈ d.metadata.props, p.name = prop))

/-- Everything that assembly needs is there, where the template has `n` expressions and `m`
collections. -/
structure Supplied (d : ComponentDefinition) (i : Instance) (r : Registry) (n m : Nat) : Prop where
  /-- The sources of the expressions have the shape of accessors. -/
  expressions : ∀ t, d.template = some t → ∀ k < n, ∀ source,
    t.methods.get? (expressionId k) = some source → (Accessor.expression? source).isSome
  collections : ∀ k < m, (i.method (collectionId k)).isSome
  /-- Where it is to be copied, the data object does not nest too many containers. -/
  data : d.metadata.useFactory →
    (Json.Value.object (dataObject d i ((List.range m).map collectionId)).entries).depth < copyDepth
  methods : ∀ declaration ∈ d.metadata.methods, (i.method declaration.name).isSome
  computed : ∀ c ∈ d.metadata.computed, (i.method c.methodName).isSome
  watch : ∀ w ∈ d.metadata.watch, (i.method w.method).isSome
  validators : ∀ v ∈ d.metadata.validators, (i.method v.method).isSome ∧ Declares d v.prop
  hooks : ∀ hook ∈ d.metadata.hooks, (i.method hook).isSome
  /-- The nested components can be looked up one after the other. -/
  components : (Registry.getEach Registry.get r d.dependencies).1 = .ok ()
  directives : ∀ name ∈ d.metadata.directives, (r.directives.get? name).isSome

/-! ## What is missing -/

/-- The failure if something does not hold. -/
def demand {ε : Type} (holds : Prop) [Decidable holds] (failure : ε) : List ε :=
  if holds then [] else [failure]

@[simp] theorem demand_eq_nil_iff {ε : Type} {holds : Prop} [Decidable holds] {failure : ε} :
    demand holds failure = [] ↔ holds := by
  simp [demand]

/-- The failure of an expression whose accessor cannot be read. -/
def unreadable (t : CompiledTemplate) (k : Nat) : List AssembleError :=
  (t.methods.get? (expressionId k)).elim [] fun source =>
    demand (Accessor.expression? source).isSome (.malformedExpression (expressionId k) source)

/-- The failure of a member that the instance does not implement. -/
def unimplemented (d : ComponentDefinition) (i : Instance) (name : String) : List AssembleError :=
  demand (i.method name).isSome (.missingMember d.typeName name)

/-- The failure of a data object that cannot be copied. -/
def uncopied (d : ComponentDefinition) (i : Instance) (m : Nat) : List AssembleError :=
  if d.metadata.useFactory then
    ((Json.copyColumn? (dataObject d i ((List.range m).map collectionId))).map
      AssembleError.dataCopy).toList
  else []

/-- The failures of a validator. -/
def unfit (d : ComponentDefinition) (i : Instance) (v : ValidatorDeclaration) :
    List AssembleError :=
  unimplemented d i v.method ++ demand (Declares d v.prop) (.unknownProp d.typeName v.prop)

/-- What is missing before the registry is asked. -/
def shortcomings (d : ComponentDefinition) (i : Instance) (n m : Nat) : List AssembleError :=
  (d.template.elim [] fun t => (List.range n).flatMap (unreadable t)) ++
    (((List.range m).map collectionId).flatMap (unimplemented d i) ++
      (uncopied d i m ++
        ((d.metadata.methods.map MethodDeclaration.name).flatMap (unimplemented d i) ++
          (d.metadata.computed.flatMap (fun c => unimplemented d i c.methodName) ++
            (d.metadata.watch.flatMap (fun w => unimplemented d i w.method) ++
              (d.metadata.validators.flatMap (unfit d i) ++
                d.metadata.hooks.flatMap (unimplemented d i)))))))

/-- The failure of the first nested component that cannot be looked up. -/
def unresolved (d : ComponentDefinition) (r : Registry) : List AssembleError :=
  match (Registry.getEach Registry.get r d.dependencies).1 with
  | .ok () => []
  | .error e => [.lookup e]

/-- The failure of a directive that is not registered. -/
def unregistered (r : Registry) (name : String) : List RegistryError :=
  demand (r.directives.get? name).isSome (.directiveNotRegistered name)

/-- All that is missing, in the order in which assembly asks for it. -/
def obstacles (d : ComponentDefinition) (i : Instance) (r : Registry) (n m : Nat) :
    List AssembleError :=
  shortcomings d i n m ++
    (unresolved d r ++ (d.metadata.directives.flatMap (unregistered r)).map .lookup)

section Nothing

variable {d : ComponentDefinition} {i : Instance} {r : Registry} {n m : Nat}

@[simp] theorem unreadable_eq_nil_iff {t : CompiledTemplate} {k : Nat} :
    unreadable t k = [] ↔ ∀ source, t.methods.get? (expressionId k) = some source →
      (Accessor.expression? source).isSome := by
  unfold unreadable
  cases t.methods.get? (expressionId k) with
  | none => simp
  | some source => simp [demand_eq_nil_iff]

@[simp] theorem unimplemented_eq_nil_iff {name : String} :
    unimplemented d i name = [] ↔ (i.method name).isSome :=
  demand_eq_nil_iff

@[simp] theorem uncopied_eq_nil_iff :
    uncopied d i m = [] ↔ (d.metadata.useFactory →
      (Json.Value.object (dataObject d i ((List.range m).map collectionId)).entries).depth <
        copyDepth) := by
  rw [← Json.copyColumn?_eq_none_iff, uncopied]
  split
  · next factory => simp [factory]
  · next shared => simp [shared]

@[simp] theorem unfit_eq_nil_iff {v : ValidatorDeclaration} :
    unfit d i v = [] ↔ (i.method v.method).isSome ∧ Declares d v.prop := by
  simp [unfit]

@[simp] theorem unresolved_eq_nil_iff :
    unresolved d r = [] ↔ (Registry.getEach Registry.get r d.dependencies).1 = .ok () := by
  rw [unresolved]
  split
  · next resolved => simp [resolved]
  · next e blamed => simp [blamed]

@[simp] theorem unregistered_eq_nil_iff {name : String} :
    unregistered r name = [] ↔ (r.directives.get? name).isSome :=
  demand_eq_nil_iff

/-- **Nothing stands in the way if everything is there.** -/
theorem obstacles_eq_nil_iff : obstacles d i r n m = [] ↔ Supplied d i r n m := by
  simp only [obstacles, shortcomings, List.append_eq_nil_iff, List.flatMap_eq_nil_iff,
    List.map_eq_nil_iff, List.forall_mem_map, List.mem_range, unimplemented_eq_nil_iff,
    uncopied_eq_nil_iff, unfit_eq_nil_iff, unresolved_eq_nil_iff, unregistered_eq_nil_iff]
  constructor
  · rintro ⟨⟨expressions, collections, data, methods, computed, watch, validators, hooks⟩,
      components, directives⟩
    refine ⟨?_, collections, data, methods, computed, watch, validators, hooks, components,
      directives⟩
    intro t has k lt
    rw [has] at expressions
    exact unreadable_eq_nil_iff.mp
      (List.flatMap_eq_nil_iff.mp expressions k (List.mem_range.mpr lt))
  · intro supplied
    refine ⟨⟨?_, supplied.collections, supplied.data, supplied.methods, supplied.computed,
      supplied.watch, supplied.validators, supplied.hooks⟩, supplied.components,
      supplied.directives⟩
    cases has : d.template with
    | none => rfl
    | some t =>
      refine List.flatMap_eq_nil_iff.mpr fun k mem => unreadable_eq_nil_iff.mpr ?_
      exact supplied.expressions t has k (List.mem_range.mp mem)

end Nothing

/-! ## Outcomes -/

/-- The outcome is a value with a property if there are no failures, and the first of the failures
otherwise. -/
def Yields {ε α : Type} (failures : List ε) (P : α → Prop) : Except ε α → Prop
  | .ok value => failures = [] ∧ P value
  | .error e => failures.head? = some e

section Yields

variable {ε α β : Type} {failures more : List ε} {P : α → Prop} {Q : β → Prop}

/-- There is a value exactly if there are no failures. -/
theorem Yields.ok_iff {outcome : Except ε α} (h : Yields failures P outcome) :
    (∃ value, outcome = .ok value) ↔ failures = [] := by
  cases outcome with
  | ok value => exact iff_of_true ⟨value, rfl⟩ h.1
  | error e =>
    refine iff_of_false nofun fun nothing => ?_
    rw [Yields, nothing] at h
    cases h

/-- The first of the failures is the error. -/
theorem Yields.error_iff {outcome : Except ε α} (h : Yields failures P outcome) {e : ε} :
    outcome = .error e ↔ failures.head? = some e := by
  cases outcome with
  | ok value => exact iff_of_false nofun (by simp [h.1])
  | error other =>
    rw [Yields] at h
    rw [h, Option.some.injEq, Except.error.injEq]

/-- A value that is there already. -/
theorem yields_pure {value : α} (holds : P value) : Yields [] P (pure value : Except ε α) :=
  ⟨rfl, holds⟩

/-- What comes behind a failure does not matter. -/
theorem Yields.append_of_error {e : ε} (h : Yields failures P (.error e)) :
    Yields (failures ++ more) Q (.error e) := by
  obtain ⟨rest, rfl⟩ := List.head?_eq_some_iff.mp h
  rfl

/-- Failures of a step come before those of the steps that go on with what it leaves. -/
theorem Yields.bind {first : Except ε α} {next : α → Except ε β} (h : Yields failures P first)
    (h' : ∀ value, P value → Yields more Q (next value)) :
    Yields (failures ++ more) Q (first >>= next) := by
  cases first with
  | error e => exact h.append_of_error
  | ok value =>
    obtain ⟨none, holds⟩ := h
    rw [none]
    exact h' value holds

/-- A step that only puts what it has found away. -/
theorem Yields.bind_pure {first : Except ε α} {next : α → β} (h : Yields failures P first)
    (holds : ∀ value, P value → Q (next value)) :
    Yields failures Q (first >>= fun value => pure (next value)) := by
  have both : Yields (failures ++ []) Q (first >>= fun value => pure (next value)) :=
    h.bind fun value before => yields_pure (holds value before)
  rwa [List.append_nil] at both

/-- Steps that keep a property of the state, one for each of the values. -/
theorem yields_foldlM {step : β → α → Except ε β} {each : α → List ε} {values : List α}
    (h : ∀ state, ∀ value ∈ values, Q state → Yields (each value) Q (step state value))
    {state : β} (holds : Q state) :
    Yields (values.flatMap each) Q (values.foldlM step state) := by
  induction values generalizing state with
  | nil => exact yields_pure holds
  | cons value rest ih =>
    rw [List.foldlM_cons, List.flatMap_cons]
    refine (h state value List.mem_cons_self holds).bind fun after kept => ?_
    exact ih (fun state other mem => h state other (List.mem_cons_of_mem value mem)) kept

/-- Steps that do not depend on each other, one for each of the values. -/
theorem yields_mapM {f : α → Except ε β} {each : α → List ε} {values : List α}
    (h : ∀ value ∈ values, Yields (each value) (fun _ => True) (f value)) :
    Yields (values.flatMap each) (fun _ => True) (values.mapM f) := by
  induction values with
  | nil => exact yields_pure trivial
  | cons value rest ih =>
    rw [List.mapM_cons, List.flatMap_cons]
    refine (h value List.mem_cons_self).bind fun first _ => ?_
    refine (ih fun other mem => h other (List.mem_cons_of_mem value mem)).bind_pure ?_
    exact fun _ _ => trivial

end Yields

/-! ## The stages before the registry -/

section Stages

variable (d : ComponentDefinition) (i : Instance) {n m : Nat}

theorem yields_recover {t : CompiledTemplate} {k : Nat} (known : expressionId k ∈ t.methods.keys) :
    Yields (unreadable t k) (fun _ => True) (recover t (expressionId k)) := by
  obtain ⟨source, here⟩ := Option.isSome_iff_exists.mp (OrderedMap.mem_keys_iff.mp known)
  simp only [recover, unreadable, demand, here, Option.getD_some, Option.elim_some]
  cases Accessor.expression? source with
  | none => rfl
  | some e => exact ⟨rfl, trivial⟩

/-- The template blames the first of its accessors that cannot be read. -/
theorem yields_templateOptions (numbered : Numbered d n m) :
    Yields (d.template.elim [] fun t => (List.range n).flatMap (unreadable t))
      (fun found => found.2 = (List.range m).map collectionId) (templateOptions d) := by
  rw [Numbered] at numbered
  rw [templateOptions]
  cases has : d.template with
  | none =>
    rw [has] at numbered
    obtain ⟨rfl, rfl⟩ := numbered
    exact ⟨rfl, rfl⟩
  | some t =>
    rw [has] at numbered
    dsimp only [Option.elim_some] at numbered ⊢
    split at numbered
    · next blank =>
      obtain ⟨rfl, rfl⟩ := numbered
      have empty : t.isEmpty = true := beq_iff_eq.mpr blank
      rw [if_pos empty]
      exact ⟨rfl, rfl⟩
    · next text =>
      obtain ⟨gap, collectionGap⟩ := numbered
      have nonempty : t.isEmpty = false := beq_false_of_ne text
      have collections : collectionIds t = (List.range m).map collectionId :=
        sequentialIds_eq collectionGap.1 collectionGap.2
      rw [if_neg (Bool.eq_false_iff.mp nonempty), expressionIds_eq gap, List.mapM_map]
      have recovered := yields_mapM (f := fun k => recover t (expressionId k))
        fun k mem => yields_recover (gap.1 k (List.mem_range.mp mem))
      exact recovered.bind_pure fun _ _ => collections

theorem yields_member (name : String) :
    Yields (unimplemented d i name) (fun _ => True) (member d i name) := by
  rw [member, unimplemented, demand]
  cases i.method name with
  | none => rfl
  | some callable => exact ⟨rfl, trivial⟩

theorem yields_bindMembers (bound : OrderedMap Callable) (names : List String) :
    Yields (names.flatMap (unimplemented d i)) (fun _ => True) (bindMembers d i bound names) := by
  refine yields_foldlM ?_ trivial
  intro map name _ _
  exact (yields_member d i name).bind_pure fun _ _ => trivial

theorem yields_bindComputed (bound : OrderedMap ComputedOption) (c : ComputedDeclaration) :
    Yields (unimplemented d i c.methodName) (fun _ => True) (bindComputed d i bound c) :=
  (yields_member d i c.methodName).bind_pure fun _ _ => trivial

theorem yields_bindWatch (bound : OrderedMap WatchOption) (w : WatchDeclaration) :
    Yields (unimplemented d i w.method) (fun _ => True) (bindWatch d i bound w) :=
  (yields_member d i w.method).bind_pure fun _ _ => trivial

theorem yields_componentData :
    Yields (uncopied d i m) (fun _ => True)
      (componentData d i ((List.range m).map collectionId)) := by
  rw [componentData, uncopied]
  split
  · rw [Json.copyData_eq]
    cases Json.copyColumn? (dataObject d i ((List.range m).map collectionId)) with
    | none => exact ⟨rfl, trivial⟩
    | some column => rfl
  · exact ⟨rfl, trivial⟩

/-- The bound props are the declared ones. -/
def Binds (d : ComponentDefinition) (props : OrderedMap PropOption) : Prop :=
  ∀ name, (props.get? name).isSome ↔ Declares d name

/-- A validator is bound to a declared prop, and the names of the props stay. -/
theorem yields_bindValidator {props : OrderedMap PropOption} (binds : Binds d props)
    (v : ValidatorDeclaration) :
    Yields (unfit d i v) (Binds d) (bindValidator d i props v) := by
  refine (yields_member d i v.method).bind fun callable _ => ?_
  have known := binds v.prop
  cases found : props.get? v.prop with
  | none =>
    rw [found] at known
    rw [demand, if_neg fun declares => Bool.false_ne_true (known.mpr declares)]
    rfl
  | some prop =>
    rw [found] at known
    rw [demand, if_pos (known.mp rfl)]
    refine ⟨rfl, fun name => ?_⟩
    rw [OrderedMap.get?_insert]
    split
    · next same =>
      rw [same]
      exact known
    · exact binds name

theorem binds_declaredProps : Binds d (declaredProps d i) := by
  intro name
  have behind (props : List PropDeclaration) (map : OrderedMap PropOption) :
      ((props.foldl (fun map (p : PropDeclaration) => map.insert p.name
        ⟨p.required, i.property p.name, p.typeName.map PropType.ofTypeName, none⟩) map).get?
          name).isSome ↔ (∃ p ∈ props, p.name = name) ∨ (map.get? name).isSome := by
    induction props generalizing map with
    | nil => simp
    | cons p rest ih =>
      simp only [List.foldl_cons, ih, OrderedMap.get?_insert, List.mem_cons, exists_eq_or_imp]
      split
      · next same => simp [same]
      · next other => simp [Ne.symm other]
  rw [declaredProps, behind, Declares]
  simp

/-- **The stages before the registry** blame the first shortcoming. -/
theorem yields_memberOptions (numbered : Numbered d n m) :
    Yields (shortcomings d i n m) (fun _ => True) (memberOptions d i) := by
  refine (yields_templateOptions d numbered).bind ?_
  rintro ⟨template, collections⟩ rfl
  refine (yields_bindMembers d i _ _).bind fun slots _ => ?_
  refine (yields_componentData d i).bind fun data _ => ?_
  refine (yields_bindMembers d i _ _).bind fun methods _ => ?_
  refine (yields_foldlM (Q := fun _ => True) ?_ trivial).bind fun computed _ => ?_
  · exact fun bound c _ _ => yields_bindComputed d i bound c
  refine (yields_foldlM (Q := fun _ => True) ?_ trivial).bind fun watch _ => ?_
  · exact fun bound w _ _ => yields_bindWatch d i bound w
  refine (yields_foldlM (Q := Binds d) ?_ (binds_declaredProps d i)).bind fun props _ => ?_
  · exact fun props v _ binds => yields_bindValidator d i binds v
  exact (yields_bindMembers d i _ _).bind_pure fun _ _ => trivial

end Stages

/-! ## The stages with the registry -/

section Lookups

variable {r after : Registry}

/-- Nested components are looked up one after the other, up to the first failure. -/
theorem nestedComponents_eq (r : Registry) (bound : OrderedMap ComponentDefinition)
    (names : List String) :
    Registry.getEach Registry.get r names =
      ((nestedComponents r bound names).1.map fun _ => (), (nestedComponents r bound names).2) := by
  induction names generalizing r bound with
  | nil => rfl
  | cons name rest ih =>
    rw [Registry.getEach, nestedComponents]
    generalize r.get name = outcome
    obtain ⟨answer, after⟩ := outcome
    cases answer with
    | error e => rfl
    | ok nested => exact ih after _

/-- Directives are looked up among those of a registry, also after other lookups in it. -/
theorem yields_directives (same : after.directives = r.directives) (names : List String) :
    Yields (names.flatMap (unregistered r)) (fun _ => True) (directives after names) := by
  refine yields_foldlM ?_ trivial
  intro map name _ _
  refine Yields.bind_pure (P := fun _ => True) ?_ fun _ _ => trivial
  rw [Registry.getDirective, unregistered, demand, same]
  cases r.directives.get? name with
  | none => rfl
  | some directive => exact ⟨rfl, trivial⟩

/-- **All of assembly** blames the first obstacle. -/
theorem yields_assemble {d : ComponentDefinition} (i : Instance) {n m : Nat} (rest : r.AtRest)
    (numbered : Numbered d n m) :
    Yields (obstacles d i r n m) (fun _ => True) (assemble d i r).1 := by
  have members := yields_memberOptions d i numbered
  rw [assemble, obstacles]
  generalize memberOptions d i = bound at members
  cases bound with
  | error e => exact members.append_of_error
  | ok options =>
    obtain ⟨nothing, -⟩ := members
    rw [nothing, List.nil_append, unresolved, nestedComponents_eq r .empty d.dependencies]
    obtain ⟨fresh, adv⟩ := Registry.exists_advance_nestedComponents rest .empty d.dependencies
    generalize nestedComponents r .empty d.dependencies = outcome at adv
    obtain ⟨answer, after⟩ := outcome
    cases answer with
    | error e => rfl
    | ok components =>
      have found := yields_directives adv.directives d.metadata.directives
      change Yields ((d.metadata.directives.flatMap (unregistered r)).map AssembleError.lookup) _ _
      dsimp only
      generalize directives after d.metadata.directives = bound at found
      cases bound with
      | error e =>
        obtain ⟨others, blamed⟩ := List.head?_eq_some_iff.mp found
        rw [blamed]
        rfl
      | ok directives =>
        obtain ⟨nothing, -⟩ := found
        rw [nothing]
        exact ⟨rfl, trivial⟩

/-- Where something is missing that the instance or the definition has to have, assembly does not
come to the registry. -/
theorem registry_assemble {d : ComponentDefinition} (i : Instance) {n m : Nat}
    (numbered : Numbered d n m) :
    (assemble d i r).2 =
      if shortcomings d i n m = [] then (Registry.getEach Registry.get r d.dependencies).2
      else r := by
  have members := yields_memberOptions d i numbered
  rw [assemble, nestedComponents_eq r .empty d.dependencies]
  generalize memberOptions d i = bound at members
  cases bound with
  | error e =>
    obtain ⟨others, blamed⟩ := List.head?_eq_some_iff.mp members
    rw [blamed, if_neg (List.cons_ne_nil e others)]
  | ok options =>
    rw [if_pos members.1]
    generalize nestedComponents r .empty d.dependencies = outcome
    obtain ⟨answer, after⟩ := outcome
    cases answer with
    | error e => rfl
    | ok components =>
      dsimp only
      split <;> rfl

end Lookups

/-! ## The whole -/

/-- Every template has its numbers. -/
theorem exists_numbered (d : ComponentDefinition) : ∃ n m, Numbered d n m := by
  unfold Numbered
  split
  · exact ⟨0, 0, rfl, rfl⟩
  · next t _ =>
    split
    · exact ⟨0, 0, rfl, rfl⟩
    · obtain ⟨n, gap⟩ := exists_isGap t
      obtain ⟨m, collectionGap⟩ := exists_gap collectionLead t.methods.keys
      exact ⟨n, m, gap, collectionGap⟩

/-- A template has one such pair of numbers only. -/
theorem Numbered.unique {d : ComponentDefinition} {n m n' m' : Nat} (h : Numbered d n m)
    (h' : Numbered d n' m') : n = n' ∧ m = m' := by
  unfold Numbered at h h'
  split at h
  · next has =>
    simp only [has] at h'
    exact ⟨h.1.trans h'.1.symm, h.2.trans h'.2.symm⟩
  · next t has =>
    simp only [has] at h'
    split at h
    · next blank =>
      rw [if_pos blank] at h'
      exact ⟨h.1.trans h'.1.symm, h.2.trans h'.2.symm⟩
    · next text =>
      rw [if_neg text] at h'
      exact ⟨h.1.unique h'.1, gap_unique h.2.1 h.2.2 h'.2.1 h'.2.2⟩

/-- **Assembly succeeds if and only if everything that it needs is there.** Otherwise its error is
that of the first thing that is missing, in the order of the stages and within a stage in the order
of the declarations. Where that is not a nested component or a directive, the registry is as it was
before; otherwise the nested components have been looked up in it, up to the first failure. -/
theorem assembles_iff_supplied (d : ComponentDefinition) (i : Instance) {r : Registry}
    (rest : r.AtRest) :
    ∃ n m, Numbered d n m ∧
      ((∃ options, (assemble d i r).1 = .ok options) ↔ Supplied d i r n m) ∧
      (∀ e, (assemble d i r).1 = .error e ↔ (obstacles d i r n m).head? = some e) ∧
      (shortcomings d i n m ≠ [] → (assemble d i r).2 = r) ∧
      (shortcomings d i n m = [] →
        (assemble d i r).2 = (Registry.getEach Registry.get r d.dependencies).2) := by
  obtain ⟨n, m, numbered⟩ := exists_numbered d
  have outcome := yields_assemble i rest numbered
  have registry := registry_assemble i (r := r) numbered
  refine ⟨n, m, numbered, ?_, fun e => outcome.error_iff, ?_, ?_⟩
  · rw [← obstacles_eq_nil_iff]
    exact outcome.ok_iff
  · intro something
    rw [registry, if_neg something]
  · intro nothing
    rw [registry, if_pos nothing]

/-- A component with a bit of everything, the validator of a prop among it. -/
def listing (props : List PropDeclaration) : ComponentDefinition where
  typeName := "List"
  metadata :=
    { (default : ComponentType) with
      name := "List", useFactory := true, components := ["Item"], directives := ["focus"],
      hooks := ["created"], data := [⟨"todos", "List"⟩], props,
      validators := [⟨"check", "title"⟩] }
  template := some
    { name := "List"
      text := "<li v-for=\"t in col$0Array\" :title=\"exp$0\"></li>"
      methods := .ofList [("exp$0", "function(t) \x7b return t; \x7d"),
        ("col$0", "function() \x7b return todos; \x7d")]
      expressions := []
      styles := .empty }

/-- The greatest double. -/
def greatestDouble : Json.Double := ⟨false, Json.Magnitude.infinity - 1, by decide⟩

/-- An instance of it that implements the hooks with the given names. -/
def listed (hooks : List String) : Instance :=
  .ofMaps (.ofList [("todos", .array [.number (.integer 7), .number (.float greatestDouble)])])
    (.ofList (("col$0", .const .null) :: ("check", .const .null) ::
      hooks.map fun hook => (hook, .const .null)))

/-- A registry in which everything is registered that the component looks up. -/
def stocked : Registry :=
  { Registry.ofDefinitions [.of { (default : ComponentType) with name := "Item" } none] with
    directives := .ofList [("focus", ⟨"focus", .empty⟩)] }

/-- The component is assembled if its prop is declared. If it is not then it is blamed, and not the
hook that is missing later on. -/
theorem listing_assembles :
    (∃ options, (assemble (listing [⟨"title", none, true⟩]) (listed ["created"]) stocked).1 =
      .ok options) ∧
    (assemble (listing []) (listed []) stocked).1 = .error (.unknownProp "List" "title") ∧
      (assemble (listing []) (listed []) stocked).2 = stocked := by
  have rest : stocked.AtRest := Registry.atRest_ofDefinitions _
  have one (props : List PropDeclaration) : Numbered (listing props) 1 1 := by
    unfold Numbered
    exact ⟨by unfold IsGap; decide, by unfold IsCollectionGap; decide⟩
  constructor
  · obtain ⟨n, m, numbered, succeeds, -⟩ := assembles_iff_supplied
      (listing [⟨"title", none, true⟩]) (listed ["created"]) rest
    obtain ⟨rfl, rfl⟩ := numbered.unique (one _)
    rw [succeeds, ← obstacles_eq_nil_iff]
    decide +kernel
  · obtain ⟨n, m, numbered, -, blames, untouched, -⟩ := assembles_iff_supplied (listing [])
      (listed []) rest
    obtain ⟨rfl, rfl⟩ := numbered.unique (one _)
    have missing : shortcomings (listing []) (listed []) 1 1 =
        [.unknownProp "List" "title", .missingMember "List" "created"] := by
      decide +kernel
    refine ⟨(blames _).mpr ?_, untouched ?_⟩
    · rw [obstacles, missing]
      rfl
    · rw [missing]
      exact List.cons_ne_nil _ _

end TemplateCompiler.Assembly
