import TemplateCompiler.Assembly.Assemble
import TemplateCompiler.Proofs.Outcome

/-!
# Stages of assembly

Options are assembled stage by stage, and the first stage that fails ends it. So options that come
out are what every stage has left behind.

## Main definitions

* `Assembly.Stages` — what the stages have left behind

## Main statements

* `Assembly.assemble_eq_ok_iff` — assembly succeeds if all of its stages do
* `Assembly.get?_bindMembers` — which methods a stage binds
* `Assembly.Stages.get?_methods` — the methods of a component without a template
-/
namespace TemplateCompiler.Assembly

variable {d : ComponentDefinition} {i : Instance} {r : Registry} {options : ComponentOptions}

/-- The options are what the stages of assembly have left behind. -/
structure Stages (d : ComponentDefinition) (i : Instance) (r : Registry)
    (options : ComponentOptions) : Prop where
  el : options.el = none
  template : templateOptions d = .ok (options.template, options.collections)
  data : componentData d i options.collections = .ok options.data
  /-- The methods of the collections are bound first. -/
  methods : ∃ slots, bindMembers d i .empty options.collections = .ok slots ∧
    bindMembers d i slots (d.metadata.methods.map MethodDeclaration.name) = .ok options.methods
  computed : d.metadata.computed.foldlM (bindComputed d i) .empty = .ok options.computed
  watch : d.metadata.watch.foldlM (bindWatch d i) .empty = .ok options.watch
  props : d.metadata.validators.foldlM (bindValidator d i) (declaredProps d i) = .ok options.props
  hooks : bindMembers d i .empty d.metadata.hooks = .ok options.hooks
  components : (nestedComponents r .empty d.dependencies).1 = .ok options.components
  /-- The registry is the one that the lookups of nested components leave. -/
  directives : directives (nestedComponents r .empty d.dependencies).2 d.metadata.directives =
    .ok options.directives

/-- **Assembly succeeds with the options that its stages leave behind.** -/
theorem assemble_eq_ok_iff : (assemble d i r).1 = .ok options ↔ Stages d i r options := by
  constructor
  · intro ok
    rw [assemble] at ok
    split at ok
    · cases ok
    · next members found =>
      rw [memberOptions] at found
      obtain ⟨⟨template, collections⟩, resolved, found⟩ := exists_of_bind_ok found
      obtain ⟨slots, bound, found⟩ := exists_of_bind_ok found
      obtain ⟨data, made, found⟩ := exists_of_bind_ok found
      obtain ⟨methods, declared, found⟩ := exists_of_bind_ok found
      obtain ⟨computed, computes, found⟩ := exists_of_bind_ok found
      obtain ⟨watch, watches, found⟩ := exists_of_bind_ok found
      obtain ⟨props, validates, found⟩ := exists_of_bind_ok found
      obtain ⟨hooks, hooked, found⟩ := exists_of_bind_ok found
      obtain rfl := Except.ok.inj found
      split at ok
      · cases ok
      · next components after nested =>
        split at ok
        · cases ok
        · next directives known =>
          obtain rfl := Except.ok.inj ok
          exact ⟨rfl, resolved, made, ⟨slots, bound, declared⟩, computes, watches, validates,
            hooked, by rw [nested], by rwa [nested]⟩
  · intro stages
    obtain ⟨slots, bound, declared⟩ := stages.methods
    have members : memberOptions d i =
        .ok { options with components := .empty, directives := .empty } := by
      rw [memberOptions, stages.template]
      simp only [bind, Except.bind, bound, stages.data, declared, stages.computed, stages.watch,
        stages.props, stages.hooks, pure, Except.pure, ← stages.el]
    have components := stages.components
    have known := stages.directives
    rw [assemble, members]
    generalize nestedComponents r .empty d.dependencies = outcome at components known ⊢
    obtain ⟨nested, after⟩ := outcome
    obtain rfl := components
    dsimp only at known ⊢
    rw [known]

theorem member_eq_ok_iff {name : String} {callable : Callable} :
    member d i name = .ok callable ↔ i.method name = some callable := by
  rw [member]
  cases i.method name <;> simp

/-- **Members are bound to the instance's methods of their names**, and all of them are there. -/
theorem get?_bindMembers {bound map : OrderedMap Callable} {names : List String}
    (ok : bindMembers d i bound names = .ok map) (name : String) :
    map.get? name = (if name ∈ names then i.method name else bound.get? name) ∧
      (name ∈ names → (i.method name).isSome) := by
  induction names generalizing bound with
  | nil =>
    obtain rfl := Except.ok.inj ok
    simp
  | cons first rest ih =>
    rw [bindMembers, List.foldlM_cons] at ok
    obtain ⟨after, step, ok⟩ := exists_of_bind_ok ok
    obtain ⟨callable, found, step⟩ := exists_of_bind_ok step
    obtain rfl := Except.ok.inj step
    have method := member_eq_ok_iff.mp found
    obtain ⟨here, all⟩ := ih ok
    rw [OrderedMap.get?_insert] at here
    by_cases same : name = first
    · subst same
      simp only [here, method, List.mem_cons, true_or, if_true, ite_self, Option.isSome_some,
        implies_true, and_self]
    · simpa [same] using And.intro here all

/-! ## Components without a template -/

/-- Without a template there are no collections. -/
theorem Stages.collections_eq_nil (stages : Stages d i r options) (bare : d.template = none) :
    options.collections = [] := by
  have template := stages.template
  rw [templateOptions, bare] at template
  exact (Prod.mk.inj (Except.ok.inj template)).2.symm

/-- Without a template the methods are the declared ones. -/
theorem Stages.get?_methods (stages : Stages d i r options) (bare : d.template = none)
    (name : String) :
    options.methods.get? name =
      if name ∈ d.metadata.methods.map MethodDeclaration.name then i.method name else none := by
  obtain ⟨slots, bound, declared⟩ := stages.methods
  rw [stages.collections_eq_nil bare] at bound
  obtain rfl := Except.ok.inj bound
  rw [(get?_bindMembers declared name).1, OrderedMap.get?_empty]

end TemplateCompiler.Assembly
