import TemplateCompiler.Compilation
import TemplateCompiler.Proofs.Accessor.RoundTrip
import TemplateCompiler.Proofs.Extraction.StaticText

/-!
# From a template to the options of a component

A template is taken apart when its component is compiled and put together again when the component
is constructed. Between the two lie the accessors, which are found by name and read back, and the
search for placeholders. If the author has not written the lead of expressions and no statement
begins with `return`, what comes back is the template with the expression itself in every hole.

Assembly may fail for many reasons that have to do with the instance or the registry. It never
fails because an accessor cannot be read.

## Main definitions

* `Assembly.Post` — an outcome that does not blame the source of an accessor
* `Assembly.Recoverable` — the expressions that come back as they were written

## Main statements

* `Assembly.expressionIds_compiled` — all extracted expressions are looked up
* `Assembly.mapM_recover` — all of them are recovered
* `Assembly.assemble_compiled` — the round trip
-/
namespace TemplateCompiler.Assembly

open Text Markup Extraction

/-! ## Failures -/

/-- The outcome is a value with a property, or a failure that does not blame an accessor. -/
def Post {α : Type} (P : α → Prop) : Except AssembleError α → Prop
  | .ok value => P value
  | .error e => ∀ id text, e ≠ .malformedExpression id text

section Post

variable {α β : Type} {P : α → Prop} {Q : β → Prop}

/-- Steps that go on with what the step before has left. -/
theorem Post.bind {first : Except AssembleError α} {next : α → Except AssembleError β}
    (h : Post P first) (h' : ∀ value, P value → Post Q (next value)) :
    Post Q (first >>= next) := by
  cases first with
  | error e => exact h
  | ok value => exact h' value h

/-- Steps that never blame an accessor do not do so together. -/
theorem post_foldlM {step : β → α → Except AssembleError β}
    (h : ∀ state value, Post (fun _ => True) (step state value)) (state : β) (values : List α) :
    Post (fun _ => True) (values.foldlM step state) := by
  induction values generalizing state with
  | nil => trivial
  | cons value rest ih =>
    rw [List.foldlM_cons]
    exact (h state value).bind fun after _ => ih after

theorem post_member (d : ComponentDefinition) (i : Instance) (name : String) :
    Post (fun _ => True) (member d i name) := by
  rw [member]
  split
  · trivial
  · intro id text same
    cases same

theorem post_bindMembers (d : ComponentDefinition) (i : Instance) (bound : OrderedMap Callable)
    (names : List String) : Post (fun _ => True) (bindMembers d i bound names) := by
  refine post_foldlM ?_ bound names
  intro map name
  exact (post_member d i name).bind fun _ _ => trivial

theorem post_bindComputed (d : ComponentDefinition) (i : Instance)
    (bound : OrderedMap ComputedOption) (c : ComputedDeclaration) :
    Post (fun _ => True) (bindComputed d i bound c) :=
  (post_member d i c.methodName).bind fun _ _ => trivial

theorem post_bindWatch (d : ComponentDefinition) (i : Instance) (bound : OrderedMap WatchOption)
    (w : WatchDeclaration) : Post (fun _ => True) (bindWatch d i bound w) :=
  (post_member d i w.method).bind fun _ _ => trivial

theorem post_componentData (d : ComponentDefinition) (i : Instance) (collections : List String) :
    Post (fun _ => True) (componentData d i collections) := by
  rw [componentData]
  split
  · split
    · trivial
    · intro id text same
      cases same
  · trivial

theorem post_bindValidator (d : ComponentDefinition) (i : Instance) (props : OrderedMap PropOption)
    (v : ValidatorDeclaration) : Post (fun _ => True) (bindValidator d i props v) := by
  refine (post_member d i v.method).bind fun callable _ => ?_
  split
  · trivial
  · intro id text same
    cases same

/-- Members are bound without reading an accessor, and the template stays. -/
theorem post_memberOptions {d : ComponentDefinition} {template : Option String}
    {collections : List String} (h : templateOptions d = .ok (template, collections))
    (i : Instance) : Post (fun options => options.template = template) (memberOptions d i) := by
  have resolved : Post (fun found => found = (template, collections)) (templateOptions d) := by
    rw [h]
    rfl
  refine resolved.bind fun found same => ?_
  obtain rfl := same
  refine (post_bindMembers d i _ _).bind fun slots _ => ?_
  refine (post_componentData d i _).bind fun data _ => ?_
  refine (post_bindMembers d i _ _).bind fun methods _ => ?_
  refine (post_foldlM (post_bindComputed d i) _ _).bind fun computed _ => ?_
  refine (post_foldlM (post_bindWatch d i) _ _).bind fun watch _ => ?_
  refine (post_foldlM (post_bindValidator d i) _ _).bind fun props _ => ?_
  refine (post_bindMembers d i _ _).bind fun hooks _ => ?_
  rfl

/-- **Once the template is resolved, assembly does not blame an accessor**, and the options have
the resolved template. -/
theorem post_assemble {d : ComponentDefinition} {template : Option String}
    {collections : List String} (h : templateOptions d = .ok (template, collections))
    (i : Instance) (r : Registry) :
    Post (fun options => options.template = template) (assemble d i r).1 := by
  have members := post_memberOptions h i
  rw [assemble]
  cases hmembers : memberOptions d i with
  | error e =>
    rw [hmembers] at members
    exact members
  | ok options =>
    rw [hmembers] at members
    dsimp only
    split
    · intro id text same
      cases same
    · split
      · intro id text same
        cases same
      · exact members

end Post

/-! ## Accessors by name -/

variable {h : TypeHierarchy} {c : ComponentType} {template : String} {x : Extraction}

/-- The accessors of an extraction have distinct names. -/
theorem nodup_accessors [Matching] (ok : extract h c template = .ok x) :
    (entryKeys ((Descriptor.make h c x).accessors.map fun a => (a.id, a.compiled))).Nodup := by
  have recorded := recorded_of_extract ok
  have names : entryKeys ((Descriptor.make h c x).accessors.map fun a => (a.id, a.compiled)) =
      x.expressions.map Expression.id ++ x.collections.map Collection.id := by
    simp [entryKeys, Descriptor.accessors, Descriptor.make, Function.comp_def]
  rw [names, recorded.expressionIds, recorded.collectionIds, List.nodup_append]
  refine ⟨List.Nodup.map (Placeholder.name_injective _) List.nodup_range,
    List.Nodup.map (Placeholder.name_injective _) List.nodup_range, ?_⟩
  intro a ha b hb
  obtain ⟨m, -, rfl⟩ := List.mem_map.mp ha
  obtain ⟨n, -, rfl⟩ := List.mem_map.mp hb
  exact Placeholder.expressionId_ne_collectionId m n

/-- The methods of the compiled view are the accessors. -/
theorem entries_methods [Matching] (ok : extract h c template = .ok x) :
    (Descriptor.make h c x).compiled.methods.entries =
      (Descriptor.make h c x).accessors.map fun a => (a.id, a.compiled) :=
  OrderedMap.entries_ofList (nodup_accessors ok)

/-- The methods are named like the expressions and collections, each with the numbers from zero
on. -/
theorem keys_methods [Matching] (ok : extract h c template = .ok x) :
    (Descriptor.make h c x).compiled.methods.keys =
      (List.range x.expressions.length).map Placeholder.expressionId ++
        (List.range x.collections.length).map Placeholder.collectionId := by
  have recorded := recorded_of_extract ok
  rw [OrderedMap.keys, entries_methods ok, ← recorded.expressionIds, ← recorded.collectionIds]
  simp [entryKeys, Descriptor.accessors, Descriptor.make, Function.comp_def]

/-- **All extracted expressions are looked up**, and nothing else. -/
theorem expressionIds_compiled [Matching] (ok : extract h c template = .ok x) :
    expressionIds (Descriptor.make h c x).compiled = x.expressions.map Expression.id := by
  rw [expressionIds, keys_methods ok, (recorded_of_extract ok).expressionIds]
  refine Placeholder.sequentialIds_eq ?_ ?_
  · intro index lt
    exact List.mem_append_left _ (List.mem_map_of_mem (List.mem_range.mpr lt))
  · intro mem
    rcases List.mem_append.mp mem with expression | collection
    · obtain ⟨index, inRange, same⟩ := List.mem_map.mp expression
      obtain rfl := Placeholder.name_injective _ same
      exact absurd (List.mem_range.mp inRange) (Nat.lt_irrefl _)
    · obtain ⟨index, -, same⟩ := List.mem_map.mp collection
      exact Placeholder.expressionId_ne_collectionId _ _ same.symm

/-- **All extracted collections are bound**, and nothing else. -/
theorem collectionIds_compiled [Matching] (ok : extract h c template = .ok x) :
    collectionIds (Descriptor.make h c x).compiled =
      (List.range x.collections.length).map Placeholder.collectionId := by
  rw [collectionIds, keys_methods ok]
  refine Placeholder.sequentialIds_eq ?_ ?_
  · intro index lt
    exact List.mem_append_right _ (List.mem_map_of_mem (List.mem_range.mpr lt))
  · intro mem
    rcases List.mem_append.mp mem with expression | collection
    · obtain ⟨index, -, same⟩ := List.mem_map.mp expression
      exact Placeholder.expressionId_ne_collectionId _ _ same
    · obtain ⟨index, inRange, same⟩ := List.mem_map.mp collection
      obtain rfl := Placeholder.name_injective _ same
      exact absurd (List.mem_range.mp inRange) (Nat.lt_irrefl _)

/-- The expressions whose recovery is exact. -/
def Recoverable (e : Expression) : Prop :=
  ¬ (ReturnShape.ofType e.returnType = .statement ∧ Accessor.BeginsWithReturn e.body.toList)

/-- What is known of expressions when their placeholders are replaced. -/
def known (expressions : List Expression) : List (String × String) :=
  expressions.map fun e => (e.id, Accessor.stripQualifiers e.body)

/-- Accessors are found by their names. -/
theorem get?_methods_of_mem [Matching] (ok : extract h c template = .ok x) {a : Accessor}
    (mem : a ∈ (Descriptor.make h c x).accessors) :
    (Descriptor.make h c x).compiled.methods.get? a.id = some a.compiled := by
  have entry : (a.id, a.compiled) ∈
      (Descriptor.make h c x).accessors.map fun a => (a.id, a.compiled) := List.mem_map_of_mem mem
  rw [OrderedMap.get?, entries_methods ok]
  exact lookupEntry_of_mem (nodup_accessors ok) entry

/-- The method of an expression is its accessor. -/
theorem get?_methods_compiled [Matching] (ok : extract h c template = .ok x) {e : Expression}
    (mem : e ∈ x.expressions) :
    (Descriptor.make h c x).compiled.methods.get? e.id =
      some (Accessor.ofExpression e).compiled :=
  get?_methods_of_mem ok (List.mem_append_left _ (List.mem_map_of_mem mem))

/-- An expression is recovered from its accessor, without qualifiers. -/
theorem recover_compiled [Matching] (ok : extract h c template = .ok x) {e : Expression}
    (mem : e ∈ x.expressions) (recoverable : Recoverable e) :
    recover (Descriptor.make h c x).compiled e.id =
      .ok (e.id, Accessor.stripQualifiers e.body) := by
  have found : Accessor.expression? (Accessor.ofExpression e).compiled = some e.body :=
    Accessor.expression?_of_not_return (parameters_of_extract ok mem) (trimmed_of_extract ok mem)
      recoverable
  simp only [recover, get?_methods_compiled ok mem, Option.getD_some, found]

/-- What each expression is recovered to is what all of them are. -/
theorem mapM_recover_eq (t : CompiledTemplate) {expressions : List Expression}
    (each : ∀ e ∈ expressions, recover t e.id = .ok (e.id, Accessor.stripQualifiers e.body)) :
    (expressions.map Expression.id).mapM (recover t) = .ok (known expressions) := by
  induction expressions with
  | nil => rfl
  | cons e rest ih =>
    have more := ih fun other mem => each other (List.mem_cons_of_mem e mem)
    rw [List.map_cons, List.mapM_cons, each e List.mem_cons_self, more]
    rfl

/-- **All expressions are recovered.** -/
theorem mapM_recover [Matching] (ok : extract h c template = .ok x)
    (recoverable : ∀ e ∈ x.expressions, Recoverable e) :
    (expressionIds (Descriptor.make h c x).compiled).mapM
      (recover (Descriptor.make h c x).compiled) = .ok (known x.expressions) := by
  rw [expressionIds_compiled ok]
  refine mapM_recover_eq _ ?_
  intro e mem
  exact recover_compiled ok mem (recoverable e mem)

/-! ## The template -/

/-- The template of a compiled component is resolved with all its expressions. -/
theorem templateOptions_compiled [Matching] (ok : extract h c template = .ok x) (nonempty : template ≠ "")
    (recoverable : ∀ e ∈ x.expressions, Recoverable e) (metadata : ComponentType) :
    templateOptions (.of metadata (some (Descriptor.make h c x).compiled)) =
      .ok (some (resolveTemplate x.template (known x.expressions)),
        collectionIds (Descriptor.make h c x).compiled) := by
  have text : (Descriptor.make h c x).compiled.isEmpty = false :=
    beq_false_of_ne (template_ne_empty ok nonempty)
  have expressions := mapM_recover ok recoverable
  simp only [templateOptions, ComponentDefinition.template_of, text, expressions]
  rfl

/-- What is known of an extracted expression is found by its name. -/
theorem lookupEntry_known [Matching] (ok : extract h c template = .ok x) {e : Expression}
    (mem : e ∈ x.expressions) :
    lookupEntry e.id (known x.expressions) = some (Accessor.stripQualifiers e.body) := by
  have keys : entryKeys (known x.expressions) = x.expressions.map Expression.id := by
    simp [entryKeys, known, Function.comp_def]
  have distinct : (entryKeys (known x.expressions)).Nodup := by
    rw [keys, (recorded_of_extract ok).expressionIds]
    exact List.Nodup.map (Placeholder.name_injective _) List.nodup_range
  have entry : (e.id, Accessor.stripQualifiers e.body) ∈ known x.expressions :=
    List.mem_map_of_mem mem
  exact lookupEntry_of_mem distinct entry

/-- **What assembly puts into a hole is the expression that was taken out of it**, without
qualifiers, or the loop over its data slot. -/
theorem assembled_eq_resolved [Matching] (ok : extract h c template = .ok x) {hole : Hole}
    (mem : hole ∈ holes template) :
    hole.content.assembled (known x.expressions) = hole.content.resolved := by
  rcases List.mem_append.mp mem with loop | expression
  · obtain ⟨index, clause, -, content⟩ := mem_number loop
    rw [content]
    rfl
  · obtain ⟨index, body, -, content⟩ := mem_number expression
    have record : (hole.content.id, hole.content.body) ∈
        x.expressions.map fun e => (e.id, e.body) := by
      rw [(recorded_of_extract ok).expressions]
      exact List.mem_map_of_mem expression
    rw [content] at record ⊢
    obtain ⟨e, inExpressions, same⟩ := List.mem_map.mp record
    obtain ⟨id, rfl⟩ := Prod.mk.inj same
    have named : e.id = Placeholder.expressionId index := id
    have found := lookupEntry_known ok inExpressions
    rw [named] at found
    rw [Content.assembled, Content.resolved, found, Option.getD_some]

/-! ## The round trip -/

/-- A compiled component is made of an extraction. -/
theorem compileComponent_eq_ok_iff [Matching] {settings : Settings} {compiled : CompiledComponent} :
    compileComponent h c (some template) settings = .ok compiled ↔
      ∃ x, extract h c template = .ok x ∧
        compiled = ⟨Descriptor.make h c x, (Descriptor.make h c x).resource settings,
          (Descriptor.make h c x).compiled⟩ := by
  simp only [compileComponent]
  cases extract h c template with
  | error problems =>
    constructor
    · intro compiles
      cases compiles
    · rintro ⟨x, extracts, -⟩
      cases extracts
  | ok x =>
    constructor
    · intro compiles
      exact ⟨x, rfl, (Except.ok.inj compiles).symm⟩
    · rintro ⟨x, extracts, rfl⟩
      obtain rfl := Except.ok.inj extracts
      rfl

/-- **Templates survive the round trip.** If the author has not written the lead of expressions and
no statement begins with `return`, assembly never blames an accessor, and whenever it succeeds its
template is the authored one with the expressions themselves in their holes and with loops over
the data slots. -/
theorem assemble_compiled [Matching] {settings : Settings} {compiled : CompiledComponent}
    (compiles : compileComponent h c (some template) settings = .ok compiled)
    (nonempty : template ≠ "") (absent : ¬ Placeholder.expressionLead.toList <:+: template.toList)
    (recoverable : ∀ e ∈ compiled.descriptor.expressions, Recoverable e)
    (metadata : ComponentType) (i : Instance) (r : Registry) :
    (∀ id text, (assemble (compiled.definition metadata) i r).1 ≠
        .error (.malformedExpression id text)) ∧
      ∀ options, (assemble (compiled.definition metadata) i r).1 = .ok options →
        ∃ result, options.template = some result ∧
          Rewrites template.toList
            ((holes template).map fun hole => hole.put hole.content.resolved) result.toList := by
  obtain ⟨x, ok, rfl⟩ := compileComponent_eq_ok_iff.mp compiles
  have hasTemplate : (Descriptor.make h c x).hasTemplate = true :=
    bne_iff_ne.mpr (template_ne_empty ok nonempty)
  rw [CompiledComponent.definition, if_pos hasTemplate]
  have resolved := post_assemble (templateOptions_compiled ok nonempty recoverable metadata) i r
  have free := tokens_staticText_eq_nil Placeholder.isLead_expressionLead absent
  have rewrites := rewrites_resolveTemplate ok free (known x.expressions)
  have contents : (holes template).map
      (fun hole => hole.put (hole.content.assembled (known x.expressions))) =
        (holes template).map fun hole => hole.put hole.content.resolved := by
    apply List.map_congr_left
    intro hole mem
    rw [assembled_eq_resolved ok mem]
  rw [contents] at rewrites
  constructor
  · intro id text blamed
    rw [blamed] at resolved
    exact resolved id text rfl
  · intro options success
    rw [success] at resolved
    exact ⟨_, resolved, rewrites⟩

/-- A handler that calls a method of the component: it comes back without `this`. -/
theorem qualified_call_survives :
    ∃ compiled options,
      compileComponent default default (some "<b @click=\"this.go()\"></b>") default =
          .ok compiled ∧
        (assemble (compiled.definition default) ⟨fun _ => none, fun _ => none⟩ .empty).1 =
            .ok options ∧
          options.template = some "<b @click=\"go()\"></b>" ∧
            Rewrites "<b @click=\"this.go()\"></b>".toList
              ((holes "<b @click=\"this.go()\"></b>").map fun hole =>
                hole.put hole.content.resolved) "<b @click=\"go()\"></b>".toList := by
  have ok : extract default default "<b @click=\"this.go()\"></b>" =
      .ok ⟨"<b @click=\"exp$0\"></b>",
        [⟨"exp$0", .event, [eventParameter], voidType, "this.go()"⟩], []⟩ := by
    cbv
  have compiles := (@compileComponent_eq_ok_iff _ _ _ _ default _).mpr ⟨_, ok, rfl⟩
  have absent : ¬ Placeholder.expressionLead.toList <:+: "<b @click=\"this.go()\"></b>".toList := by
    intro inside
    exact absurd (inside.subset Placeholder.isLead_expressionLead.dollar) (by decide)
  have survives := assemble_compiled compiles (by decide) absent ?_ default
    ⟨fun _ => none, fun _ => none⟩ .empty
  · obtain ⟨result, same, rewrites⟩ := survives.2 _ rfl
    have template : some result = some "<b @click=\"go()\"></b>" := by
      rw [← same]
      decide +kernel
    obtain rfl := Option.some.inj template
    exact ⟨_, _, compiles, rfl, same, rewrites⟩
  · intro e mem
    obtain rfl := List.mem_singleton.mp mem
    rintro ⟨-, blank, rest, begins, -⟩
    exact absurd (congrArg (List.take 1) begins) (by simp)

end TemplateCompiler.Assembly
