import TemplateCompiler.Proofs.Assembly.Stages
import TemplateCompiler.Proofs.Component.Members

/-!
# Subtypes that add nothing

A type without members of its own resolves to the members of its superclass, and yet it need not
behave like that. Where the superclass declares a member twice, the superclass itself keeps both
declarations and the second one is bound, but a subtype inherits the first one only. This is the one
way in which the two can differ.

## Main definitions

* `Assembly.Implements` — an instance has all members that a type names
* `Assembly.Others` — what assembly does beside binding members
* `Assembly.RepeatsAgree` — the first and the last declaration bind the same

## Main statements

* `Assembly.exists_assembled_iff` — what the success of assembly depends on
* `Assembly.sides_of_bindComputed`, `Assembly.get?_of_bindWatch` — the last declaration is bound
* `Assembly.subtype_binds_alike` — a subtype that adds nothing against its superclass
-/
namespace TemplateCompiler.Assembly

open TypeHierarchy

/-! ## Binding members -/

/-- The instance has all methods, computed properties, watchers and hooks that the type names. -/
structure Implements (i : Instance) (c : ComponentType) : Prop where
  methods : ∀ m ∈ c.methods, (i.method m.name).isSome
  computed : ∀ d ∈ c.computed, (i.method d.methodName).isSome
  watch : ∀ w ∈ c.watch, (i.method w.method).isSome
  hooks : ∀ hook ∈ c.hooks, (i.method hook).isSome

/-- All that assembly does for a component without a template succeeds, the binding of its methods,
computed properties, watchers and hooks left aside. -/
structure Others (d : ComponentDefinition) (i : Instance) (r : Registry) : Prop where
  data : ∃ data, componentData d i [] = .ok data
  props : ∃ props, d.metadata.validators.foldlM (bindValidator d i) (declaredProps d i) = .ok props
  components : ∃ components, (nestedComponents r .empty d.dependencies).1 = .ok components
  directives : ∃ found,
    directives (nestedComponents r .empty d.dependencies).2 d.metadata.directives = .ok found

variable {d : ComponentDefinition} {i : Instance} {r : Registry} {options : ComponentOptions}

/-- What goes on with a method that the instance has succeeds. -/
theorem exists_of_isSome {α : Type} {name : String} (has : (i.method name).isSome)
    (next : Callable → α) : ∃ a, (do pure (next (← member d i name))) = Except.ok a := by
  obtain ⟨callable, found⟩ := Option.isSome_iff_exists.mp has
  rw [member_eq_ok_iff.mpr found]
  exact ⟨_, rfl⟩

/-- **Where the instance has all members, assembly depends on everything else.** -/
theorem exists_assembled_iff (bare : d.template = none) (implements : Implements i d.metadata) :
    (∃ options, (assemble d i r).1 = .ok options) ↔ Others d i r := by
  simp only [assemble_eq_ok_iff]
  constructor
  · rintro ⟨options, stages⟩
    refine ⟨⟨options.data, ?_⟩, ⟨_, stages.props⟩, ⟨_, stages.components⟩, ⟨_, stages.directives⟩⟩
    rw [← stages.collections_eq_nil bare]
    exact stages.data
  · rintro ⟨⟨data, made⟩, ⟨props, validates⟩, ⟨components, nested⟩, ⟨found, known⟩⟩
    have bound (names : List String) (all : ∀ name ∈ names, (i.method name).isSome) :
        ∃ map, bindMembers d i .empty names = .ok map :=
      exists_foldlM (fun name mem map => exists_of_isSome (all name mem) _) _
    obtain ⟨methods, binds⟩ := bound _ (List.forall_mem_map.mpr implements.methods)
    obtain ⟨hooks, hooked⟩ := bound _ implements.hooks
    obtain ⟨computed, computes⟩ :
        ∃ map, d.metadata.computed.foldlM (bindComputed d i) .empty = .ok map :=
      exists_foldlM (fun c mem map => exists_of_isSome (implements.computed c mem) _) _
    obtain ⟨watch, watches⟩ : ∃ map, d.metadata.watch.foldlM (bindWatch d i) .empty = .ok map :=
      exists_foldlM (fun w mem map => exists_of_isSome (implements.watch w mem) _) _
    refine ⟨⟨none, none, data, computed, methods, watch, props, components, found, hooks, []⟩,
      ⟨rfl, ?_, made, ⟨.empty, rfl, binds⟩, computes, watches, validates, hooked, nested, known⟩⟩
    rw [templateOptions, bare]

/-! ## What is bound -/

/-- The last declaration of a key. -/
def last? {α κ : Type} [DecidableEq κ] (key : α → κ) (declarations : List α) (k : κ) : Option α :=
  declarations.reverse.find? fun x => key x == k

/-- One side of a computed property. -/
def side (kind : ComputedKind) (option : ComputedOption) : Option Callable :=
  match kind with
  | .getter => option.get
  | .setter => option.set

/-- What a declaration of a computed property is told from others by. -/
def computedKey (c : ComputedDeclaration) : String × ComputedKind := (c.name, c.kind)

/-- What a watcher is bound to. -/
def watchOption (i : Instance) (w : WatchDeclaration) : Option WatchOption :=
  (i.method w.method).map fun handler => ⟨w.deep, handler⟩

/-- **The last declaration of each side of a computed property is bound.** -/
theorem sides_of_bindComputed {declarations : List ComputedDeclaration}
    {map : OrderedMap ComputedOption}
    (ok : declarations.foldlM (bindComputed d i) .empty = .ok map) (property : String)
    (kind : ComputedKind) :
    (map.get? property).bind (side kind) =
      (last? computedKey declarations (property, kind)).bind fun c => i.method c.methodName := by
  refine (observe_foldlM (fun map => (map.get? property).bind (side kind))
    (fun c => decide (computedKey c = (property, kind))) (fun c => i.method c.methodName) ?_
    ok).trans ?_
  · intro bound c after step
    obtain ⟨callable, found, step⟩ := exists_of_bind_ok step
    obtain rfl := Except.ok.inj step
    rw [member_eq_ok_iff.mp found, OrderedMap.get?_upsert]
    by_cases same : property = c.name
    · subst same
      rw [if_pos rfl]
      cases held : bound.get? c.name <;> cases own : c.kind <;> cases kind <;>
        simp [computedKey, side, own]
    · have other : ¬ c.name = property := fun e => same e.symm
      simp [computedKey, same, other]
  · rw [last?]
    cases declarations.reverse.find? fun c => decide (computedKey c = (property, kind)) <;> rfl

/-- A computed property is bound if either side of it is declared. -/
theorem isSome_of_bindComputed {declarations : List ComputedDeclaration}
    {map : OrderedMap ComputedOption}
    (ok : declarations.foldlM (bindComputed d i) .empty = .ok map) (property : String) :
    (map.get? property).isSome ↔ ∃ kind, (property, kind) ∈ declarations.map computedKey := by
  have bound := observe_foldlM (fun map => (map.get? property).isSome)
    (fun c => c.name == property) (fun _ => true) ?_ ok
  · rw [bound]
    cases found : declarations.reverse.find? fun c => c.name == property with
    | none =>
      refine iff_of_false Bool.false_ne_true ?_
      rintro ⟨kind, mem⟩
      obtain ⟨c, mem, same⟩ := List.mem_map.mp mem
      have other := List.find?_eq_none.mp found c (List.mem_reverse.mpr mem)
      exact other (beq_iff_eq.mpr (Prod.mk.inj same).1)
    | some c =>
      refine iff_of_true rfl ⟨c.kind, List.mem_map.mpr ⟨c, ?_, ?_⟩⟩
      · exact List.mem_reverse.mp (List.mem_of_find?_eq_some found)
      · have same : c.name = property := by simpa using List.find?_some found
        rw [computedKey, same]
  · intro before c after step
    obtain ⟨callable, -, step⟩ := exists_of_bind_ok step
    obtain rfl := Except.ok.inj step
    rw [OrderedMap.get?_upsert]
    by_cases same : property = c.name
    · simp [same]
    · have other : ¬ c.name = property := fun e => same e.symm
      simp [same, other]

/-- Two computed properties are the same if both sides are. -/
theorem computedOption_eq_iff {x y : Option ComputedOption} :
    x = y ↔ (x.isSome ↔ y.isSome) ∧ ∀ kind, x.bind (side kind) = y.bind (side kind) := by
  constructor
  · rintro rfl
    exact ⟨Iff.rfl, fun _ => rfl⟩
  · rintro ⟨present, sides⟩
    cases x with
    | none =>
      cases y with
      | none => rfl
      | some y => simp at present
    | some x =>
      cases y with
      | none => simp at present
      | some y =>
        obtain ⟨get, set⟩ := x
        obtain ⟨get', set'⟩ := y
        obtain rfl : get = get' := sides .getter
        obtain rfl : set = set' := sides .setter
        rfl

/-- **Declarations of the same keys bind a computed property alike** if the last ones of both sides
do. -/
theorem get?_eq_iff_of_bindComputed {d' : ComponentDefinition}
    {declarations others : List ComputedDeclaration} {map map' : OrderedMap ComputedOption}
    (ok : declarations.foldlM (bindComputed d i) .empty = .ok map)
    (ok' : others.foldlM (bindComputed d' i) .empty = .ok map')
    (keys : ∀ k, k ∈ declarations.map computedKey ↔ k ∈ others.map computedKey)
    (property : String) :
    map.get? property = map'.get? property ↔ ∀ kind,
      (last? computedKey declarations (property, kind)).bind (fun c => i.method c.methodName) =
        (last? computedKey others (property, kind)).bind fun c => i.method c.methodName := by
  have present : (map.get? property).isSome ↔ (map'.get? property).isSome := by
    rw [isSome_of_bindComputed ok, isSome_of_bindComputed ok']
    exact exists_congr fun kind => keys (property, kind)
  rw [computedOption_eq_iff, and_iff_right present]
  refine forall_congr' fun kind => ?_
  rw [sides_of_bindComputed ok, sides_of_bindComputed ok']

/-- **The last declaration of a watcher is bound.** -/
theorem get?_of_bindWatch {declarations : List WatchDeclaration} {map : OrderedMap WatchOption}
    (ok : declarations.foldlM (bindWatch d i) .empty = .ok map) (property : String) :
    map.get? property =
      (last? WatchDeclaration.property declarations property).bind (watchOption i) := by
  refine (observe_foldlM (fun map => map.get? property) (fun w => decide (w.property = property))
    (watchOption i) ?_ ok).trans ?_
  · intro bound w after step
    obtain ⟨callable, found, step⟩ := exists_of_bind_ok step
    obtain rfl := Except.ok.inj step
    rw [watchOption, member_eq_ok_iff.mp found, OrderedMap.get?_insert]
    by_cases same : property = w.property
    · simp [same]
    · have other : ¬ w.property = property := fun e => same e.symm
      simp [same, other]
  · rw [last?]
    cases declarations.reverse.find? fun w => decide (w.property = property) <;> rfl

/-! ## The first and the last declaration -/

section Declarations

variable {α κ β : Type} [DecidableEq κ] {key : α → κ} {bind : α → Option β} {xs : List α}

/-- Of the declarations with one key the first and the last bind the same. -/
def RepeatsAgree (key : α → κ) (bind : α → Option β) (declarations : List α) (k : κ) : Prop :=
  (declarations.find? fun x => key x == k).bind bind = (last? key declarations k).bind bind

theorem last?_append (key : α → κ) (xs ys : List α) (k : κ) :
    last? key (xs ++ ys) k = (last? key ys k).or (last? key xs k) := by
  rw [last?, List.reverse_append, List.find?_append, last?, last?]

/-- Where keys are distinct, the first declaration is the last one. -/
theorem last?_of_nodup (nodup : (xs.map key).Nodup) (k : κ) :
    last? key xs k = xs.find? fun x => key x == k := by
  rw [last?]
  induction xs with
  | nil => rfl
  | cons x rest ih =>
    obtain ⟨fresh, nodup⟩ := List.nodup_cons.mp nodup
    rw [List.reverse_cons, List.find?_append, ih nodup]
    by_cases same : key x = k
    · subst same
      have later : (rest.find? fun y => key y == key x) = none := by
        refine List.find?_eq_none.mpr fun y mem same => fresh ?_
        exact beq_iff_eq.mp same ▸ List.mem_map_of_mem mem
      simp [later]
    · simp [same]

theorem RepeatsAgree.of_nodup (nodup : (xs.map key).Nodup) (k : κ) :
    RepeatsAgree key bind xs k := by
  rw [RepeatsAgree, last?_of_nodup nodup]

variable {members : ComponentType → List α} {base c : ComponentType}
  {ancestors : List ComponentType} {upper lower : List α}

/-- What a type without members of its own has for a key is what its superclass has first. -/
theorem find?_of_bare (bare : members c = []) (above : FoldedIn key members base ancestors upper)
    (below : FoldedIn key members c (base :: ancestors) lower) (k : κ) :
    (lower.find? fun x => key x == k) = (members base ++ upper).find? fun x => key x == k := by
  have nearest := below.nearest k
  rw [bare, List.nil_append, List.findSome?_cons, bare, List.find?_nil] at nearest
  exact nearest.trans (above.nearest k).symm

/-- It has the members of its superclass, if fewer of them. -/
theorem subset_of_bare (bare : members c = []) (above : FoldedIn key members base ancestors upper)
    (below : FoldedIn key members c (base :: ancestors) lower) :
    ∀ x ∈ lower, x ∈ members base ++ upper := by
  intro x mem
  have found := find?_of_bare bare above below (key x)
  have first : (lower.find? fun y => key y == key x) = some x := by
    cases held : lower.find? fun y => key y == key x with
    | none => simpa using List.find?_eq_none.mp held x mem
    | some y =>
      have same : key y = key x := by simpa using List.find?_some held
      rw [List.inj_on_of_nodup_map below.nodup (List.mem_of_find?_eq_some held) mem same]
  rw [first] at found
  exact List.mem_of_find?_eq_some found.symm

/-- And it has a member for each of their keys. -/
theorem mem_keys_of_bare (bare : members c = [])
    (above : FoldedIn key members base ancestors upper)
    (below : FoldedIn key members c (base :: ancestors) lower) (k : κ) :
    k ∈ lower.map key ↔ k ∈ (members base ++ upper).map key := by
  have isSome (xs : List α) : k ∈ xs.map key ↔ (xs.find? fun x => key x == k).isSome := by
    simp [List.find?_isSome]
  rw [isSome, isSome, find?_of_bare bare above below]

/-- **Where the last declaration of a key is bound, the two agree about the key if the
declarations of the superclass itself do.** -/
theorem last_eq_iff_repeatsAgree (bare : members c = [])
    (above : FoldedIn key members base ancestors upper)
    (below : FoldedIn key members c (base :: ancestors) lower) (k : κ) :
    (last? key (members base ++ upper) k).bind bind = (last? key lower k).bind bind ↔
      RepeatsAgree key bind (members base) k := by
  rw [last?_of_nodup below.nodup, find?_of_bare bare above below, last?_append, List.find?_append,
    last?_of_nodup above.nodup, RepeatsAgree]
  cases own : (members base).find? fun x => key x == k with
  | none =>
    -- both have inherited the member, and no inherited member is repeated
    have none : last? key (members base) k = none := by
      simpa [last?, List.find?_eq_none] using own
    simp [none]
  | some x =>
    have same : key x = k := by simpa using List.find?_some own
    -- nothing of that key is inherited by the superclass, so its own declarations decide
    have hidden : (upper.find? fun x => key x == k) = none := by
      refine List.find?_eq_none.mpr fun y mem other => above.fresh y mem ?_
      rw [beq_iff_eq.mp other, ← same]
      exact List.mem_map_of_mem (List.mem_of_find?_eq_some own)
    rw [hidden, Option.none_or, Option.some_or]
    exact eq_comm

end Declarations

/-! ## A type without members of its own -/

/-- The type declares no methods, computed properties, watchers or hooks. -/
structure IsBare (c : ComponentType) : Prop where
  methods : c.methods = []
  computed : c.computed = []
  watch : c.watch = []
  hooks : c.hooks = []

/-- **A subtype that adds nothing against its superclass.** It implements what its superclass does,
and assembly of either type fails only for other reasons than members. It has the methods and hooks
of its superclass. It has a computed property and a watcher of its superclass if the superclass's
own declarations of that agree, the first one and the last one: of these the subtype inherits the
first one, and the superclass is bound to the last one. -/
theorem subtype_binds_alike {h : TypeHierarchy} {superclass subtype : String}
    {base c : ComponentType} {ancestors : List ComponentType}
    (walk : h.ancestry superclass = base :: ancestors)
    (declared : h.get? subtype = some c) (notRoot : subtype ≠ h.root)
    (apart : subtype ∉ (h.ancestry superclass).map ComponentType.name)
    (super : c.superclass = some superclass) (bare : IsBare c) :
    ∃ upper lower, h.resolved? superclass = some upper ∧ h.resolved? subtype = some lower ∧
      ∀ i, Implements i upper →
        (∀ resolved ∈ [upper, lower], ∀ r,
          (∃ options, (assemble (.of resolved none) i r).1 = .ok options) ↔
            Others (.of resolved none) i r) ∧
        ∀ r r' options options', (assemble (.of upper none) i r).1 = .ok options →
          (assemble (.of lower none) i r').1 = .ok options' →
            (∀ name, options.methods.get? name = options'.methods.get? name) ∧
            (∀ hook, options.hooks.get? hook = options'.hooks.get? hook) ∧
            (∀ property, options.computed.get? property = options'.computed.get? property ↔
              ∀ kind, RepeatsAgree computedKey (fun d => i.method d.methodName) base.computed
                (property, kind)) ∧
            ∀ property, options.watch.get? property = options'.watch.get? property ↔
              RepeatsAgree WatchDeclaration.property (watchOption i) base.watch property := by
  have found : h.linked? (some subtype) = some c := by
    rw [linked?, Option.bind_some, if_neg notRoot, declared]
  have walk' : h.ancestry subtype = c :: base :: ancestors := by
    rw [ancestry_eq_cons found super apart, walk]
  obtain ⟨methods, computed, watch, hooks, resolves, aboveM, aboveC, aboveW, aboveH⟩ :=
    exists_resolved walk
  obtain ⟨methods', computed', watch', hooks', resolves', belowM, belowC, belowW, belowH⟩ :=
    exists_resolved walk'
  rw [bare.methods, bare.computed, bare.watch, bare.hooks, List.nil_append, List.nil_append,
    List.nil_append, List.nil_append] at resolves'
  refine ⟨_, _, resolves, resolves', fun i implements => ⟨?_, ?_⟩⟩
  · have implements' : Implements i { c with
        methods := methods', computed := computed', watch := watch', hooks := hooks' } :=
      ⟨fun m mem => implements.methods m (subset_of_bare bare.methods aboveM belowM m mem),
        fun d mem => implements.computed d (subset_of_bare bare.computed aboveC belowC d mem),
        fun w mem => implements.watch w (subset_of_bare bare.watch aboveW belowW w mem),
        fun hook mem => implements.hooks hook (subset_of_bare bare.hooks aboveH belowH hook mem)⟩
    intro resolved mem r
    rcases List.mem_cons.mp mem with rfl | mem
    · exact exists_assembled_iff rfl implements
    · obtain rfl := List.mem_singleton.mp mem
      exact exists_assembled_iff rfl implements'
  · intro r r' options options' ok ok'
    have stages := assemble_eq_ok_iff.mp ok
    have stages' := assemble_eq_ok_iff.mp ok'
    refine ⟨?_, ?_, ?_, ?_⟩
    · intro name
      rw [stages.get?_methods rfl, stages'.get?_methods rfl]
      exact if_congr (mem_keys_of_bare bare.methods aboveM belowM name).symm rfl rfl
    · intro hook
      rw [(get?_bindMembers stages.hooks hook).1, (get?_bindMembers stages'.hooks hook).1]
      have same := mem_keys_of_bare bare.hooks aboveH belowH hook
      rw [List.map_id, List.map_id] at same
      exact if_congr same.symm rfl rfl
    · intro property
      rw [get?_eq_iff_of_bindComputed stages.computed stages'.computed
        fun k => (mem_keys_of_bare bare.computed aboveC belowC k).symm]
      refine forall_congr' fun kind => ?_
      exact last_eq_iff_repeatsAgree bare.computed aboveC belowC (property, kind)
    · intro property
      rw [get?_of_bindWatch stages.watch, get?_of_bindWatch stages'.watch]
      exact last_eq_iff_repeatsAgree bare.watch aboveW belowW property

/-- An instance that has every method, each of which returns its own name. -/
def obliging : Instance := ⟨fun _ => none, fun name => some (.const (.string name))⟩

theorem implements_obliging (c : ComponentType) : Implements obliging c :=
  ⟨fun _ _ => rfl, fun _ _ => rfl, fun _ _ => rfl, fun _ _ => rfl⟩

/-- A subtype that adds nothing. -/
def plain (superclass : String) : ComponentType :=
  { (default : ComponentType) with name := "Plain", superclass }

theorem isBare_plain (superclass : String) : IsBare (plain superclass) := ⟨rfl, rfl, rfl, rfl⟩

/-- A type that declares every member once. -/
def single : ComponentType :=
  { (default : ComponentType) with
    name := "Single", superclass := "Component", hooks := ["mounted"]
    methods := [⟨"add", "void"⟩]
    computed := [⟨"size", none, "int", .getter⟩, ⟨"size", "resize", "void", .setter⟩]
    watch := [⟨"changed", "items", true⟩] }

/-- What its plain subtype resolves to. -/
def inherited : ComponentType :=
  { plain "Single" with
    methods := single.methods, computed := single.computed, watch := single.watch
    hooks := single.hooks }

/-- Members that are declared once are bound alike. -/
theorem plain_single_binds_alike :
    let h : TypeHierarchy := ⟨[single, plain "Single"], "Component", by decide⟩
    h.resolved? "Single" = some single ∧ h.resolved? "Plain" = some inherited ∧
      Implements obliging single ∧
      (∃ options, (assemble (.of single none) obliging .empty).1 = .ok options) ∧
      (∃ options, (assemble (.of inherited none) obliging .empty).1 = .ok options) ∧
      ∀ options options', (assemble (.of single none) obliging .empty).1 = .ok options →
        (assemble (.of inherited none) obliging .empty).1 = .ok options' →
          ∀ property, options.computed.get? property = options'.computed.get? property ∧
            options.watch.get? property = options'.watch.get? property := by
  intro h
  have resolves : h.resolved? "Single" = some single := by decide
  have inherits : h.resolved? "Plain" = some inherited := by decide
  obtain ⟨upper, lower, resolves', inherits', alike⟩ :=
    @subtype_binds_alike h "Single" "Plain" single (plain "Single") [] (by decide) (by decide)
      (by decide) (by decide) rfl (isBare_plain "Single")
  obtain rfl := Option.some.inj (resolves.symm.trans resolves')
  obtain rfl := Option.some.inj (inherits.symm.trans inherits')
  obtain ⟨assembles, binds⟩ := alike obliging (implements_obliging single)
  refine ⟨resolves, inherits, implements_obliging single, (assembles single (by simp) .empty).mpr
    ⟨⟨_, rfl⟩, ⟨_, rfl⟩, ⟨_, rfl⟩, ⟨_, rfl⟩⟩, (assembles inherited (by simp) .empty).mpr
    ⟨⟨_, rfl⟩, ⟨_, rfl⟩, ⟨_, rfl⟩, ⟨_, rfl⟩⟩, ?_⟩
  intro options options' ok ok' property
  obtain ⟨-, -, computed, watch⟩ := binds _ _ _ _ ok ok'
  refine ⟨(computed property).mpr fun kind => ?_, (watch property).mpr ?_⟩
  · exact .of_nodup (by decide) _
  · exact .of_nodup (by decide) _

/-- Of two watchers of one property the superclass is bound to the second one, and its plain subtype
to the first one. -/
theorem second_watcher_is_lost :
    let h : TypeHierarchy := ⟨[base, plain "Base"], "Component", by decide⟩
    h.ancestry "Base" = [base] ∧ h.get? "Plain" = some (plain "Base") ∧ IsBare (plain "Base") ∧
      ∃ upper lower, h.resolved? "Base" = some upper ∧ h.resolved? "Plain" = some lower ∧
        Implements obliging upper ∧
        ∃ options options', (assemble (.of upper none) obliging .empty).1 = .ok options ∧
          (assemble (.of lower none) obliging .empty).1 = .ok options' ∧
          options.watch.get? "items" = some ⟨true, .const (.string "second")⟩ ∧
          options'.watch.get? "items" = some ⟨false, .const (.string "first")⟩ := by
  intro h
  have resolves : h.resolved? "Base" = some base := by decide
  have inherits : h.resolved? "Plain" = some
      { plain "Base" with
        hooks := base.hooks, computed := base.computed
        watch := [⟨"first", "items", false⟩] } := by decide
  exact ⟨by decide, by decide, isBare_plain "Base", _, _, resolves, inherits,
    implements_obliging base, _, _, rfl, rfl, rfl, rfl⟩

end TemplateCompiler.Assembly
