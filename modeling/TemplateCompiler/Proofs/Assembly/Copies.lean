import TemplateCompiler.Proofs.Assembly.Collections
import TemplateCompiler.Proofs.Assembly.Stages
import TemplateCompiler.Proofs.Json.Fidelity
import TemplateCompiler.Proofs.Json.Openings

/-!
# Copied data and shared data

A component may give each of its instances a copy of the data object, or let them share it. Nothing
else in its options depends on this. A copy is equal to the object, as far as the values can be
written and read, so all that can be seen of the choice is that an object in which too many
containers are nested cannot be copied.

## Main definitions

* `ComponentDefinition.withFactory` — a definition that copies the data object, or shares it
* `Assembly.FaithfulFields` — instances whose values are read as they are written

## Main statements

* `Assembly.componentData_withFactory` — the data of the component, copied or shared
* `Assembly.Stages.withFactory` — the other stages do not depend on it
* `Assembly.copies_equal_shared` — assembly with copies against assembly without
-/
namespace TemplateCompiler

/-- The definition with the data object copied for each instance, or shared. -/
def ComponentDefinition.withFactory (d : ComponentDefinition) (useFactory : Bool) :
    ComponentDefinition :=
  { d with metadata := { d.metadata with useFactory } }

namespace Assembly

open Text

variable {d : ComponentDefinition} {i : Instance} {r : Registry} {options : ComponentOptions}

/-- The values that the instance holds in the declared fields are read as they are written. -/
def FaithfulFields (d : ComponentDefinition) (i : Instance) : Prop :=
  ∀ field ∈ d.metadata.data, ∀ value, i.property field.name = some value → value.Faithful

/-! ## Data -/

/-- A data object of faithful values is faithful. -/
theorem membersFaithful_dataObject (faithful : FaithfulFields d i) (collections : List String) :
    Json.membersFaithful (dataObject d i collections).entries := by
  rw [Json.membersFaithful_iff, dataObject_eq]
  intro entry mem
  rcases List.mem_append.mp (OrderedMap.mem_of_mem_entries_ofList mem) with isField | isSlot
  · obtain ⟨field, declared, rfl⟩ := List.mem_map.mp isField
    dsimp only
    rw [fieldValue]
    split
    · exact ⟨List.nodup_nil, trivial⟩
    · exact ⟨List.nodup_nil, trivial⟩
    · next value _ held => exact faithful field declared value held
  · obtain ⟨id, -, rfl⟩ := List.mem_map.mp isSlot
    exact trivial

theorem dataObject_withFactory (d : ComponentDefinition) (useFactory : Bool) (i : Instance)
    (collections : List String) :
    dataObject (d.withFactory useFactory) i collections = dataObject d i collections := rfl

theorem componentData_shared (d : ComponentDefinition) (i : Instance) (collections : List String) :
    componentData (d.withFactory false) i collections =
      .ok (.shared (dataObject d i collections)) := rfl

/-- **Data that is to be copied** is the data object, unless a container in it is too deep. -/
theorem componentData_copied (faithful : FaithfulFields d i) (collections : List String) :
    componentData (d.withFactory true) i collections =
      (Json.copyColumn? (dataObject d i collections)).elim
        (.ok (.copied (dataObject d i collections))) fun column => .error (.dataCopy column) := by
  have copies := Json.copyData_of_faithful (membersFaithful_dataObject faithful collections)
  have factory : (d.withFactory true).metadata.useFactory = true := rfl
  rw [componentData, if_pos factory, dataObject_withFactory, copies]
  cases Json.copyColumn? (dataObject d i collections) <;> rfl

/-! ## The other stages -/

/-- **The other stages do not depend on how data is handed out.** -/
theorem Stages.withFactory {before after : Bool} {data : ComponentData}
    (stages : Stages (d.withFactory before) i r options)
    (made : componentData (d.withFactory after) i options.collections = .ok data) :
    Stages (d.withFactory after) i r { options with data } where
  el := stages.el
  template := stages.template
  data := made
  methods := stages.methods
  computed := stages.computed
  watch := stages.watch
  props := stages.props
  hooks := stages.hooks
  components := stages.components
  directives := stages.directives

/-- Assembly that succeeds otherwise fails if its data cannot be made. -/
theorem Stages.assemble_eq_error {before after : Bool} {e : AssembleError}
    (stages : Stages (d.withFactory before) i r options)
    (fails : componentData (d.withFactory after) i options.collections = .error e) :
    (assemble (d.withFactory after) i r).1 = .error e := by
  obtain ⟨slots, bound, -⟩ := stages.methods
  have template : templateOptions (d.withFactory after) =
      .ok (options.template, options.collections) := stages.template
  have bound : bindMembers (d.withFactory after) i .empty options.collections = .ok slots := bound
  have members : memberOptions (d.withFactory after) i = .error e := by
    rw [memberOptions, template]
    simp only [bind, Except.bind, bound, fails]
  rw [assemble, members]

/-! ## Copies against shared objects -/

/-- Assembly with copies succeeds with the options of the other, but for the data. -/
theorem Stages.shared_of_copied (faithful : FaithfulFields d i)
    (stages : Stages (d.withFactory true) i r options) :
    options.data = .copied (dataObject d i options.collections) ∧
      Json.copyColumn? (dataObject d i options.collections) = none := by
  have made := stages.data
  rw [componentData_copied faithful] at made
  cases deep : Json.copyColumn? (dataObject d i options.collections) with
  | none =>
    rw [deep] at made
    exact ⟨(Except.ok.inj made).symm, rfl⟩
  | some column =>
    rw [deep] at made
    cases made

/-- **Copied data equals shared data.** If assembly with copies succeeds then assembly without them
succeeds with the same options, except that the data object is shared, and both resolve to the same
object. If assembly without copies succeeds, then with copies it fails if and only if 128 containers
or more are nested in the data object, which is counted, too. The failure names the byte column,
counted from one, of the opening bracket of the first container at depth 128 in the compact form
of the object. -/
theorem copies_equal_shared (faithful : FaithfulFields d i) (r : Registry) :
    (∀ copied, (assemble (d.withFactory true) i r).1 = .ok copied →
      ∃ shared data, (assemble (d.withFactory false) i r).1 = .ok shared ∧
        shared = { copied with data := shared.data } ∧
          copied.data.resolve = .ok data ∧ shared.data.resolve = .ok data) ∧
    (∀ shared, (assemble (d.withFactory false) i r).1 = .ok shared →
      ∃ data, shared.data.resolve = .ok data ∧
        ((∃ e, (assemble (d.withFactory true) i r).1 = .error e) ↔
          128 ≤ (Json.Value.object data.entries).depth) ∧
        ∀ e, (assemble (d.withFactory true) i r).1 = .error e →
          ∃ front, Json.OpensFirst (.object data.entries) 128 front ∧
            e = .dataCopy (byteLength front + 1)) := by
  constructor
  · intro copied succeeds
    have stages := assemble_eq_ok_iff.mp succeeds
    obtain ⟨data, shallow⟩ := stages.shared_of_copied faithful
    have copies := Json.copyData_of_faithful
      (membersFaithful_dataObject faithful copied.collections)
    rw [shallow] at copies
    refine ⟨_, _, assemble_eq_ok_iff.mpr (stages.withFactory (componentData_shared d i _)), rfl, ?_,
      rfl⟩
    rw [data]
    exact copies
  · intro shared succeeds
    have stages := assemble_eq_ok_iff.mp succeeds
    have made := stages.data
    rw [componentData_shared] at made
    refine ⟨dataObject d i shared.collections, ?_, ?_⟩
    · rw [← Except.ok.inj made]
      rfl
    have copied := componentData_copied faithful shared.collections
    have depth := Json.copyColumn?_eq_none_iff (dataObject d i shared.collections)
    cases deep : Json.copyColumn? (dataObject d i shared.collections) with
    | none =>
      rw [deep] at copied depth
      have copies := assemble_eq_ok_iff.mpr (stages.withFactory copied)
      have shallow : ¬ copyDepth ≤ _ := Nat.not_le_of_lt (depth.mp rfl)
      rw [copies]
      exact ⟨iff_of_false (by simp) shallow, nofun⟩
    | some column =>
      rw [deep] at copied
      obtain ⟨front, found, rfl⟩ := Option.map_eq_some_iff.mp deep
      have first := (Json.tooDeep?_eq_some_iff (by decide)).mp found
      have deeper := (Json.exists_opensFirst_iff (by decide)).mp ⟨front, first⟩
      rw [stages.assemble_eq_error copied]
      refine ⟨iff_of_true ⟨_, rfl⟩ deeper, ?_⟩
      rintro e ⟨⟩
      exact ⟨front, first, rfl⟩

/-! ## Nested data -/

/-- The greatest integer inside a number of arrays. -/
def inArrays : Nat → Json.Value
  | 0 => .number (.integer ⟨2 ^ 64 - 1, by decide, by decide⟩)
  | levels + 1 => .array [inArrays levels]

theorem faithful_inArrays (levels : Nat) : (inArrays levels).Faithful := by
  induction levels with
  | zero => trivial
  | succ levels ih => exact ⟨ih, trivial⟩

/-- The double `1e16`. -/
def huge : Json.Double := ⟨false, Json.Magnitude.ofNat (10 ^ 16), by decide +kernel⟩

theorem faithful_huge : (Json.Number.float huge).Faithful :=
  Json.Number.faithful_iff.mpr (by decide +kernel)

/-- A component with two fields. -/
def twoFields : ComponentDefinition :=
  .of { (default : ComponentType) with data := [⟨"huge", "double"⟩, ⟨"größe", "Object"⟩] } none

/-- A double in one of the fields and nested arrays in the other. -/
def doubleAndArrays (levels : Nat) : OrderedMap Json.Value :=
  .ofList [("huge", .number (.float huge)), ("größe", inArrays levels)]

/-- An instance that holds a double and nested arrays. -/
def holdingArrays (levels : Nat) : Instance := .ofMaps (doubleAndArrays levels) .empty

/-- A data object with 126 nested arrays in it is copied, and with 127 it is not. -/
theorem arrays_are_copied_up_to_126 :
    (∀ levels, FaithfulFields twoFields (holdingArrays levels)) ∧
      (∃ copied shared,
        (assemble (twoFields.withFactory true) (holdingArrays 126) .empty).1 = .ok copied ∧
        (assemble (twoFields.withFactory false) (holdingArrays 126) .empty).1 = .ok shared ∧
        copied.data.resolve = .ok (doubleAndArrays 126) ∧
        shared.data.resolve = .ok (doubleAndArrays 126)) ∧
      (assemble (twoFields.withFactory true) (holdingArrays 127) .empty).1 =
        .error (.dataCopy 150) := by
  have faithful (levels : Nat) : FaithfulFields twoFields (holdingArrays levels) := by
    intro field declared value held
    rcases List.mem_pair.mp declared with rfl | rfl
    · obtain rfl := Option.some.inj held
      exact faithful_huge
    · obtain rfl := Option.some.inj held
      exact faithful_inArrays levels
  refine ⟨faithful, ?_, ?_⟩
  · obtain ⟨ofCopied, ofShared⟩ := copies_equal_shared (faithful 126) .empty
    obtain ⟨data, resolved, fails, -⟩ := ofShared _ rfl
    obtain rfl : data = doubleAndArrays 126 := (Except.ok.inj resolved).symm
    have shallow : ¬ 128 ≤ (Json.Value.object (doubleAndArrays 126).entries).depth := by
      decide +kernel
    cases copies : (assemble (twoFields.withFactory true) (holdingArrays 126) .empty).1 with
    | error e => exact absurd (fails.mp ⟨e, copies⟩) shallow
    | ok copied =>
      obtain ⟨shared, data, succeeds, -, same, same'⟩ := ofCopied copied copies
      obtain rfl : shared = _ := (Except.ok.inj succeeds).symm
      obtain rfl : data = doubleAndArrays 126 := (Except.ok.inj same').symm
      exact ⟨copied, _, rfl, succeeds, same, same'⟩
  · obtain ⟨data, resolved, fails, column⟩ := (copies_equal_shared (faithful 127) .empty).2 _ rfl
    obtain rfl : data = doubleAndArrays 127 := (Except.ok.inj resolved).symm
    obtain ⟨e, error⟩ := fails.mpr (by decide +kernel)
    obtain ⟨front, first, rfl⟩ := column e error
    have place : ((Json.Value.object (doubleAndArrays 127).entries).tooDeep? 128).map
        (byteLength · + 1) = some 150 := by
      decide +kernel
    rw [(Json.tooDeep?_eq_some_iff (by decide)).mpr first] at place
    have same : byteLength front + 1 = 150 := Option.some.inj place
    rw [error, same]

end Assembly

end TemplateCompiler
