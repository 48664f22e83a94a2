import TemplateCompiler.Proofs.Assembly.Finalisation
import TemplateCompiler.Proofs.Assembly.Stages
import TemplateCompiler.Proofs.Json.Copying
import TemplateCompiler.Proofs.OrderedMap

/-!
# Collections from the template to the data

The source of a loop becomes a collection with a number. The compiled view has a method for it, the
options bind that method, the data object has an empty array for it, and the clause of the loop
names that array. All four have to mean the same collections, although the component may declare
fields and methods with such names.

## Main definitions

* `Assembly.slots` — the data slots of a number of collections
* `Assembly.Slotted` — a data object with these slots and the declared fields

## Main statements

* `Assembly.exists_edits_of_stitched` — assembly fills every hole, whatever else it replaces
* `Assembly.slotted_dataObject` — the data object has the slots
* `Assembly.collections_of_assemble` — the options agree about the collections
-/
namespace TemplateCompiler.Assembly

open Text Extraction Placeholder

/-! ## The assembled template -/

/-- **Assembly fills every hole** of a template that falls into seams, whatever it replaces in the
text between them. -/
theorem exists_edits_of_stitched (known : List (String × String)) {position : Nat}
    {text tail : List Char} {seams : List Seam} (stitched : Stitched position text seams tail)
    (readable : ∀ seam ∈ seams, seam.hole.content.Readable) (offset : Nat) :
    ∃ result edits,
      Spliced offset (fill (fun hole => hole.content.placeholder) tail seams)
        (substitutions known (findFrom expressionLead.toList none offset 0
          (fill (fun hole => hole.content.placeholder) tail seams))) result ∧
      Spliced position text edits result ∧
      ∀ seam ∈ seams, seam.hole.put (seam.hole.content.assembled known) ∈ edits := by
  induction stitched generalizing offset with
  | tail position text =>
    obtain ⟨result, spliced⟩ :=
      spliced_substitutions known expressionLead.toList none offset 0 text
    obtain ⟨edits, moved⟩ := spliced.exists_move position
    exact ⟨result, edits, spliced, moved, nofun⟩
  | @seam position seam wide behind tail seams bordered put more ih =>
    obtain ⟨left, right⟩ := bordered
    have hole := spliced_placeholder known (readable seam List.mem_cons_self)
      (offset + byteLength seam.kept + byteLength seam.left)
    obtain ⟨keptResult, kept⟩ :=
      spliced_substitutions known expressionLead.toList none offset 0 seam.kept
    obtain ⟨keptEdits, moved⟩ := kept.exists_move position
    obtain ⟨result, edits, spliced, rewritten, filled⟩ :=
      ih (fun other mem => readable other (List.mem_cons_of_mem seam mem))
        (offset + byteLength seam.kept + byteLength seam.left +
          byteLength seam.hole.content.placeholder.toList + byteLength seam.right)
    refine ⟨keptResult ++ (seam.left ++ ((seam.hole.content.assembled known).toList ++
      (seam.right ++ result))), keptEdits ++ (seam.hole.put (seam.hole.content.assembled known) ::
        edits), ?_, ?_, ?_⟩
    · rw [fill, findFrom_border isLead_expressionLead left _ (Nat.zero_le _),
        findFrom_border isLead_expressionLead right _ (Nat.zero_le _), substitutions_append,
        substitutions_append]
      have inner := hole.append ((Spliced.refl _ seam.right).append spliced)
      exact kept.append ((Spliced.refl _ seam.left).append inner)
    · have here := (put (seam.hole.content.assembled known)).append rewritten
      simpa using moved.append here
    · intro other mem
      rcases List.mem_cons.mp mem with rfl | mem
      · exact List.mem_append_right _ List.mem_cons_self
      · exact List.mem_append_right _ (List.mem_cons_of_mem _ (filled other mem))

/-- Assembly fills every hole of the template that an extraction was made of. -/
theorem exists_edits_of_extract [Markup.Matching] {h : TypeHierarchy} {c : ComponentType} {template : String}
    {x : Extraction} (ok : extract h c template = .ok x) (known : List (String × String)) :
    ∃ edits, Spliced 0 template.toList edits (resolveTemplate x.template known).toList ∧
      ∀ hole ∈ holes template, hole.put (hole.content.assembled known) ∈ edits := by
  obtain ⟨seams, tail, all, stitched⟩ := exists_stitched template
  obtain ⟨result, edits, spliced, rewritten, filled⟩ := exists_edits_of_stitched known stitched
    (fun _ mem => readable_of_mem_seams all mem) 0
  rw [← template_of_extract ok all stitched.sewn] at spliced
  have resolved : (resolveTemplate x.template known).toList = result := by
    rw [resolveTemplate, String.toList_ofList]
    exact spliced.applyEditsFrom_eq
  rw [resolved]
  refine ⟨edits, rewritten, fun hole mem => ?_⟩
  have sorted := (sortedHoles_perm template).symm.subset mem
  rw [← all] at sorted
  obtain ⟨seam, inSeams, rfl⟩ := List.mem_map.mp sorted
  exact filled seam inSeams

/-! ## Data -/

variable {d : ComponentDefinition} {i : Instance}

/-- The data slots of so many collections. -/
def slots (count : Nat) : List String :=
  (List.range count).map fun index => arraySlot (collectionId index)

/-- A data object with an empty array for each collection. Its other keys are those of the declared
fields, each where it is declared first, and nothing in it is `null`. -/
structure Slotted (count : Nat) (fields : List DataField) (data : OrderedMap Json.Value) :
    Prop where
  slot : ∀ key ∈ slots count, data.get? key = some (.array [])
  others : data.keys.filter (· ∉ slots count) =
    (fields.map DataField.name).eraseDups.filter (· ∉ slots count)
  notNull : ∀ key, data.get? key ≠ some .null

/-- The value of a declared field. Nothing counts as an empty object. -/
def fieldValue (i : Instance) (name : String) : Json.Value :=
  match i.property name with
  | none | some .null => .object []
  | some value => value

theorem fieldValue_ne_null (i : Instance) (name : String) : fieldValue i name ≠ .null := by
  rw [fieldValue]
  cases i.property name with
  | none => exact nofun
  | some value => cases value <;> exact nofun

/-- The data object is made of the declared fields and then of the slots. -/
theorem dataObject_eq (d : ComponentDefinition) (i : Instance) (collections : List String) :
    dataObject d i collections =
      .ofList (d.metadata.data.map (fun field => (field.name, fieldValue i field.name)) ++
        collections.map fun id => (arraySlot id, .array [])) := by
  rw [OrderedMap.ofList, List.foldl_append, List.foldl_map, List.foldl_map]
  rfl

/-- **The data object has the slots.** -/
theorem slotted_dataObject (d : ComponentDefinition) (i : Instance) (count : Nat) :
    Slotted count d.metadata.data (dataObject d i ((List.range count).map collectionId)) := by
  rw [dataObject_eq, List.map_map]
  refine ⟨fun key mem => ?slot, ?others, fun key null => ?notNull⟩
  case slot =>
    obtain ⟨index, inRange, rfl⟩ := List.mem_map.mp mem
    have found : ((List.range count).reverse.find? fun other =>
        arraySlot (collectionId other) == arraySlot (collectionId index)).isSome :=
      List.find?_isSome.mpr ⟨index, List.mem_reverse.mpr inRange, beq_self_eq_true _⟩
    obtain ⟨other, found⟩ := Option.isSome_iff_exists.mp found
    -- the slots come last, so no field of that name counts
    rw [OrderedMap.get?_ofList, List.reverse_append, lookupEntry_append, ← List.map_reverse]
    have slot := lookupEntry_map (arraySlot (collectionId index))
      (fun other => arraySlot (collectionId other)) (fun _ => Json.Value.array [])
      (List.range count).reverse
    rw [found, Option.map_some] at slot
    exact congrArg (Option.or · _) slot
  case others =>
    have keys : ((d.metadata.data.map DataField.name) ++ slots count).eraseDups.filter
        (· ∉ slots count) =
          (d.metadata.data.map DataField.name).eraseDups.filter (· ∉ slots count) := by
      rw [List.eraseDups_append, List.filter_append, List.append_right_eq_self,
        List.filter_eq_nil_iff]
      intro key mem
      have slot : key ∈ slots count := List.mem_of_mem_filter (List.mem_eraseDups.mp mem)
      simpa using slot
    rw [OrderedMap.keys_ofList, entryKeys_append, entryKeys, entryKeys, List.map_map, List.map_map]
    exact keys
  case notNull =>
    rw [OrderedMap.get?_ofList] at null
    have entry := List.mem_reverse.mp (mem_of_lookupEntry null)
    rcases List.mem_append.mp entry with field | slot
    · obtain ⟨field, -, same⟩ := List.mem_map.mp field
      exact fieldValue_ne_null i field.name (Prod.mk.inj same).2
    · obtain ⟨index, -, same⟩ := List.mem_map.mp slot
      cases (Prod.mk.inj same).2

/-- A copy of a slotted data object is slotted. -/
theorem Slotted.copy {count : Nat} {fields : List DataField} {data copy : OrderedMap Json.Value}
    (slotted : Slotted count fields data) (ok : copyData data = .ok copy) :
    Slotted count fields copy where
  slot key mem := by
    rw [Json.get?_of_copyData ok, slotted.slot key mem]
    rfl
  others := by
    rw [Json.keys_of_copyData ok]
    exact slotted.others
  notNull key null := by
    rw [Json.get?_of_copyData ok] at null
    obtain ⟨value, held, same⟩ := Option.map_eq_some_iff.mp null
    cases value with
    | null => exact slotted.notNull key held
    | _ => cases same

/-- **What the data of an assembled component resolves to**, shared or copied, has the slots. -/
theorem slotted_of_componentData {count : Nat} {data : ComponentData}
    (ok : componentData d i ((List.range count).map collectionId) = .ok data) :
    ∃ resolved, data.resolve = .ok resolved ∧ Slotted count d.metadata.data resolved := by
  have slotted := slotted_dataObject d i count
  rw [componentData] at ok
  split at ok
  · split at ok
    · next copy copies =>
      obtain rfl := Except.ok.inj ok
      exact ⟨copy, copies, slotted.copy copies⟩
    · cases ok
  · obtain rfl := Except.ok.inj ok
    exact ⟨_, rfl, slotted⟩

/-! ## From compilation to the options -/

section

variable {h : TypeHierarchy} {c : ComponentType} {metadata : ComponentType}

theorem extract_empty [Markup.Matching] : extract h c "" = .ok .ofNothing := by
  simp [extract, Markup.lex_eq, Markup.tokens, Markup.positioned, Walk.run, Walk.start,
    Walk.extraction, Extraction.ofNothing, applyEdits, inOrder]

/-- The assembled template of a component whose template has been extracted, and its
collections. -/
theorem of_templateOptions_compiled [Markup.Matching] {text : String} {x : Extraction}
    (extracts : extract h c text = .ok x) (nonempty : text ≠ "") {template : Option String}
    {collections : List String}
    (ok : templateOptions (.of metadata (some (Descriptor.make h c x).compiled)) =
      .ok (template, collections)) :
    collections = (List.range x.collections.length).map collectionId ∧
      ∃ result edits, template = some result ∧ Spliced 0 text.toList edits result.toList ∧
        ∀ hole ∈ loopHoles text, ∃ index < x.collections.length, ∃ clause,
          hole.content = .loop index clause ∧
            hole.put (bareClause clause.bindings (collectionId index)) ∈ edits := by
  have holds : (Descriptor.make h c x).compiled.isEmpty = false :=
    beq_false_of_ne (template_ne_empty extracts nonempty)
  simp only [templateOptions, ComponentDefinition.template_of, holds, Bool.false_eq_true, if_false] at ok
  obtain ⟨known, -, ok⟩ := exists_of_bind_ok ok
  obtain ⟨rfl, rfl⟩ := Prod.mk.inj (Except.ok.inj ok)
  obtain ⟨edits, rewritten, filled⟩ := exists_edits_of_extract extracts known
  refine ⟨collectionIds_compiled extracts, _, edits, rfl, rewritten, fun hole mem => ?_⟩
  obtain ⟨index, clause, -, content⟩ := mem_number mem
  have put := filled hole (List.mem_append_left _ mem)
  have recorded := recorded_of_extract extracts
  have record : (hole.content.id, hole.content.body) ∈
      x.collections.map fun collection => (collection.id, collection.body) := by
    rw [recorded.collections]
    exact List.mem_map_of_mem mem
  obtain ⟨collection, known, same⟩ := List.mem_map.mp record
  have named : collectionId index ∈ x.collections.map Collection.id := by
    refine List.mem_map.mpr ⟨collection, known, (Prod.mk.inj same).1.trans ?_⟩
    rw [content]
    rfl
  rw [recorded.collectionIds] at named
  obtain ⟨other, inRange, sameId⟩ := List.mem_map.mp named
  obtain rfl := name_injective _ sameId
  rw [content] at put
  exact ⟨other, List.mem_range.mp inRange, clause, content, put⟩

/-- What a component has been compiled from: an extraction, or nothing at all. -/
theorem compiled_cases [Markup.Matching] {template : Option String} {settings : Settings}
    {compiled : CompiledComponent}
    (compiles : compileComponent h c template settings = .ok compiled) :
    ((∀ text, template = some text → text = "") ∧
        ∃ source view, compiled = ⟨Descriptor.make h c .ofNothing, source, view⟩) ∨
      ∃ text x, template = some text ∧ text ≠ "" ∧ extract h c text = .ok x ∧
        ∃ source, compiled = ⟨Descriptor.make h c x, source, (Descriptor.make h c x).compiled⟩ := by
  cases template with
  | none => exact .inl ⟨nofun, _, _, (Except.ok.inj compiles).symm⟩
  | some text =>
    obtain ⟨x, extracts, rfl⟩ := compileComponent_eq_ok_iff.mp compiles
    by_cases empty : text = ""
    · subst empty
      obtain rfl := Except.ok.inj (extract_empty.symm.trans extracts)
      exact .inl ⟨fun text same => (Option.some.inj same).symm, _, _, rfl⟩
    · exact .inr ⟨text, x, rfl, empty, extracts, _, rfl⟩

/-- **The options of a compiled component agree about its collections.** They list all of them, bind
the instance's method of each, and their data, shared or copied, has its slot, whatever fields and
methods the component declares. In the assembled template the clause of every loop that has been
read names the slot of its collection. -/
theorem collections_of_assemble [Markup.Matching] {template : Option String} {settings : Settings}
    {compiled : CompiledComponent}
    (compiles : compileComponent h c template settings = .ok compiled)
    (metadata : ComponentType) {i : Instance} {r : Registry} {options : ComponentOptions}
    (ok : (assemble (compiled.definition metadata) i r).1 = .ok options) :
    options.collections =
        (List.range compiled.descriptor.collections.length).map collectionId ∧
      (∀ id ∈ options.collections, ∃ callable, i.method id = some callable ∧
        options.methods.get? id = some callable) ∧
      (∃ data, options.data.resolve = .ok data ∧
        Slotted compiled.descriptor.collections.length metadata.data data) ∧
      ∀ text, template = some text → text ≠ "" →
        ∃ result edits, options.template = some result ∧
          Spliced 0 text.toList edits result.toList ∧
            ∀ hole ∈ loopHoles text, ∃ index < compiled.descriptor.collections.length, ∃ clause,
              hole.content = .loop index clause ∧
                hole.put (bareClause clause.bindings (collectionId index)) ∈ edits := by
  have stages := assemble_eq_ok_iff.mp ok
  have resolved := stages.template
  have data := stages.data
  obtain ⟨bound, slots, methods⟩ := stages.methods
  have bindings : ∀ id ∈ options.collections, ∃ callable, i.method id = some callable ∧
      options.methods.get? id = some callable := by
    intro id mem
    obtain ⟨slot, there⟩ := get?_bindMembers slots id
    obtain ⟨declared, -⟩ := get?_bindMembers methods id
    obtain ⟨callable, method⟩ := Option.isSome_iff_exists.mp (there mem)
    rw [if_pos mem] at slot
    rw [slot, ite_self] at declared
    exact ⟨callable, method, declared.trans method⟩
  rcases compiled_cases compiles with ⟨empty, source, view, rfl⟩ |
    ⟨text, x, rfl, nonempty, extracts, source, rfl⟩
  · obtain ⟨-, none⟩ := Prod.mk.inj (Except.ok.inj resolved)
    rw [← none] at bindings data ⊢
    have noSlots : componentData _ i ((List.range 0).map collectionId) = .ok options.data := data
    refine ⟨rfl, bindings, slotted_of_componentData noSlots, fun text same nonempty => ?_⟩
    exact absurd (empty text same) nonempty
  · have hasTemplate : (Descriptor.make h c x).hasTemplate = true :=
      bne_iff_ne.mpr (template_ne_empty extracts nonempty)
    rw [CompiledComponent.definition, if_pos hasTemplate] at resolved
    obtain ⟨all, result, edits, template, rewritten, filled⟩ :=
      of_templateOptions_compiled extracts nonempty resolved
    rw [all] at data
    refine ⟨all, bindings, slotted_of_componentData data, fun other same _ => ?_⟩
    obtain rfl := Option.some.inj same
    exact ⟨result, edits, template, rewritten, filled⟩

end

/-- A component that declares a field and a method with the names of its collection. -/
def crowded : ComponentType :=
  { (default : ComponentType) with
    useFactory := true, data := [⟨"todos", "List"⟩, ⟨"col$0Array", "List"⟩],
    methods := [⟨"col$0", "List"⟩] }

/-- An instance of it. -/
def crowdedInstance : Instance :=
  .ofMaps (.ofList [("todos", .array [.string "a"]), ("col$0Array", .string "b")])
    (.ofList [("col$0", .const .null)])

/-- The slot of the collection is an empty array nevertheless. -/
theorem crowded_names_agree :
    ∃ compiled options data,
      compileComponent default default (some "<li v-for=\"t in todos\"></li>") default =
        .ok compiled ∧
      (assemble (compiled.definition crowded) crowdedInstance .empty).1 = .ok options ∧
      options.collections = ["col$0"] ∧ options.data.resolve = .ok data ∧
      data.get? "col$0Array" = some (.array []) ∧ data.keys.filter (· ∉ slots 1) = ["todos"] ∧
      options.template = some "<li v-for=\"t in col$0Array\"></li>" := by
  let x : Extraction :=
    ⟨"<li v-for=\"t in col$0Array\"></li>", [], [⟨"col$0", [], objectType, "todos"⟩]⟩
  let descriptor := Descriptor.make default default x
  have extracts : extract default default "<li v-for=\"t in todos\"></li>" = .ok x := by
    cbv
  have compiles := (@compileComponent_eq_ok_iff _ _ _ _ default _).mpr ⟨_, extracts, rfl⟩
  have template : (assemble ⟨crowded, some descriptor.compiled⟩ crowdedInstance .empty).1.map
      ComponentOptions.template = .ok (some "<li v-for=\"t in col$0Array\"></li>") := by
    decide +kernel
  cases assembles : (assemble ⟨crowded, some descriptor.compiled⟩ crowdedInstance .empty).1 with
  | error e => simp [assembles, Except.map] at template
  | ok options =>
    rw [assembles] at template
    obtain ⟨all, -, ⟨data, resolves, slotted⟩, -⟩ :=
      collections_of_assemble compiles crowded assembles
    refine ⟨_, options, data, compiles, assembles, all, resolves,
      slotted.slot "col$0Array" (by decide), slotted.others.trans (by decide),
      Except.ok.inj template⟩

end TemplateCompiler.Assembly
