import TemplateCompiler.Proofs.Assembly.RoundTrip
import TemplateCompiler.Proofs.Markup.ClauseReading

/-!
# Accessors without a body

Every method of the compiled view should have the shape of a function around an expression. A text
that is not empty may be so once it is cleaned, because one semicolon at its end is dropped. The
expressions of interpolations and directives are looked at after they have been cleaned. The
collection of a loop is looked at before, when its clause is read. So a loop over nothing but a
semicolon has an accessor without a body, and these accessors are the only ones that are not
recognised.

## Main definitions

* `Extraction.loopClauses` — the clauses of the loops of a template
* `Accessor.Recognised` — the methods of a compiled view that have the shape of accessors

## Main statements

* `cleanBody_eq_nil_iff` — the trimmed text of which nothing is left
* `Accessor.isSome_expression?_iff` — sources with a body are recognised, and no others
* `Accessor.recognised_unless_semicolon` — which accessors of an extraction are recognised
-/
namespace TemplateCompiler

open Text Markup

/-! ## Collections -/

/-- Nothing is left of a trimmed text exactly if it is a semicolon. -/
theorem cleanBody_eq_nil_iff {text : List Char} (trimmed : Trimmed text) :
    cleanBody text = [] ↔ text = [';'] := by
  constructor
  · intro empty
    rw [cleanBody, trimmed.trim_eq] at empty
    cases hbefore : before? [';'] text with
    | none =>
      rw [hbefore, Option.getD_none, trimmed.trimEnd_eq] at empty
      exact absurd empty trimmed.ne_nil
    | some front =>
      rw [hbefore, Option.getD_some] at empty
      have split := before?_eq_some_iff.mp hbefore
      by_contra other
      have nonempty : front ≠ [] := by
        rintro rfl
        exact other split
      -- what is in front of the semicolon begins as the text does
      have first := first_of_prefix ⟨[';'], split.symm⟩ nonempty trimmed.first
      exact (trimmed_trimEnd first).ne_nil empty
  · rintro rfl
    rfl

namespace Extraction

variable {h : TypeHierarchy} {c : ComponentType} {template : String} {x : Extraction}

/-- The clauses of the loops of a template, in its order. -/
def loopClauses [Matching] (template : String) : List LoopClause :=
  ((lex template).flatMap loopPlaces).map Prod.snd

theorem trimmed_of_mem_loopClauses [Matching] {clause : LoopClause} (mem : clause ∈ loopClauses template) :
    Trimmed clause.collection.text.toList := by
  obtain ⟨⟨place, clause⟩, inPlaces, rfl⟩ := List.mem_map.mp mem
  obtain ⟨located, -, inToken⟩ := List.mem_flatMap.mp inPlaces
  obtain ⟨text, read⟩ := exists_read_of_mem_loopPlaces inToken
  exact (read_eq_ok_iff.mp read).trimmed_collection

/-- The body that is taken out of a clause. -/
def collectionBody (clause : LoopClause) : String :=
  String.ofList (cleanBody clause.collection.text.toList)

/-- The bodies of collections are those of the clauses. -/
theorem bodies_of_extract [Matching] (ok : extract h c template = .ok x) :
    x.collections.map Collection.body = (loopClauses template).map collectionBody := by
  have bodies := congrArg (List.map Prod.snd) (took_walkOver ok).collections
  obtain ⟨-, rfl⟩ := extract_eq_ok_iff.mp ok
  rw [List.map_map, List.map_map] at bodies
  rw [loopClauses, List.map_map]
  exact bodies.trans (map_number .loop (fun _ _ => rfl) _)

/-- Bodies of collections are trimmed, if there is anything of them. -/
theorem trimmed_of_collection [Matching] (ok : extract h c template = .ok x) {k : Collection}
    (mem : k ∈ x.collections) (nonempty : k.body ≠ "") : Trimmed k.body.toList := by
  have inBodies : k.body ∈ x.collections.map Collection.body := List.mem_map_of_mem mem
  rw [bodies_of_extract ok] at inBodies
  obtain ⟨clause, -, same⟩ := List.mem_map.mp inBodies
  rw [← same] at nonempty ⊢
  rw [collectionBody, ne_eq, String.ofList_eq_empty_iff] at nonempty
  rw [collectionBody, String.toList_ofList]
  exact trimmed_cleanBody nonempty

/-- A collection has no body exactly if its clause has nothing but a semicolon for it. -/
theorem collectionBody_eq_empty_iff {clause : LoopClause}
    (trimmed : Trimmed clause.collection.text.toList) :
    collectionBody clause = "" ↔ clause.collection.text = ";" := by
  rw [collectionBody, String.ofList_eq_empty_iff, cleanBody_eq_nil_iff trimmed,
    ← String.toList_inj]
  rfl

end Extraction

namespace Accessor

open Extraction

/-! ## Recognition -/

/-- **Sources with a body are recognised, and no others.** -/
theorem isSome_expression?_iff {parameters : List Parameter} (names : NoParenthesis parameters)
    (shape : ReturnShape) {body : String} (trimmed : body ≠ "" → Trimmed body.toList) :
    (expression? (compiledSource parameters shape body)).isSome ↔ body ≠ "" := by
  constructor
  · rintro some rfl
    rw [expression?, functionInner?_compiledSource names] at some
    cases shape <;> cases some
  · intro nonempty
    by_cases returns : shape = .statement ∧ BeginsWithReturn body.toList
    · obtain ⟨rfl, blank, rest, begins, isBlank⟩ := returns
      rw [expression?_of_return names (trimmed nonempty) begins isBlank]
      rfl
    · rw [expression?_of_not_return names (trimmed nonempty) returns]
      rfl

/-- The compiled view has a method of that name, which has the shape of an accessor. -/
def Recognised (view : CompiledTemplate) (id : String) : Prop :=
  ∃ source, view.methods.get? id = some source ∧ (expression? source).isSome

variable {h : TypeHierarchy} {c : ComponentType} {template : String} {x : Extraction}

theorem recognised_expression [Matching] (ok : extract h c template = .ok x) {e : Expression}
    (mem : e ∈ x.expressions) : Recognised (Descriptor.make h c x).compiled e.id := by
  have trimmed := trimmed_of_extract ok mem
  have nonempty : e.body ≠ "" := fun empty => trimmed.ne_nil (by rw [empty]; rfl)
  refine ⟨_, Assembly.get?_methods_compiled ok mem, ?_⟩
  exact (isSome_expression?_iff (parameters_of_extract ok mem) _ fun _ => trimmed).mpr nonempty

theorem recognised_collection_iff [Matching] (ok : extract h c template = .ok x) {k : Collection}
    (mem : k ∈ x.collections) :
    Recognised (Descriptor.make h c x).compiled k.id ↔ k.body ≠ "" := by
  have found := Assembly.get?_methods_of_mem ok (a := ofCollection k)
    (List.mem_append_right _ (List.mem_map_of_mem mem))
  have source : (expression? (ofCollection k).compiled).isSome ↔ k.body ≠ "" :=
    isSome_expression?_iff (parameters_of_collection ok mem) _ (trimmed_of_collection ok mem)
  rw [← source, Recognised]
  rw [id_ofCollection] at found
  rw [found]
  simp

/-- The methods of the compiled view are named after the expressions and the collections. -/
theorem forall_mem_keys_methods_iff [Matching] (ok : extract h c template = .ok x) {P : String → Prop} :
    (∀ id ∈ (Descriptor.make h c x).compiled.methods.keys, P id) ↔
      (∀ e ∈ x.expressions, P e.id) ∧ ∀ k ∈ x.collections, P k.id := by
  rw [OrderedMap.keys, Assembly.entries_methods ok]
  simp [entryKeys, Descriptor.accessors, Descriptor.make, or_imp, forall_and]

/-- **Accessors are recognised unless they are of loops over nothing but a semicolon.** The bodies
of expressions have no blanks at their ends and are not empty, and their accessors are recognised.
So it is with collections, those without a body excepted. These are the ones whose clauses have
only a semicolon for the collection, and all methods are recognised if there is no such clause. -/
theorem recognised_unless_semicolon [Matching] (ok : extract h c template = .ok x) :
    (∀ e ∈ x.expressions, Trimmed e.body.toList ∧
        Recognised (Descriptor.make h c x).compiled e.id) ∧
      (∀ k ∈ x.collections, (k.body ≠ "" → Trimmed k.body.toList) ∧
        (Recognised (Descriptor.make h c x).compiled k.id ↔ k.body ≠ "")) ∧
      (x.collections.map fun k => k.body == "") =
        ((loopClauses template).map fun clause => clause.collection.text == ";") ∧
      ((∀ id ∈ (Descriptor.make h c x).compiled.methods.keys,
          Recognised (Descriptor.make h c x).compiled id) ↔
        ∀ clause ∈ loopClauses template, clause.collection.text ≠ ";") := by
  have expressions : ∀ e ∈ x.expressions, Recognised (Descriptor.make h c x).compiled e.id :=
    fun e => recognised_expression ok
  have empties : (x.collections.map fun k => k.body == "") =
      (loopClauses template).map fun clause => clause.collection.text == ";" := by
    have bodies := congrArg (List.map (· == "")) (bodies_of_extract ok)
    rw [List.map_map, List.map_map] at bodies
    refine bodies.trans (List.map_congr_left fun clause mem => ?_)
    rw [Bool.eq_iff_iff, Function.comp_apply, beq_iff_eq, beq_iff_eq]
    exact collectionBody_eq_empty_iff (trimmed_of_mem_loopClauses mem)
  refine ⟨fun e mem => ⟨trimmed_of_extract ok mem, expressions e mem⟩,
    fun k mem => ⟨trimmed_of_collection ok mem, recognised_collection_iff ok mem⟩, empties, ?_⟩
  have none : (∀ k ∈ x.collections, k.body ≠ "") ↔
      ∀ clause ∈ loopClauses template, clause.collection.text ≠ ";" := by
    have absent := not_congr (Iff.of_eq (congrArg (true ∈ ·) empties))
    simpa using absent
  rw [forall_mem_keys_methods_iff ok, ← none, and_iff_right expressions]
  exact forall₂_congr fun k mem => recognised_collection_iff ok mem

/-- A loop over an expression with a semicolon behind it, and what stands in it. -/
theorem loop_is_recognised :
    ∃ x, extract default default "<li v-for=\"a in b();\">{{ a }}</li>" = .ok x ∧
      ∀ id ∈ (Descriptor.make default default x).compiled.methods.keys,
        Recognised (Descriptor.make default default x).compiled id := by
  have ok : extract default default "<li v-for=\"a in b();\">{{ a }}</li>" =
      .ok ⟨"<li v-for=\"a in col$0Array\">{{ exp$0 }}</li>",
        [⟨"exp$0", .getter, [⟨"a", objectType⟩], "String", "a"⟩],
        [⟨"col$0", [], objectType, "b()"⟩]⟩ := by
    cbv
  refine ⟨_, ok, (recognised_unless_semicolon ok).2.2.2.mpr ?_⟩
  decide +kernel

/-- A loop over nothing but a semicolon is extracted, and its accessor has no body. -/
theorem semicolon_is_not_recognised :
    ∃ x k, extract default default "<i v-for=\"a in ;\"></i>" = .ok x ∧ k ∈ x.collections ∧
      k.body = "" ∧ ¬ Recognised (Descriptor.make default default x).compiled k.id := by
  have ok : extract default default "<i v-for=\"a in ;\"></i>" =
      .ok ⟨"<i v-for=\"a in col$0Array\"></i>", [], [⟨"col$0", [], objectType, ""⟩]⟩ := by
    cbv
  refine ⟨_, _, ok, List.mem_cons_self, rfl, fun recognised => ?_⟩
  exact (recognised_collection_iff ok List.mem_cons_self).mp recognised rfl

end Accessor

end TemplateCompiler
