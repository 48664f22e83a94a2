import Mathlib
import TemplateCompiler.Proofs.Extraction.Seams

/-!
# The shape of an extraction

The edits that extraction makes are pushed in the order in which sites are met and sorted before
they are applied, and nothing checks their spans when the text is cut. They need no check. Each
lies between characters and inside the token that it comes from, no two of them overlap, and the
extracted template is the authored one with exactly those spans replaced.

## Main definitions

* `Extraction.Shaped` — what records and edits have to do with the template
* `Extraction.Recorded` — the part of it that is about records

## Main statements

* `Extraction.shaped_of_extract` — every successful extraction is shaped
-/
namespace TemplateCompiler.Extraction

open Text Markup

/-! ## Order -/

/-- Places whose reaches come one after the other have spans that do. -/
theorem span_le_of_reach_le {a b : Place} (h : a.reach.stop ≤ b.reach.start) :
    a.span.stop ≤ b.span.start := by
  have := a.le_reach
  have := b.le_reach
  omega

/-- Numbered holes have the order of their places. -/
theorem ordered_number {α : Type} (make : Nat → α → Content) {sources : List (Place × α)}
    (order : (sources.map Prod.fst).Pairwise fun a b => a.reach.stop ≤ b.reach.start) :
    (number make sources).Pairwise fun a b => a.place.span.stop ≤ b.place.span.start := by
  rw [← map_place_number make] at order
  exact (List.pairwise_map.mp order).imp span_le_of_reach_le

/-- **Expressions are numbered in the order of the template.** -/
theorem ordered_expressionHoles [Matching] (template : String) :
    (expressionHoles template).Pairwise fun a b => a.place.span.stop ≤ b.place.span.start := by
  refine ordered_number .expression ?_
  rw [List.map_flatMap]
  refine pairwise_flatMap_places (fun _ _ h => h) ?_ ?_
  · intro located
    exact List.subset_append_right _ _
  · intro located mem
    cases kind : located.1.kind with
    | openTag =>
      simp only [expressionPlaces, kind, places_expressions]
      have sublist : (expressionAttributes
          (Element.ofTag located.1.text located.2.start).attributes).Sublist
            (Element.ofTag located.1.text located.2.start).attributes := List.filter_sublist
      exact (ordered_valuePlaces (spread_of_mem_lex mem kind)).sublist
        ((sublist.filterMap _).map _)
    | interpolation => simp [expressionPlaces, kind]
    | closeTag name => simp [expressionPlaces, kind]
    | unterminatedInterpolation | comment | text | stray => simp [expressionPlaces, kind]

/-- **Loops are numbered in the order of the template.** -/
theorem ordered_loopHoles [Matching] (template : String) :
    (loopHoles template).Pairwise fun a b => a.place.span.stop ≤ b.place.span.start := by
  refine ordered_number .loop ?_
  rw [List.map_flatMap]
  refine pairwise_flatMap_places (fun _ _ h => h) ?_ ?_
  · intro located
    exact List.subset_append_left _ _
  · -- a token has one loop at most
    intro located _
    rw [loopPlaces]
    split
    · cases loop : loopAttribute? (Element.ofTag located.1.text located.2.start).attributes with
      | none => simp
      | some a => cases hplace : loopPlace? a <;> simp [hplace]
    · simp

/-! ## Where edits lie -/

/-- An edit of a splice covers whole characters. -/
theorem covers_of_spliced {position : Nat} {text result : List Char} {edits : List Edit}
    (h : Spliced position text edits result) {edit : Edit} (mem : edit ∈ edits) :
    ∃ stretch, Covers position text edit.span stretch := by
  induction h with
  | nil => simp at mem
  | keep c _ ih =>
    obtain ⟨stretch, covers⟩ := ih mem
    exact ⟨stretch, Covers.behind [c] (by simpa using covers)⟩
  | replace old new _ ih =>
    rcases List.mem_cons.mp mem with rfl | mem
    · exact ⟨old, [], _, rfl, rfl⟩
    · obtain ⟨stretch, covers⟩ := ih mem
      exact ⟨stretch, covers.behind old⟩

/-- A token is edited inside its span. -/
theorem editedSpans_inside [Matching] {template : String} {located : Token × Span} {span : Span}
    (mem : located ∈ lex template) (edited : some span ∈ editedSpans located) :
    located.2.start ≤ span.start ∧ span.stop ≤ located.2.stop := by
  cases kind : located.1.kind with
  | interpolation =>
    simp only [editedSpans, kind, List.mem_singleton, Option.some.injEq] at edited
    rw [edited]
    exact ⟨Nat.le_refl _, Nat.le_refl _⟩
  | openTag =>
    simp only [editedSpans, kind, List.mem_map, Option.map_eq_some_iff] at edited
    obtain ⟨a, ha, value, hvalue, rfl⟩ := edited
    have inTag : value ∈ valuesOf (Element.ofTag located.1.text located.2.start).attributes :=
      List.mem_filterMap.mpr ⟨a, (edited_subperm _).subset ha, hvalue⟩
    have frame := (framed_of_fenced ((spread_of_mem_lex mem kind).fenced value inTag)).le
    have reach := (valuePlace value).le_reach
    have stop := (covers_of_mem_lex mem).le.2.1
    simp only [valuePlace] at reach frame
    omega
  | closeTag name => simp [editedSpans, kind] at edited
  | unterminatedInterpolation | comment | text | stray => simp [editedSpans, kind] at edited

/-! ## The shape -/

/-- What the records of an extraction and the edits that it makes have to do with the template. -/
structure Shaped [Matching] (template : String) (edits : List Edit) (x : Extraction) : Prop where
  /-- Expressions have the numbers from zero on. -/
  expressionIds : x.expressions.map Expression.id =
    (List.range x.expressions.length).map Placeholder.expressionId
  /-- Collections have the numbers from zero on. -/
  collectionIds : x.collections.map Collection.id =
    (List.range x.collections.length).map Placeholder.collectionId
  /-- There is a record for every expression that the tokens hold, in the order of the template. -/
  expressions : x.expressions.map (fun e => (e.id, e.body)) =
    (expressionHoles template).map fun hole => (hole.content.id, hole.content.body)
  expressionOrder : (expressionHoles template).Pairwise
    fun a b => a.place.span.stop ≤ b.place.span.start
  /-- There is a record for every loop that the tokens hold, in the order of the template. -/
  collections : x.collections.map (fun c => (c.id, c.body)) =
    (loopHoles template).map fun hole => (hole.content.id, hole.content.body)
  collectionOrder : (loopHoles template).Pairwise
    fun a b => a.place.span.stop ≤ b.place.span.start
  /-- There is one edit for every interpolation, for every attribute that takes an expression and
  for the first loop directive of every element that has one. -/
  oneEach : edits.map (fun edit => some edit.span) = (lex template).flatMap editedSpans
  /-- Every edit puts a placeholder into a hole. -/
  placeholders : edits.Perm
    ((holes template).map fun hole => hole.put hole.content.placeholder)
  disjoint : edits.Pairwise fun a b => a.span.stop ≤ b.span.start ∨ b.span.stop ≤ a.span.start
  /-- Every edit lies in the template and on character boundaries. -/
  covers : ∀ edit ∈ edits, ∃ stretch, Covers 0 template.toList edit.span stretch
  /-- Every edit lies in the token that it comes from. -/
  inside : ∀ located ∈ lex template, ∀ span, some span ∈ editedSpans located →
    located.2.start ≤ span.start ∧ span.stop ≤ located.2.stop
  /-- The extracted template is the authored one with those spans replaced, and putting the old
  slices back restores it. -/
  spliced : ∃ ordered : List Edit, ordered.Perm edits ∧
    Spliced 0 template.toList ordered x.template.toList ∧
      ∃ backs, List.Forall₂ (Restores 0 0 template.toList x.template.toList) ordered backs ∧
        Spliced 0 x.template.toList backs template.toList

variable {h : TypeHierarchy} {c : ComponentType} {template : String} {x : Extraction}

/-- The records of an extraction are those of the holes, numbered from zero on. -/
structure Recorded [Matching] (template : String) (x : Extraction) : Prop where
  expressionIds : x.expressions.map Expression.id =
    (List.range x.expressions.length).map Placeholder.expressionId
  collectionIds : x.collections.map Collection.id =
    (List.range x.collections.length).map Placeholder.collectionId
  expressions : x.expressions.map (fun e => (e.id, e.body)) =
    (expressionHoles template).map fun hole => (hole.content.id, hole.content.body)
  collections : x.collections.map (fun c => (c.id, c.body)) =
    (loopHoles template).map fun hole => (hole.content.id, hole.content.body)

theorem recorded_of_extract [Matching] (ok : extract h c template = .ok x) : Recorded template x := by
  have took := took_walkOver ok
  obtain ⟨-, rfl⟩ := extract_eq_ok_iff.mp ok
  exact ⟨took.expressionIds, took.collectionIds, took.records, took.collections⟩

/-- **Every successful extraction is shaped.** -/
theorem shaped_of_extract [Matching] (ok : extract h c template = .ok x) :
    Shaped template (walkOver h c template).edits x := by
  have took := took_walkOver ok
  obtain ⟨seams, tail, all, sewn⟩ := exists_sewn template
  obtain ⟨-, rfl⟩ := extract_eq_ok_iff.mp ok
  obtain ⟨ordered, same, spliced⟩ :=
    rewrites_fill all sewn fun hole => hole.content.placeholder
  rw [← template_of_extract ok all sewn] at spliced
  have perm : ordered.Perm (walkOver h c template).edits := same.trans took.edits.symm
  obtain ⟨backs, back, restores⟩ := spliced.exists_restore 0
  exact
    { expressionIds := took.expressionIds
      collectionIds := took.collectionIds
      expressions := took.records
      expressionOrder := ordered_expressionHoles template
      collections := took.collections
      collectionOrder := ordered_loopHoles template
      oneEach := took.spans
      placeholders := took.edits
      disjoint := perm.pairwise (spliced.ordered.imp Or.inl) Or.symm
      covers := fun edit mem => covers_of_spliced spliced (perm.symm.subset mem)
      inside := fun located mem span edited => editedSpans_inside mem edited
      spliced := ⟨_, perm, spliced, backs, restores, back⟩ }

/-- A loop behind another attribute of its element, a value without quotes, and text that takes
more bytes than characters. -/
theorem shaped_loop_behind_binding :
    ∃ x, extract default default "<a :b=c v-for='c in d'>{{ é }}</a>" = .ok x ∧
      Shaped "<a :b=c v-for='c in d'>{{ é }}</a>"
        (walkOver default default "<a :b=c v-for='c in d'>{{ é }}</a>").edits x := by
  have ok : extract default default "<a :b=c v-for='c in d'>{{ é }}</a>" =
      .ok ⟨"<a :b=exp$0 v-for='c in col$0Array'>{{ exp$1 }}</a>",
        [⟨"exp$0", .getter, [⟨"c", objectType⟩], objectType, "c"⟩,
          ⟨"exp$1", .getter, [⟨"c", objectType⟩], "String", "é"⟩],
        [⟨"col$0", [], objectType, "d"⟩]⟩ := by
    cbv
  exact ⟨_, ok, shaped_of_extract ok⟩

end TemplateCompiler.Extraction
