import Mathlib.Data.List.Perm.Basic
import TemplateCompiler.Accessor.Recovery
import TemplateCompiler.Extraction.Walk

/-!
# Holes

What extraction takes out of a template leaves a hole in it. Which holes a template has can be
read off its tokens one by one: neither the scopes that are open nor the component decide it. They
are numbered in the order of the template, the expressions apart from the loops. This module says
what the holes are without mentioning the walk, and then that the walk finds exactly these.

## Main definitions

* `Extraction.Place` — where a text is replaced, and the edit that puts another one there
* `Extraction.Hole` — a place with what has been taken out of it
* `Extraction.holes` — the holes of a template
* `Extraction.editedSpans` — where a token is edited
* `Extraction.Took` — what a walk has taken out so far

## Main statements

* `Extraction.Took.step` — a step of the walk takes out what its token holds
* `Extraction.took_walkOver` — a walk over a template without problems takes out its holes
-/
namespace TemplateCompiler.Extraction

open Text Markup

/-! ## Places -/

/-- A place in a template whose text is replaced. -/
structure Place where
  span : Span
  /-- The double braces of an interpolation belong to the place. -/
  braced : Bool
  deriving DecidableEq, Repr

/-- The edit that puts a text into the place. Braces that belong to it are written again. -/
def Place.put (place : Place) (text : String) : Edit :=
  ⟨place.span, if place.braced then "\x7b\x7b " ++ text ++ " \x7d\x7d" else text⟩

@[simp] theorem Place.span_put (place : Place) (text : String) :
    (place.put text).span = place.span := rfl

/-- The expression in an attribute and its place. -/
def expressionPlace? (a : Attribute) : Option (Place × String) :=
  a.value.map fun value => (⟨value.span, false⟩, String.ofList (cleanBody value.text.toList))

/-- The clause of the loop in an attribute and its place. -/
def loopPlace? (a : Attribute) : Option (Place × LoopClause) :=
  a.value.bind fun value =>
    (value? (LoopClause.read value.text)).map fun clause => (⟨value.span, false⟩, clause)

/-- The expressions in a token and their places: that of an interpolation, and those in the
attributes of an opening tag. -/
def expressionPlaces (located : Token × Span) : List (Place × String) :=
  match located.1.kind with
  | .interpolation => [(⟨located.2, true⟩, String.ofList (interpolationBody located.1))]
  | .openTag =>
    (expressionAttributes
      (Element.ofTag located.1.text located.2.start).attributes).filterMap expressionPlace?
  | _ => []

/-- The loop in a token: that of the first loop directive of an opening tag. -/
def loopPlaces (located : Token × Span) : List (Place × LoopClause) :=
  match located.1.kind with
  | .openTag =>
    (loopAttribute?
      (Element.ofTag located.1.text located.2.start).attributes).toList.filterMap loopPlace?
  | _ => []

/-- Where a token is edited: an interpolation as a whole, and an opening tag at the value of its
first loop directive and at those of all directives that take an expression. There is an entry for
each of these attributes, which is `none` if it has no value. -/
def editedSpans (located : Token × Span) : List (Option Span) :=
  match located.1.kind with
  | .interpolation => [some located.2]
  | .openTag =>
    let attributes := (Element.ofTag located.1.text located.2.start).attributes
    ((loopAttribute? attributes).toList ++ expressionAttributes attributes).map fun a =>
      a.value.map Located.span
  | _ => []

/-! ## Holes -/

/-- What has been taken out of a hole, with its number. -/
inductive Content where
  | expression (index : Nat) (body : String)
  | loop (index : Nat) (clause : LoopClause)
  deriving DecidableEq, Repr

namespace Content

/-- The name of the expression or of the collection. -/
def id : Content → String
  | expression index _ => Placeholder.expressionId index
  | loop index _ => Placeholder.collectionId index

/-- The expression, or the source of the loop. -/
def body : Content → String
  | expression _ body => body
  | loop _ clause => String.ofList (cleanBody clause.collection.text.toList)

/-- What the extracted template has in the hole: the name of the expression, or the clause by
which the engine finds the data slot of the collection. -/
def placeholder : Content → String
  | expression index _ => Placeholder.expressionId index
  | loop index clause => bareClause clause.bindings (Placeholder.collectionId index)

/-- What the assembled template has in the hole. -/
def resolved : Content → String
  | expression _ body => Accessor.stripQualifiers body
  | loop index clause => bareClause clause.bindings (Placeholder.collectionId index)

end Content

/-- A place with what has been taken out of it. -/
structure Hole where
  place : Place
  content : Content
  deriving DecidableEq, Repr

/-- The edit that puts a text into the hole. -/
def Hole.put (hole : Hole) (text : String) : Edit := hole.place.put text

@[simp] theorem Hole.span_put (hole : Hole) (text : String) :
    (hole.put text).span = hole.place.span := rfl

/-- Number what has been taken out of places, in its order. -/
def number {α : Type} (make : Nat → α → Content) (sources : List (Place × α)) : List Hole :=
  sources.zipIdx.map fun (source, index) => ⟨source.1, make index source.2⟩

/-- The holes that expressions leave in a template, in its order. -/
def expressionHoles [Matching] (template : String) : List Hole :=
  number .expression ((lex template).flatMap expressionPlaces)

/-- The holes that loops leave in a template, in its order. -/
def loopHoles [Matching] (template : String) : List Hole :=
  number .loop ((lex template).flatMap loopPlaces)

/-- The holes of a template. -/
def holes [Matching] (template : String) : List Hole := loopHoles template ++ expressionHoles template

theorem number_concat {α : Type} (make : Nat → α → Content) (sources : List (Place × α))
    (place : Place) (value : α) :
    number make (sources ++ [(place, value)]) =
      number make sources ++ [⟨place, make sources.length value⟩] := by
  simp [number, List.zipIdx_append]

theorem mem_number {α : Type} {make : Nat → α → Content} {sources : List (Place × α)} {hole : Hole}
    (mem : hole ∈ number make sources) :
    ∃ index value, (hole.place, value) ∈ sources ∧ hole.content = make index value := by
  obtain ⟨⟨⟨place, value⟩, index⟩, inSources, rfl⟩ := List.mem_map.mp mem
  exact ⟨index, value, List.fst_mem_of_mem_zipIdx inSources, rfl⟩

/-- The clause in a place has been read from the loop attribute of the token. -/
theorem exists_attribute_of_mem_loopPlaces {located : Token × Span} {place : Place}
    {clause : LoopClause} (mem : (place, clause) ∈ loopPlaces located) :
    ∃ a ∈ loopAttribute? (Element.ofTag located.1.text located.2.start).attributes,
      ∃ value ∈ a.value, place = ⟨value.span, false⟩ ∧
        LoopClause.read value.text = .ok clause := by
  rw [loopPlaces] at mem
  split at mem
  · obtain ⟨a, loop, ha⟩ := List.mem_filterMap.mp mem
    obtain ⟨value, hvalue, ha⟩ := Option.bind_eq_some_iff.mp ha
    obtain ⟨read, hread, same⟩ := Option.map_eq_some_iff.mp ha
    obtain ⟨rfl, rfl⟩ := Prod.mk.inj same
    refine ⟨a, Option.mem_toList.mp loop, value, hvalue, rfl, ?_⟩
    cases hclause : LoopClause.read value.text with
    | error problem => simp [hclause, value?] at hread
    | ok other => simpa [hclause, value?] using hread
  · simp at mem

theorem exists_read_of_mem_loopPlaces {located : Token × Span} {place : Place} {clause : LoopClause}
    (mem : (place, clause) ∈ loopPlaces located) :
    ∃ text, LoopClause.read text = .ok clause := by
  obtain ⟨-, -, value, -, -, read⟩ := exists_attribute_of_mem_loopPlaces mem
  exact ⟨value.text, read⟩

/-- What is read off numbered holes without their numbers can be read off the sources. -/
theorem map_number {α β : Type} (make : Nat → α → Content) {read : Hole → β}
    {readSource : Place × α → β}
    (same : ∀ index source, read ⟨source.1, make index source.2⟩ = readSource source)
    (sources : List (Place × α)) : (number make sources).map read = sources.map readSource := by
  have sources_eq : sources.map readSource = (sources.zipIdx.map Prod.fst).map readSource := by
    rw [List.zipIdx_map_fst]
  rw [number, sources_eq, List.map_map, List.map_map]
  apply List.map_congr_left
  intro entry _
  exact same _ _

theorem map_place_number {α : Type} (make : Nat → α → Content) (sources : List (Place × α)) :
    (number make sources).map Hole.place = sources.map Prod.fst :=
  map_number make (fun _ _ => rfl) sources

/-- Texts that the numbers decide, such as the names of what is numbered. -/
theorem map_content_number {α : Type} (make : Nat → α → Content) (text : Content → String)
    {name : Nat → String} (named : ∀ index value, text (make index value) = name index)
    (sources : List (Place × α)) :
    (number make sources).map (fun hole => text hole.content) =
      (List.range sources.length).map name := by
  have indices : List.range sources.length = sources.zipIdx.map Prod.snd := by
    rw [List.zipIdx_map_snd, List.range_eq_range']
  rw [number, indices, List.map_map, List.map_map]
  apply List.map_congr_left
  intro entry _
  exact named _ _

/-! ## Attributes without problems -/

/-- An attribute whose expression can be read has a value with an expression in it. -/
theorem exists_value_of_readExpression {a : Attribute} (ok : problem? (readExpression a) = none) :
    ∃ value, a.value = some value ∧ cleanBody value.text.toList ≠ [] ∧
      readExpression a = .ok (.expression value.span a.directive
        (String.ofList (cleanBody value.text.toList))) := by
  cases hvalue : a.value with
  | none => simp [readExpression, hvalue, problem?] at ok
  | some value =>
    by_cases empty : cleanBody value.text.toList = []
    · simp [readExpression, hvalue, empty, problem?] at ok
    · exact ⟨value, rfl, empty, by simp [readExpression, hvalue, empty]⟩

/-- An attribute whose loop can be read has a value with a clause in it. -/
theorem exists_clause_of_readLoop {a : Attribute} (ok : problem? (readLoop a) = none) :
    ∃ value clause, a.value = some value ∧ LoopClause.read value.text = .ok clause ∧
      readLoop a = .ok (.loop value.span clause) := by
  cases hvalue : a.value with
  | none => simp [readLoop, hvalue, problem?] at ok
  | some value =>
    cases hread : LoopClause.read value.text with
    | error problem => simp [readLoop, hvalue, hread, problem?] at ok
    | ok clause => exact ⟨value, clause, rfl, hread, by simp [readLoop, hvalue, hread]⟩

/-- The sites of tokens come one token after the other. -/
theorem filterMap_site?_cons (located : Token × Span) (rest : List (Token × Span)) :
    (located :: rest).filterMap site? = (site? located).toList ++ rest.filterMap site? := by
  cases hsite : site? located <;> simp [hsite]

/-! ## What a walk takes out -/

/-- What a walk has taken out so far. Expressions and loops are numbered in the order in which the
walk met them, and their placeholders are put in their places. -/
structure Took (w : Walk) (expressions : List (Place × String))
    (loops : List (Place × LoopClause)) (spans : List (Option Span)) : Prop where
  records : w.expressions.map (fun e => (e.id, e.body)) =
    (number .expression expressions).map fun hole => (hole.content.id, hole.content.body)
  collections : w.collections.map (fun c => (c.id, c.body)) =
    (number .loop loops).map fun hole => (hole.content.id, hole.content.body)
  edits : w.edits.Perm ((number .loop loops ++ number .expression expressions).map fun hole =>
    hole.put hole.content.placeholder)
  spans : w.edits.map (fun edit => some edit.span) = spans

namespace Took

variable {w : Walk} {expressions : List (Place × String)}
  {loops : List (Place × LoopClause)} {spans : List (Option Span)}

theorem start : Took .start [] [] [] := ⟨rfl, rfl, .refl _, rfl⟩

/-- Scopes have no part in what is taken out. -/
theorem scopes (h : Took w expressions loops spans) (scopes : List Scope) :
    Took { w with scopes } expressions loops spans :=
  ⟨h.records, h.collections, h.edits, h.spans⟩

theorem length_expressions (h : Took w expressions loops spans) :
    w.expressions.length = expressions.length := by
  simpa [number] using congrArg List.length h.records

theorem length_collections (h : Took w expressions loops spans) :
    w.collections.length = loops.length := by
  simpa [number] using congrArg List.length h.collections

/-- Expressions have the numbers from zero on. -/
theorem expressionIds (h : Took w expressions loops spans) :
    w.expressions.map Expression.id =
      (List.range w.expressions.length).map Placeholder.expressionId := by
  have ids := congrArg (List.map Prod.fst) h.records
  rw [List.map_map, List.map_map] at ids
  rw [h.length_expressions]
  exact ids.trans (map_content_number .expression Content.id (fun _ _ => rfl) expressions)

/-- Collections have the numbers from zero on. -/
theorem collectionIds (h : Took w expressions loops spans) :
    w.collections.map Collection.id =
      (List.range w.collections.length).map Placeholder.collectionId := by
  have ids := congrArg (List.map Prod.fst) h.collections
  rw [List.map_map, List.map_map] at ids
  rw [h.length_collections]
  exact ids.trans (map_content_number .loop Content.id (fun _ _ => rfl) loops)

/-- One more expression. -/
theorem take (h : Took w expressions loops spans) (place : Place)
    {replacement : String → String} (put : ∀ id, (place.put id).replacement = replacement id)
    (kind : ExpressionKind) (parameters : List Parameter) (returnType body : String) :
    Took (w.take place.span replacement kind parameters returnType body)
      (expressions ++ [(place, body)]) loops (spans ++ [some place.span]) where
  records := by
    simp [Walk.take, number_concat, h.records, h.length_expressions, Content.id, Content.body]
  collections := h.collections
  edits := by
    simp only [Walk.take, h.length_expressions, ← put]
    rw [number_concat, ← List.append_assoc, List.map_append]
    exact h.edits.append_right _
  spans := by simp [Walk.take, h.spans]

/-- One more loop. -/
theorem takeCollection (h : Took w expressions loops spans) (c : ComponentType) (span : Span)
    (clause : LoopClause) (parameters : List Parameter) :
    Took (w.takeCollection c span clause parameters) expressions
      (loops ++ [(⟨span, false⟩, clause)]) (spans ++ [some span]) where
  records := h.records
  collections := by
    simp [Walk.takeCollection, number_concat, h.collections, h.length_collections, Content.id,
      Content.body]
  edits := by
    simp only [Walk.takeCollection, h.length_collections]
    rw [number_concat, List.append_assoc, List.map_append]
    refine (h.edits.append_right _).trans ?_
    rw [List.map_append, List.append_assoc, List.map_append]
    exact (List.perm_append_comm).append_left _
  spans := by simp [Walk.takeCollection, h.spans]

/-- The loop in an attribute that has no problem. -/
theorem slot_loop (hierarchy : TypeHierarchy) (c : ComponentType) (outer inner : List Parameter)
    {a : Attribute} (ok : problem? (readLoop a) = none) (h : Took w expressions loops spans) :
    Took (([readLoop a].filterMap value?).foldl (Walk.slot hierarchy c outer inner) w) expressions
      (loops ++ [a].filterMap loopPlace?) (spans ++ [a.value.map Located.span]) := by
  obtain ⟨value, clause, hvalue, hread, hslot⟩ := exists_clause_of_readLoop ok
  have place : loopPlace? a = some (⟨value.span, false⟩, clause) := by
    simp [loopPlace?, hvalue, hread, value?]
  simp only [hslot, hvalue, place, value?, List.filterMap_cons, List.filterMap_nil,
    List.foldl_cons, List.foldl_nil]
  exact h.takeCollection c value.span clause outer

/-- The expression in an attribute that has no problem. -/
theorem slot_expression (hierarchy : TypeHierarchy) (c : ComponentType)
    (outer inner : List Parameter) {a : Attribute} (ok : problem? (readExpression a) = none)
    (h : Took w expressions loops spans) :
    Took (([readExpression a].filterMap value?).foldl (Walk.slot hierarchy c outer inner) w)
      (expressions ++ [a].filterMap expressionPlace?) loops
      (spans ++ [a.value.map Located.span]) := by
  obtain ⟨value, hvalue, -, hslot⟩ := exists_value_of_readExpression ok
  have place : expressionPlace? a =
      some (⟨value.span, false⟩, String.ofList (cleanBody value.text.toList)) := by
    simp [expressionPlace?, hvalue]
  simp only [hslot, hvalue, place, value?, List.filterMap_cons, List.filterMap_nil,
    List.foldl_cons, List.foldl_nil]
  exact h.take ⟨value.span, false⟩ (fun _ => rfl) _ _ _ _

/-- The expressions in attributes that have no problem. -/
theorem slots_expressions (hierarchy : TypeHierarchy) (c : ComponentType)
    (outer inner : List Parameter) {attributes : List Attribute}
    (ok : ∀ a ∈ attributes, problem? (readExpression a) = none)
    (h : Took w expressions loops spans) :
    Took (((attributes.map readExpression).filterMap value?).foldl
        (Walk.slot hierarchy c outer inner) w)
      (expressions ++ attributes.filterMap expressionPlace?) loops
      (spans ++ attributes.map fun a => a.value.map Located.span) := by
  induction attributes generalizing w expressions spans with
  | nil => simpa using h
  | cons a rest ih =>
    have first := h.slot_expression hierarchy c outer inner (ok a List.mem_cons_self)
    have more := ih (fun b mem => ok b (List.mem_cons_of_mem a mem)) first
    rw [← List.foldl_append, ← List.filterMap_append, List.append_assoc, List.append_assoc,
      ← List.filterMap_append] at more
    exact more

/-- What an element takes out: its loop, then its expressions. -/
theorem slots (hierarchy : TypeHierarchy) (c : ComponentType) (outer inner : List Parameter)
    {attributes : List Attribute} (ok : elementProblems attributes = [])
    (h : Took w expressions loops spans) :
    Took ((slotsOf attributes).foldl (Walk.slot hierarchy c outer inner) w)
      (expressions ++ (expressionAttributes attributes).filterMap expressionPlace?)
      (loops ++ (loopAttribute? attributes).toList.filterMap loopPlace?)
      (spans ++ ((loopAttribute? attributes).toList ++ expressionAttributes attributes).map
        fun a => a.value.map Located.span) := by
  have ok (r : Except Diagnostic Slot) (mem : r ∈ readings attributes) : problem? r = none :=
    List.filterMap_eq_nil_iff.mp ok r mem
  have okExpressions (a : Attribute) (mem : a ∈ expressionAttributes attributes) :
      problem? (readExpression a) = none :=
    ok _ (List.mem_append_right _ (List.mem_map_of_mem mem))
  rw [slotsOf, readings, List.filterMap_append, List.foldl_append, List.map_append]
  cases loop : loopAttribute? attributes with
  | none => simpa using h.slots_expressions hierarchy c outer inner okExpressions
  | some a =>
    have okLoop : problem? (readLoop a) = none := ok _ (by simp [readings, loop])
    have more := (h.slot_loop hierarchy c outer inner okLoop).slots_expressions hierarchy c
      outer inner okExpressions
    rwa [List.append_assoc] at more

/-- **A step of the walk takes out what its token holds.** -/
theorem step (hierarchy : TypeHierarchy) (c : ComponentType) {located : Token × Span}
    (ok : problems located = []) (h : Took w expressions loops spans) :
    Took ((site? located).toList.foldl (Walk.step hierarchy c) w)
      (expressions ++ expressionPlaces located) (loops ++ loopPlaces located)
      (spans ++ editedSpans located) := by
  rw [problems] at ok
  rw [site?, expressionPlaces, loopPlaces, editedSpans]
  cases kind : located.1.kind with
  | interpolation =>
    simp only [List.append_nil, Option.toList_some, List.foldl_cons, List.foldl_nil]
    exact h.take ⟨located.2, true⟩ (fun _ => rfl) _ _ _ _
  | openTag =>
    simp only [kind] at ok
    simp only [Option.toList_some, List.foldl_cons, List.foldl_nil, Walk.step]
    split
    · exact (h.slots hierarchy c _ _ ok).scopes _
    · exact h.slots hierarchy c _ _ ok
  | closeTag name =>
    simp only [List.append_nil, Option.toList_some, List.foldl_cons, List.foldl_nil]
    exact h.scopes (closeScope name w.scopes)
  | unterminatedInterpolation | comment | text | stray => simpa using h

/-- What a walk over tokens without problems takes out. -/
theorem foldl_step (hierarchy : TypeHierarchy) (c : ComponentType)
    {tokens : List (Token × Span)} (ok : tokens.flatMap problems = [])
    (h : Took w expressions loops spans) :
    Took ((tokens.filterMap site?).foldl (Walk.step hierarchy c) w)
      (expressions ++ tokens.flatMap expressionPlaces) (loops ++ tokens.flatMap loopPlaces)
      (spans ++ tokens.flatMap editedSpans) := by
  induction tokens generalizing w expressions loops spans with
  | nil => simpa using h
  | cons located rest ih =>
    rw [List.flatMap_cons, List.append_eq_nil_iff] at ok
    have more := ih ok.2 (h.step hierarchy c ok.1)
    simp only [List.append_assoc, ← List.flatMap_cons] at more
    rwa [filterMap_site?_cons, List.foldl_append]

end Took

/-! ## Successful extractions -/

variable {h : TypeHierarchy} {c : ComponentType} {template : String} {x : Extraction}

/-- The walk that extraction makes. -/
def walkOver [Matching] (h : TypeHierarchy) (c : ComponentType) (template : String) : Walk :=
  .run h c ((lex template).filterMap site?)

/-- Extraction succeeds if no token has a problem, and its result is that of the walk. -/
theorem extract_eq_ok_iff [Matching] :
    extract h c template = .ok x ↔
      (lex template).flatMap problems = [] ∧ x = (walkOver h c template).extraction template := by
  rw [extract, walkOver]
  split
  case h_1 none => simp [none, eq_comm]
  case h_2 found some =>
    constructor
    · intro error
      cases error
    · rintro ⟨none, -⟩
      exact absurd none some

/-- **A walk over a template without problems takes out its holes.** -/
theorem took_walkOver [Matching] (ok : extract h c template = .ok x) :
    Took (walkOver h c template) ((lex template).flatMap expressionPlaces)
      ((lex template).flatMap loopPlaces) ((lex template).flatMap editedSpans) := by
  have walk := Took.start.foldl_step h c (extract_eq_ok_iff.mp ok).1
  simpa [walkOver, Walk.run] using walk

end TemplateCompiler.Extraction
