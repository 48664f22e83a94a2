import TemplateCompiler.Proofs.Extraction.Seams
import TemplateCompiler.Proofs.Markup.ClauseRewriting
import TemplateCompiler.Proofs.Markup.Rewriting

/-!
# Tokens with placeholders

Extraction puts placeholders in the places of a token. The token is then another one of the same
kind, unless the value of a loop is not quoted. From the new token the same attributes are read,
and where an expression or a clause was there is a placeholder. A placeholder is an expression
again, and the clause that the engine gets is a loop clause again, so the new token has no problem.

## Main definitions

* `Extraction.textAt` — what extraction puts into a place
* `Extraction.LoopQuoted` — the value of a token's loop stands between quotes
* `Extraction.Refilled` — a token with placeholders in its places

## Main statements

* `Extraction.exists_refilled` — every token without problems can be refilled
-/
namespace TemplateCompiler.Extraction

open Text Markup

/-! ## Placeholders as texts -/

/-- Trimmed text that does not end in a semicolon is clean. -/
theorem cleanBody_of_trimmed {text : List Char} (trimmed : Trimmed text)
    (semicolon : text.getLast? ≠ some ';') : cleanBody text = text := by
  have none : before? [';'] text = none := by
    by_contra some
    obtain ⟨front, same⟩ := Option.ne_none_iff_exists'.mp some
    rw [before?_eq_some_iff.mp same, List.getLast?_concat] at semicolon
    exact semicolon rfl
  rw [cleanBody, trimmed.trim_eq, none, Option.getD_none, trimmed.trimEnd_eq]

/-- A text of the characters of names is clean. -/
theorem cleanBody_of_isGlue {text : List Char} (nonempty : text ≠ [])
    (glue : ∀ c ∈ text, Placeholder.isGlue c = true) : cleanBody text = text := by
  refine cleanBody_of_trimmed (trimmed_of_isGlue nonempty glue) ?_
  intro last
  obtain ⟨front, rfl⟩ := List.getLast?_eq_some_iff.mp last
  exact absurd (glue ';' (by simp)) (by decide)

/-- No fence is a character of a name. -/
theorem isFence_of_isGlue {c : Char} (h : Placeholder.isGlue c = true) : isFence c = false := by
  by_contra fence
  have border := (border_of_isFence (by simpa using fence)).2 c List.mem_cons_self
  rw [h] at border
  cases border

theorem expressionId_ne_nil (index : Nat) : (Placeholder.expressionId index).toList ≠ [] := by
  simp [Placeholder.expressionId, Placeholder.expressionLead]

theorem cleanBody_expressionId (index : Nat) :
    cleanBody (Placeholder.expressionId index).toList =
      (Placeholder.expressionId index).toList :=
  cleanBody_of_isGlue (expressionId_ne_nil index) (Placeholder.isGlue_expressionId index)

theorem cleanBody_arraySlot (index : Nat) :
    cleanBody (Placeholder.arraySlot (Placeholder.collectionId index)).toList =
      (Placeholder.arraySlot (Placeholder.collectionId index)).toList :=
  cleanBody_of_isGlue (by simp [Placeholder.arraySlot]) (Placeholder.isGlue_arraySlot index)

/-- The name of an expression is a word. -/
theorem isWordText_expressionId (index : Nat) :
    IsWordText (Placeholder.expressionId index).toList := by
  refine ⟨expressionId_ne_nil index, List.all_eq_true.mpr fun c mem => ?_⟩
  have fence := isFence_of_isGlue (Placeholder.isGlue_expressionId index c mem)
  simpa [isFence] using fence

theorem not_isQuote_of_isGlue {c : Char} (h : Placeholder.isGlue c = true) : ¬ IsQuote c := by
  intro isQuote
  have fence := isFence_of_isGlue h
  rw [isQuote.isFence] at fence
  cases fence

/-- Clauses for the engine have no quotes. -/
theorem not_isQuote_bareClause {bindings : List LoopVariable}
    (h : ∀ v ∈ bindings, IsBinding v.name) (index : Nat) :
    ∀ c ∈ (bareClause bindings (Placeholder.collectionId index)).toList, ¬ IsQuote c := by
  intro c mem isQuote
  rw [bareClause_eq, String.toList_append, String.toList_append, List.mem_append,
    List.mem_append] at mem
  rcases mem with (inNames | keyword) | slot
  · rcases mem_spellNames inNames with mark | ⟨name, mem, inName⟩
    · rcases isQuote with rfl | rfl <;> exact absurd mark (by decide)
    · obtain ⟨v, inBindings, rfl⟩ := List.mem_map.mp mem
      have binding := h v inBindings c inName
      rcases isQuote with rfl | rfl <;> exact absurd binding (by decide)
  · rcases isQuote with rfl | rfl <;> exact absurd keyword (by decide)
  · exact not_isQuote_of_isGlue (Placeholder.isGlue_arraySlot index c slot) isQuote

/-- Text between double braces is read as an interpolation, whatever follows. -/
theorem interpolationTail_of_not_mem {text : List Char} (brace : '}' ∉ text) (rest : List Char) :
    interpolationTail (text ++ '}' :: '}' :: rest) = some ⟨text ++ ['}', '}'], rest⟩ := by
  induction text with
  | nil => rfl
  | cons c text ih =>
    rw [List.mem_cons, not_or] at brace
    have other : c ≠ '}' := Ne.symm brace.1
    simp [interpolationTail, other, ih brace.2, Cut.cons]

/-! ## What is put into a place -/

/-- What extraction puts into a place of a template. -/
def textAt [Matching] (template : String) (place : Place) : String :=
  (((holes template).find? fun hole => hole.place = place).map fun hole =>
    hole.content.placeholder).getD ""

theorem textAt_of_mem [Matching] {template : String} {hole : Hole} (mem : hole ∈ holes template) :
    textAt template hole.place = hole.content.placeholder := by
  have found : (holes template).find? (fun other => other.place = hole.place) = some hole := by
    cases first : (holes template).find? fun other => other.place = hole.place with
    | none =>
      have absent := List.find?_eq_none.mp first hole mem
      simp at absent
    | some other =>
      have same : other.place = hole.place := by simpa using List.find?_some first
      have distinct : (holes template).Pairwise fun a b => a.place ≠ b.place :=
        (distinct_holes template).imp fun apart same => apart (by rw [same])
      exact congrArg some (List.inj_on_of_nodup_map (List.pairwise_map.mpr distinct)
        (List.mem_of_find?_eq_some first) mem same)
  rw [textAt, found]
  rfl

/-- What is numbered leaves a hole. -/
theorem exists_mem_number {α : Type} (make : Nat → α → Content) {sources : List (Place × α)}
    {source : Place × α} (mem : source ∈ sources) :
    ∃ index, ⟨source.1, make index source.2⟩ ∈ number make sources := by
  rw [← List.zipIdx_map_fst 0 sources] at mem
  obtain ⟨⟨source, index⟩, inZip, rfl⟩ := List.mem_map.mp mem
  exact ⟨index, List.mem_map_of_mem inZip⟩

/-- An expression is replaced by its name. -/
theorem exists_textAt_expression [Matching] {template : String} {located : Token × Span}
    (inLex : located ∈ lex template) {place : Place} {body : String}
    (mem : (place, body) ∈ expressionPlaces located) :
    ∃ index, textAt template place = Placeholder.expressionId index := by
  obtain ⟨index, inHoles⟩ :=
    exists_mem_number .expression (List.mem_flatMap.mpr ⟨located, inLex, mem⟩)
  exact ⟨index, textAt_of_mem (List.mem_append_right _ inHoles)⟩

/-- A loop is replaced by the clause for the engine. -/
theorem exists_textAt_loop [Matching] {template : String} {located : Token × Span}
    (inLex : located ∈ lex template) {place : Place} {clause : LoopClause}
    (mem : (place, clause) ∈ loopPlaces located) :
    ∃ index, textAt template place =
      bareClause clause.bindings (Placeholder.collectionId index) := by
  obtain ⟨index, inHoles⟩ :=
    exists_mem_number .loop (List.mem_flatMap.mpr ⟨located, inLex, mem⟩)
  exact ⟨index, textAt_of_mem (List.mem_append_left _ inHoles)⟩

/-! ## Refilled tokens -/

/-- The value of the token's loop stands between quotes. -/
def LoopQuoted (located : Token × Span) : Prop :=
  located.1.kind = .openTag → ∀ a ∈ loopAttribute?
    (Element.ofTag located.1.text located.2.start).attributes, ∀ value ∈ a.value,
      InQuotes located.2.start located.1.text value

/-- In the token, the place has the text in it. -/
def Holds (located : Token × Span) (place : Place) (text : String) : Prop :=
  Covers located.2.start located.1.text place.span (place.put text).replacement.toList

/-- What is read from a token when placeholders stand in its places. -/
structure ReadAgain [Matching] (template : String) (located again : Token × Span) : Prop where
  problems : problems again = []
  /-- The expressions are the placeholders. -/
  expressions : List.Forall₂
    (fun new old => new.2 = textAt template old.1 ∧ Holds again new.1 new.2)
    (expressionPlaces again) (expressionPlaces located)
  /-- The loops are those of the clauses for the engine. -/
  loops : List.Forall₂ (fun new old => LoopClause.read (textAt template old.1) = .ok new.2 ∧
      Holds again new.1 (textAt template old.1))
    (loopPlaces again) (loopPlaces located)

/-- A token with placeholders in its places. -/
structure Refilled [Matching] (template : String) (located : Token × Span) (other : Token) : Prop where
  replaces : Replaces located.1 other
  spliced : ∃ ordered : List Place, ordered.Perm (places located) ∧
    Spliced located.2.start located.1.text
      (ordered.map fun place => place.put (textAt template place)) other.text
  again : ∀ span : Span, span.stop = span.start + byteLength other.text →
    ReadAgain template located (other, span)

/-- A token without places is kept. -/
theorem refilled_of_kept [Matching] {template : String} {located : Token × Span}
    (ok : problems located = []) (noInterpolation : located.1.kind ≠ .interpolation)
    (noTag : located.1.kind ≠ .openTag) : Refilled template located located.1 where
  replaces := ⟨rfl, fun kind => absurd kind noTag, fun kind => absurd kind noInterpolation,
    fun _ _ => rfl⟩
  spliced := by
    refine ⟨[], ?_, .refl _ _⟩
    rw [places, loopPlaces, expressionPlaces]
    split <;> simp_all
  again := by
    intro span _
    refine ⟨?_, ?_, ?_⟩
    · rw [problems] at ok ⊢
      split <;> simp_all
    · rw [expressionPlaces, expressionPlaces]
      split <;> simp_all
    · rw [loopPlaces, loopPlaces]
      split <;> simp_all

/-- An interpolation of a text. -/
def braced (text : String) : Token :=
  ⟨.interpolation, ("\x7b\x7b " ++ text ++ " \x7d\x7d").toList⟩

theorem text_braced (text : String) :
    (braced text).text = '{' :: '{' :: ((' ' :: (text.toList ++ [' '])) ++ ['}', '}']) := by
  rw [braced, String.toList_append, String.toList_append]
  simp

/-- Blanks around a name are dropped. -/
theorem cleanBody_padded {text : List Char} (nonempty : text ≠ [])
    (glue : ∀ c ∈ text, Placeholder.isGlue c = true) :
    cleanBody (' ' :: (text ++ [' '])) = text := by
  have trimmed := trimmed_of_isGlue nonempty glue
  have start := trimmed.trimStart_append []
  rw [List.append_nil] at start
  have trim : trim (' ' :: (text ++ [' '])) = Text.trim text := by
    rw [Text.trim, Text.trim, trimStart_cons_of_isBlank rfl, trimmed.trimStart_append,
      trimEnd_concat, if_pos (show isBlank ' ' = true from rfl), start]
  rw [cleanBody, trim]
  exact cleanBody_of_isGlue nonempty glue

/-- The expression in an interpolation of a name is the name. -/
theorem interpolationBody_braced {text : String} (nonempty : text.toList ≠ [])
    (glue : ∀ c ∈ text.toList, Placeholder.isGlue c = true) :
    interpolationBody (braced text) = text.toList := by
  have inner (cs : List Char) : (('{' :: '{' :: (cs ++ ['}', '}'])).drop 2).take
      (('{' :: '{' :: (cs ++ ['}', '}'])).length - 4) = cs := by
    simp
  rw [interpolationBody, text_braced, inner, cleanBody_padded nonempty glue]

/-- An interpolation of a name is read, whatever follows. -/
theorem interpolation?_braced {text : String}
    (glue : ∀ c ∈ text.toList, Placeholder.isGlue c = true) (rest : List Char) :
    interpolation? ((braced text).text ++ rest) = some ⟨(braced text).text, rest⟩ := by
  have brace : '}' ∉ ' ' :: (text.toList ++ [' ']) := by
    intro mem
    rcases List.mem_cons.mp mem with same | mem
    · cases same
    · rcases List.mem_append.mp mem with inText | same
      · exact absurd (glue '}' inText) (by decide)
      · cases List.mem_singleton.mp same
  have inner := interpolationTail_of_not_mem brace rest
  rw [text_braced, List.cons_append, List.cons_append, List.append_assoc]
  simp only [interpolation?, after?, if_true, Option.bind_some]
  exact congrArg (Option.map (Cut.append ['{', '{'])) inner

/-- A span covers the text that it measures. -/
theorem covers_whole {text : List Char} {span : Span}
    (stop : span.stop = span.start + byteLength text) : Covers span.start text span text := by
  refine ⟨[], [], (List.append_nil text).symm, ?_⟩
  rw [byteLength_nil, Nat.add_zero, ← stop]

theorem problems_interpolation (located : Token × Span) (kind : located.1.kind = .interpolation)
    (body : interpolationBody located.1 ≠ []) : problems located = [] := by
  simp only [problems, kind, if_neg body]

/-- An interpolation is refilled with its name in double braces. -/
theorem exists_refilled_interpolation [Matching] {template : String} {located : Token × Span}
    (inLex : located ∈ lex template) (kind : located.1.kind = .interpolation) :
    ∃ other, Refilled template located other := by
  have expressions (token : Token) (span : Span) (kind : token.kind = .interpolation) :
      expressionPlaces (token, span) =
        [(⟨span, true⟩, String.ofList (interpolationBody token))] := by
    simp only [expressionPlaces, kind]
  have loops (token : Token) (span : Span) (kind : token.kind = .interpolation) :
      loopPlaces (token, span) = [] := by
    simp only [loopPlaces, kind]
  have here := expressions located.1 located.2 kind
  have noLoops := loops located.1 located.2 kind
  obtain ⟨index, text⟩ := exists_textAt_expression inLex (here ▸ List.mem_singleton_self _)
  have glue := Placeholder.isGlue_expressionId index
  have nonempty := expressionId_ne_nil index
  generalize Placeholder.expressionId index = id at text glue nonempty
  have body := interpolationBody_braced nonempty glue
  refine ⟨braced id, ⟨kind.symm, ?_, fun _ => interpolation?_braced glue, ?_⟩, ?_, ?_⟩
  · intro opens
    cases kind.symm.trans opens
  · intro _ other
    exact absurd kind other
  · refine ⟨[⟨located.2, true⟩], ?_, ?_⟩
    · simp [places, here, noLoops]
    · have stop := (covers_of_mem_lex inLex).le.2.1
      have whole := Spliced.single located.2.start located.1.text
        ("\x7b\x7b " ++ id ++ " \x7d\x7d")
      rw [← stop] at whole
      simpa [Place.put, text, braced] using whole
  · intro span stop
    refine ⟨?_, ?_, ?_⟩
    · refine problems_interpolation _ rfl ?_
      rw [body]
      exact nonempty
    · rw [here, expressions _ _ rfl, body, String.ofList_toList]
      exact .cons ⟨text.symm, covers_whole stop⟩ .nil
    · rw [noLoops, loops _ _ rfl]
      exact .nil

/-! ## Refilled tags -/

section Tag

variable {template : String} {located : Token × Span}

/-- Attributes with the same names ask for the same. -/
theorem directive_eq {a b : Attribute} (h : a.name.text = b.name.text) :
    a.directive = b.directive := congrArg Directive.classify h

/-- The loops of attributes with the same names. -/
theorem forall₂_loopAttribute? {R : Attribute → Attribute → Prop}
    (named : ∀ a b, R a b → a.name.text = b.name.text) {attributes others : List Attribute}
    (h : List.Forall₂ R attributes others) :
    List.Forall₂ R (loopAttribute? attributes).toList (loopAttribute? others).toList := by
  induction h with
  | nil => exact .nil
  | @cons a b attributes others first behind ih =>
    have same := directive_eq (named a b first)
    by_cases loop : b.directive = .loop
    · simpa [loopAttribute?, same, loop] using first
    · simpa [loopAttribute?, same, loop] using ih

/-- The expressions of attributes with the same names. -/
theorem forall₂_expressionAttributes {R : Attribute → Attribute → Prop}
    (named : ∀ a b, R a b → a.name.text = b.name.text) {attributes others : List Attribute}
    (h : List.Forall₂ R attributes others) :
    List.Forall₂ R (expressionAttributes attributes) (expressionAttributes others) := by
  refine List.rel_filter ?_ h
  intro a b related
  show a.directive.takesExpression = true ↔ b.directive.takesExpression = true
  rw [directive_eq (named a b related)]

/-- The text for the value at a span, if the value is replaced. -/
def refill [Matching] (template : String) (located : Token × Span) (span : Span) : Option String :=
  if ⟨span, false⟩ ∈ places located then some (textAt template ⟨span, false⟩) else none

/-- Values that are spread are told apart by their spans. -/
theorem eq_of_span_eq {position : Nat} {text : List Char} {values : List Located}
    (spread : Spread position text values) {a b : Located} (ha : a ∈ values) (hb : b ∈ values)
    (same : a.span = b.span) : a = b := by
  have distinct : values.Pairwise fun a b => a.span ≠ b.span := by
    refine spread.apart.imp_of_mem ?_
    intro a b ha hb apart same
    have le := (framed_of_fenced (spread.fenced a ha)).start_le_stop
    simp only [valuePlace] at le
    rw [← same] at apart
    omega
  exact List.inj_on_of_nodup_map (List.pairwise_map.mpr distinct) ha hb same

/-- **What extraction puts into a tag may stand there.** -/
theorem welcome_refill [Matching] (inLex : located ∈ lex template) (kind : located.1.kind = .openTag)
    (quoted : LoopQuoted located) :
    ∀ value ∈ valuesOf (Element.ofTag located.1.text located.2.start).attributes,
      ∀ text ∈ refill template located value.span,
        Welcome located.2.start located.1.text value text := by
  intro value mem text htext
  rw [refill, Option.mem_def, ite_eq_iff] at htext
  rcases htext with ⟨inPlaces, text_eq⟩ | ⟨-, none⟩
  · obtain rfl := Option.some.inj text_eq
    rcases List.mem_append.mp inPlaces with loop | expression
    · obtain ⟨⟨place, clause⟩, inLoops, rfl⟩ := List.mem_map.mp loop
      obtain ⟨a, ha, other, hother, same, read⟩ := exists_attribute_of_mem_loopPlaces inLoops
      have inValues : other ∈ valuesOf (Element.ofTag located.1.text located.2.start).attributes :=
        List.mem_filterMap.mpr ⟨a, List.mem_of_find?_eq_some ha, hother⟩
      obtain rfl := eq_of_span_eq (spread_of_mem_lex inLex kind) mem inValues
        (congrArg Place.span same)
      obtain ⟨index, put⟩ := exists_textAt_loop inLex inLoops
      refine ⟨?_, .inr (quoted kind a ha value hother)⟩
      rw [put]
      exact not_isQuote_bareClause (fun v => isBinding_of_read read) index
    · obtain ⟨⟨place, body⟩, inExpressions, rfl⟩ := List.mem_map.mp expression
      obtain ⟨index, put⟩ := exists_textAt_expression inLex inExpressions
      refine ⟨?_, .inl ?_⟩
      · rw [put]
        exact fun c mem => not_isQuote_of_isGlue (Placeholder.isGlue_expressionId index c mem)
      · rw [put]
        exact isWordText_expressionId index
  · cases none

/-- The edits that renew the values of a tag put texts in their places. -/
theorem renewals_refill [Matching] (attributes : List Attribute) :
    renewals (refill template located) attributes =
      (((valuesOf attributes).map valuePlace).filter (· ∈ places located)).map fun place =>
        place.put (textAt template place) := by
  rw [renewals]
  generalize valuesOf attributes = values
  induction values with
  | nil => rfl
  | cons value values ih =>
    by_cases mem : valuePlace value ∈ places located
    · have here : refill template located value.span =
          some (textAt template (valuePlace value)) := if_pos mem
      rw [List.map_cons, List.filter_cons_of_pos (by simpa using mem), List.map_cons, ← ih]
      simp [here, valuePlace, Place.put]
    · have here : refill template located value.span = none := if_neg mem
      rw [List.map_cons, List.filter_cons_of_neg (by simpa using mem), ← ih]
      simp [here]

/-- Places that lie apart are distinct. -/
theorem nodup_of_ordered {ordered : List Place}
    (h : ordered.Pairwise fun a b => a.reach.stop ≤ b.reach.start)
    (nonempty : ∀ place ∈ ordered, place.reach.start < place.reach.stop) : ordered.Nodup := by
  refine h.imp_of_mem ?_
  rintro a b ha - apart rfl
  have := nonempty a ha
  omega

/-- The values of a tag that are replaced are those in its places. -/
theorem perm_places [Matching] (inLex : located ∈ lex template) (kind : located.1.kind = .openTag) :
    (((valuesOf (Element.ofTag located.1.text located.2.start).attributes).map
      valuePlace).filter (· ∈ places located)).Perm (places located) := by
  have spread := spread_of_mem_lex inLex kind
  have nodup := nodup_of_ordered (ordered_valuePlaces spread) fun place mem => by
    obtain ⟨value, inValues, rfl⟩ := List.mem_map.mp mem
    exact (framed_of_fenced (spread.fenced value inValues)).le.2.1
  have subset := (places_subperm kind).subset
  obtain ⟨chosen, perm, sublist⟩ := places_subperm kind
  have nodupPlaces := perm.nodup_iff.mp (nodup.sublist sublist)
  refine (List.perm_ext_iff_of_nodup (nodup.filter _) nodupPlaces).mpr ?_
  intro place
  rw [List.mem_filter, decide_eq_true_eq]
  exact and_iff_right_of_imp fun mem => subset mem

/-- Related lists are related at their members. -/
theorem forall₂_of_mem {α β : Type} {R : α → β → Prop} {xs : List α} {ys : List β}
    (h : List.Forall₂ R xs ys) : List.Forall₂ (fun x y => R x y ∧ x ∈ xs ∧ y ∈ ys) xs ys :=
  List.forall₂_iff_zip.mpr ⟨h.length_eq, fun mem => ⟨List.forall₂_zip h mem, List.of_mem_zip mem⟩⟩

/-- What holds of the first one of related entries holds of all entries of the first list. -/
theorem forall_of_forall₂ {α β : Type} {P : α → Prop} {xs : List α} {ys : List β}
    (h : List.Forall₂ (fun x _ => P x) xs ys) : ∀ x ∈ xs, P x := by
  have both : List.Forall₂ (fun x _ => P x ∧ True) xs ys := h.imp fun _ _ p => ⟨p, trivial⟩
  exact ((List.forall₂_and_left xs ys).mp both).1

/-- An expression of a tag has a place, and a value that is replaced. -/
theorem exists_value_of_expression [Matching] (inLex : located ∈ lex template)
    (kind : located.1.kind = .openTag) (ok : problems located = []) {a : Attribute}
    (mem : a ∈ expressionAttributes
      (Element.ofTag located.1.text located.2.start).attributes) :
    ∃ value index, a.value = some value ∧
      refill template located value.span = some (textAt template (valuePlace value)) ∧
        textAt template (valuePlace value) = Placeholder.expressionId index := by
  simp only [problems, kind] at ok
  have reads : problem? (readExpression a) = none :=
    List.filterMap_eq_nil_iff.mp ok _ (List.mem_append_right _ (List.mem_map_of_mem mem))
  obtain ⟨value, hvalue, -, -⟩ := exists_value_of_readExpression reads
  have inExpressions : (valuePlace value, String.ofList (cleanBody value.text.toList)) ∈
      expressionPlaces located := by
    simp only [expressionPlaces, kind]
    exact List.mem_filterMap.mpr ⟨a, mem, by simp [expressionPlace?, hvalue, valuePlace]⟩
  obtain ⟨index, put⟩ := exists_textAt_expression inLex inExpressions
  refine ⟨value, index, hvalue, if_pos ?_, put⟩
  exact List.mem_append_right _ (List.mem_map_of_mem (f := Prod.fst) inExpressions)

/-- The loop of a tag has a place, and a value that is replaced. -/
theorem exists_value_of_loop [Matching] (inLex : located ∈ lex template)
    (kind : located.1.kind = .openTag) (ok : problems located = []) {a : Attribute}
    (mem : a ∈ loopAttribute? (Element.ofTag located.1.text located.2.start).attributes) :
    ∃ value clause index, a.value = some value ∧ LoopClause.read value.text = .ok clause ∧
      refill template located value.span = some (textAt template (valuePlace value)) ∧
        textAt template (valuePlace value) =
          bareClause clause.bindings (Placeholder.collectionId index) := by
  simp only [problems, kind] at ok
  have reads : problem? (readLoop a) = none := by
    refine List.filterMap_eq_nil_iff.mp ok _ (List.mem_append_left _ ?_)
    exact List.mem_map_of_mem (Option.mem_toList.mpr mem)
  obtain ⟨value, clause, hvalue, hclause, -⟩ := exists_clause_of_readLoop reads
  have inLoops : (valuePlace value, clause) ∈ loopPlaces located := by
    simp only [loopPlaces, kind]
    refine List.mem_filterMap.mpr ⟨a, Option.mem_toList.mpr mem, ?_⟩
    simp [loopPlace?, hvalue, hclause, value?, valuePlace]
  obtain ⟨index, put⟩ := exists_textAt_loop inLex inLoops
  refine ⟨value, clause, index, hvalue, hclause, if_pos ?_, put⟩
  exact List.mem_append_left _ (List.mem_map_of_mem (f := Prod.fst) inLoops)

/-- The new value of an attribute stands in the new tag. -/
theorem exists_renewed_value {again : Token × Span} {inner : List Char}
    (shape : again.1.text = '<' :: (inner ++ ['>'])) {new : Span → Option String}
    {a old : Attribute}
    (inTag : a ∈ (Element.ofTag again.1.text again.2.start).attributes)
    (texts : a.texts = old.renewedTexts new) {value : Located} (hvalue : old.value = some value)
    {text : String} (htext : new value.span = some text) :
    ∃ found, a.value = some found ∧ found.text = text ∧ Holds again (valuePlace found) text := by
  have same : a.value.map Located.text = some text := by
    have second := congrArg Prod.snd texts
    simpa [Attribute.texts, Attribute.renewedTexts, hvalue, htext] using second
  obtain ⟨found, hfound, rfl⟩ := Option.map_eq_some_iff.mp same
  refine ⟨found, hfound, rfl, ?_⟩
  rw [shape] at inTag
  have spread := spread_ofTag inner again.2.start
  rw [← shape] at spread inTag
  exact (spread.fenced found (List.mem_filterMap.mpr ⟨a, inTag, hfound⟩)).covers

/-- An attribute with the name of an expression as its value, in the place of another one. -/
def ExpressionAgain [Matching] (template : String) (again : Token × Span) (a old : Attribute) : Prop :=
  ∃ found value index, a.value = some found ∧ old.value = some value ∧
    found.text = Placeholder.expressionId index ∧
      textAt template (valuePlace value) = Placeholder.expressionId index ∧
        Holds again (valuePlace found) (Placeholder.expressionId index)

namespace ExpressionAgain

variable {again : Token × Span} {a old : Attribute}

theorem problem? [Matching] (h : ExpressionAgain template again a old) :
    problem? (readExpression a) = none := by
  obtain ⟨found, -, index, hfound, -, text, -⟩ := h
  have body : cleanBody found.text.toList ≠ [] := by
    rw [text, cleanBody_expressionId]
    exact expressionId_ne_nil index
  simp [readExpression, hfound, body, Extraction.problem?]

theorem expressionPlace? [Matching] (h : ExpressionAgain template again a old) :
    Option.Rel (fun new old => new.2 = textAt template old.1 ∧ Holds again new.1 new.2)
      (expressionPlace? a) (expressionPlace? old) := by
  obtain ⟨found, value, index, hfound, hvalue, text, put, holds⟩ := h
  have body : String.ofList (cleanBody found.text.toList) = Placeholder.expressionId index := by
    rw [text, cleanBody_expressionId, String.ofList_toList]
  simp only [Extraction.expressionPlace?, hfound, hvalue, Option.map_some, body]
  exact .some ⟨put.symm, holds⟩

end ExpressionAgain

/-- An attribute with a clause for the engine as its value, in the place of another one. -/
def LoopAgain [Matching] (template : String) (again : Token × Span) (a old : Attribute) : Prop :=
  ∃ found value clause oldClause, a.value = some found ∧ old.value = some value ∧
    found.text = textAt template (valuePlace value) ∧
      LoopClause.read (textAt template (valuePlace value)) = .ok clause ∧
        LoopClause.read value.text = .ok oldClause ∧
          Holds again (valuePlace found) (textAt template (valuePlace value))

namespace LoopAgain

variable {again : Token × Span} {a old : Attribute}

theorem problem? [Matching] (h : LoopAgain template again a old) : problem? (readLoop a) = none := by
  obtain ⟨found, value, clause, -, hfound, -, text, read, -⟩ := h
  rw [← text] at read
  simp [readLoop, hfound, read, Extraction.problem?]

theorem loopPlace? [Matching] (h : LoopAgain template again a old) :
    Option.Rel (fun new old => LoopClause.read (textAt template old.1) = .ok new.2 ∧
      Holds again new.1 (textAt template old.1)) (loopPlace? a) (loopPlace? old) := by
  obtain ⟨found, value, clause, oldClause, hfound, hvalue, text, read, oldRead, holds⟩ := h
  simp only [Extraction.loopPlace?, hfound, hvalue, text, read, oldRead, Option.bind_some, value?,
    Option.map_some]
  exact .some ⟨read, holds⟩

end LoopAgain

/-- **What is read from a tag with other values.** -/
theorem readAgain_tag [Matching] (inLex : located ∈ lex template) (kind : located.1.kind = .openTag)
    (ok : problems located = []) {again : Token × Span} (againKind : again.1.kind = .openTag)
    {inner : List Char} (shape : again.1.text = '<' :: (inner ++ ['>']))
    (texts : (Element.ofTag again.1.text again.2.start).attributes.map Attribute.texts =
      (Element.ofTag located.1.text located.2.start).attributes.map
        (Attribute.renewedTexts (refill template located))) :
    ReadAgain template located again := by
  have related : List.Forall₂ (fun a old => a.texts = old.renewedTexts (refill template located))
      (Element.ofTag again.1.text again.2.start).attributes
      (Element.ofTag located.1.text located.2.start).attributes := by
    rwa [← List.forall₂_eq_eq_eq, List.forall₂_map_left_iff, List.forall₂_map_right_iff] at texts
  have named (a old : Attribute)
      (h : a.texts = old.renewedTexts (refill template located)) : a.name.text = old.name.text :=
    congrArg Prod.fst h
  have expressions : List.Forall₂ (ExpressionAgain template again)
      (expressionAttributes (Element.ofTag again.1.text again.2.start).attributes)
      (expressionAttributes (Element.ofTag located.1.text located.2.start).attributes) := by
    refine (forall₂_of_mem (forall₂_expressionAttributes named related)).imp ?_
    rintro a old ⟨texts, inNew, inOld⟩
    obtain ⟨value, index, hvalue, put, text⟩ := exists_value_of_expression inLex kind ok inOld
    obtain ⟨found, hfound, same, holds⟩ :=
      exists_renewed_value shape (List.mem_of_mem_filter inNew) texts hvalue put
    exact ⟨found, value, index, hfound, hvalue, same.trans text, text, text ▸ holds⟩
  have loops : List.Forall₂ (LoopAgain template again)
      (loopAttribute? (Element.ofTag again.1.text again.2.start).attributes).toList
      (loopAttribute? (Element.ofTag located.1.text located.2.start).attributes).toList := by
    refine (forall₂_of_mem (forall₂_loopAttribute? named related)).imp ?_
    rintro a old ⟨texts, inNew, inOld⟩
    obtain ⟨value, clause, index, hvalue, read, put, text⟩ :=
      exists_value_of_loop inLex kind ok (Option.mem_toList.mp inOld)
    have inTag := List.mem_of_find?_eq_some (Option.mem_toList.mp inNew)
    obtain ⟨found, hfound, same, holds⟩ := exists_renewed_value shape inTag texts hvalue put
    obtain ⟨span, rewritten⟩ := isClause_bareClause read index
    have readAgain := read_eq_ok_iff.mpr rewritten
    rw [← text] at readAgain
    exact ⟨found, value, _, clause, hfound, hvalue, same, readAgain, read, holds⟩
  refine ⟨?_, ?_, ?_⟩
  · simp only [problems, againKind, elementProblems, readings]
    refine List.filterMap_eq_nil_iff.mpr fun reading mem => ?_
    rcases List.mem_append.mp mem with loop | expression
    · obtain ⟨a, inLoop, rfl⟩ := List.mem_map.mp loop
      exact forall_of_forall₂ (loops.imp fun _ _ h => h.problem?) a inLoop
    · obtain ⟨a, inExpressions, rfl⟩ := List.mem_map.mp expression
      exact forall_of_forall₂ (expressions.imp fun _ _ h => h.problem?) a inExpressions
  · simp only [expressionPlaces, kind, againKind]
    exact List.rel_filterMap (fun _ _ h => ExpressionAgain.expressionPlace? h) expressions
  · simp only [loopPlaces, kind, againKind]
    exact List.rel_filterMap (fun _ _ h => LoopAgain.loopPlace? h) loops

/-- An opening tag is refilled with other values. -/
theorem exists_refilled_tag [Matching] (inLex : located ∈ lex template) (kind : located.1.kind = .openTag)
    (ok : problems located = []) (quoted : LoopQuoted located) :
    ∃ other, Refilled template located other := by
  obtain ⟨front, cut, opens, taken⟩ :=
    exists_openTag_of_mem_tokens (mem_tokens_of_mem_lex inLex) kind
  have welcome := welcome_refill inLex kind quoted
  rw [← taken] at welcome
  obtain ⟨tag, spliced, reopens, texts⟩ := exists_renewed_tag opens located.2.start _ welcome
  rw [taken] at spliced texts
  obtain ⟨inner, shape⟩ := brackets_of_openTag? (reopens [])
  refine ⟨⟨.openTag, tag⟩, ⟨kind.symm, fun _ => reopens, ?_, ?_⟩, ?_, ?_⟩
  · intro braces
    cases kind.symm.trans braces
  · intro other
    exact absurd kind other
  · exact ⟨_, perm_places inLex kind, by rwa [renewals_refill] at spliced⟩
  · intro span _
    exact readAgain_tag inLex kind ok rfl shape (texts span.start)

end Tag

/-- **Every token without problems can be refilled**, if the value of its loop is quoted. -/
theorem exists_refilled [Matching] {template : String} {located : Token × Span}
    (inLex : located ∈ lex template) (ok : problems located = []) (quoted : LoopQuoted located) :
    ∃ other, Refilled template located other := by
  by_cases opens : located.1.kind = .openTag
  · exact exists_refilled_tag inLex opens ok quoted
  · by_cases braces : located.1.kind = .interpolation
    · exact exists_refilled_interpolation inLex braces
    · exact ⟨_, refilled_of_kept ok braces opens⟩

end TemplateCompiler.Extraction
