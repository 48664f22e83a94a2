import TemplateCompiler.Proofs.Extraction.Holes
import TemplateCompiler.Proofs.Markup.Bindings
import TemplateCompiler.Proofs.Text.Trim

/-!
# What records hold

The record of an expression is made into an accessor, a text in which the expression has to be
found again. Two things about records make that possible. The expression is not empty and has no
blank at either end. And the parameters, which are the variables of the loops around it and the
event, have names without a parenthesis, so that the list of parameters ends where it should.

## Main definitions

* `Extraction.Bound` — variables are called as loop clauses call them
* `Extraction.signature` — the parameters of an accessor
* `Extraction.Named` — the variables that a walk keeps come from loop clauses

## Main statements

* `Extraction.trimmed_of_extract` — extracted expressions are trimmed
* `Extraction.Named.step` — a step of the walk keeps to variables of loop clauses
* `Extraction.parameters_of_extract`, `Extraction.parameters_of_collection` — the parameters of what
  is extracted have names without a parenthesis
-/
namespace TemplateCompiler

open Text Markup

/-! ## Expressions -/

/-- An expression that is not empty is trimmed. -/
theorem trimmed_cleanBody {text : List Char} (h : cleanBody text ≠ []) :
    Trimmed (cleanBody text) := by
  refine ⟨?_, exists_last_trimEnd h⟩
  -- it begins where the trimmed text begins
  have inTrimmed : cleanBody text <+: trim text := by
    refine (trimEnd_isPrefix _).trans ?_
    cases hbefore : before? [';'] (trim text) with
    | none => exact List.prefix_refl _
    | some front =>
      rw [before?_eq_some_iff.mp hbefore]
      exact List.prefix_append _ _
  have inText : cleanBody text <+: trimStart text := inTrimmed.trans (trimEnd_isPrefix _)
  have nonempty : trimStart text ≠ [] := by
    intro empty
    rw [empty, List.prefix_nil] at inText
    exact h inText
  exact first_of_prefix inText h (exists_first_trimStart nonempty)

namespace Extraction

/-- The expressions in a token without problems are trimmed. -/
theorem trimmed_of_mem_expressionPlaces {located : Token × Span} (ok : problems located = [])
    {place : Place} {body : String} (mem : (place, body) ∈ expressionPlaces located) :
    Trimmed body.toList := by
  rw [problems] at ok
  rw [expressionPlaces] at mem
  split at mem
  · rename_i kind
    simp only [kind, ite_eq_right_iff, List.cons_ne_nil, imp_false] at ok
    obtain ⟨-, rfl⟩ := Prod.mk.inj (List.mem_singleton.mp mem)
    rw [String.toList_ofList]
    exact trimmed_cleanBody ok
  · rename_i kind
    simp only [kind] at ok
    obtain ⟨a, ha, found⟩ := List.mem_filterMap.mp mem
    have reads : problem? (readExpression a) = none :=
      List.filterMap_eq_nil_iff.mp ok _ (List.mem_append_right _ (List.mem_map_of_mem ha))
    obtain ⟨value, hvalue, nonempty, -⟩ := exists_value_of_readExpression reads
    rw [expressionPlace?, hvalue, Option.map_some, Option.some.injEq, Prod.mk.injEq] at found
    rw [← found.2, String.toList_ofList]
    exact trimmed_cleanBody nonempty
  · simp at mem

variable {h : TypeHierarchy} {c : ComponentType} {template : String} {x : Extraction}

/-- **Extracted expressions are trimmed.** -/
theorem trimmed_of_extract [Matching] (ok : extract h c template = .ok x) {e : Expression}
    (mem : e ∈ x.expressions) : Trimmed e.body.toList := by
  obtain ⟨noProblems, rfl⟩ := extract_eq_ok_iff.mp ok
  have records := (took_walkOver ok).records
  have inRecords := List.mem_map_of_mem (f := fun e => (e.id, e.body)) mem
  rw [show (Walk.extraction template (walkOver h c template)).expressions =
    (walkOver h c template).expressions from rfl, records] at inRecords
  obtain ⟨hole, inHoles, same⟩ := List.mem_map.mp inRecords
  obtain ⟨index, body, source, content⟩ := mem_number inHoles
  obtain ⟨located, inLex, inToken⟩ := List.mem_flatMap.mp source
  have authored : e.body = body := by
    rw [← (Prod.mk.inj same).2, content]
    rfl
  rw [authored]
  have ok := List.flatMap_eq_nil_iff.mp noProblems located inLex
  exact trimmed_of_mem_expressionPlaces ok inToken

/-! ## Parameters -/

/-- What is visible has been declared. -/
theorem visible_subset (declared : List Parameter) : visible declared ⊆ declared := by
  suffices general : ∀ all : List Parameter, ∀ p ∈ declared.foldl
      (fun all v => (all.filter fun w => w.name != v.name) ++ [v]) all, p ∈ all ∨ p ∈ declared by
    intro p mem
    exact (general [] p mem).resolve_left List.not_mem_nil
  induction declared with
  | nil => exact fun all p mem => .inl mem
  | cons v rest ih =>
    intro all p mem
    rcases ih _ p mem with inAll | inRest
    · rcases List.mem_append.mp inAll with kept | new
      · exact .inl (List.mem_of_mem_filter kept)
      · obtain rfl := List.mem_singleton.mp new
        exact .inr List.mem_cons_self
    · exact .inr (List.mem_cons_of_mem v inRest)

/-- Variables that are called as those of loop clauses are. -/
def Bound (declared : List Parameter) : Prop := ∀ p ∈ declared, IsBinding p.name

theorem Bound.append {first more : List Parameter} (h : Bound first) (h' : Bound more) :
    Bound (first ++ more) := by
  intro p mem
  rcases List.mem_append.mp mem with inFirst | inMore
  · exact h p inFirst
  · exact h' p inMore

theorem Bound.visible {declared : List Parameter} (h : Bound declared) : Bound (visible declared) :=
  fun p mem => h p (visible_subset declared mem)

/-- The parameters of an accessor that evaluates an expression of the kind where the variables have
been declared: those that are visible, and behind them the event if there is one to handle. -/
def signature (kind : ExpressionKind) (declared : List Parameter) : List Parameter :=
  if kind = .event then visible declared ++ [eventParameter] else visible declared

/-- The loops of an element have been read from clauses. -/
def Slot.Readable : Slot → Prop
  | .loop _ clause => ∀ v ∈ clause.bindings, IsBinding v.name
  | .expression _ _ _ => True

/-- The variables of a loop. -/
theorem Bound.loopVariables {slots : List Slot} (h : ∀ slot ∈ slots, slot.Readable) :
    Bound (Walk.loopVariables slots) := by
  induction slots with
  | nil => simp [Walk.loopVariables, Bound]
  | cons slot rest ih =>
    cases slot with
    | loop span clause =>
      have names := h _ List.mem_cons_self
      intro p mem
      obtain ⟨⟨v, index⟩, inBindings, rfl⟩ := List.mem_map.mp mem
      exact names v (List.fst_mem_of_mem_zipIdx inBindings)
    | expression span directive body =>
      exact ih fun other mem => h other (List.mem_cons_of_mem _ mem)

/-- Every slot of an element has been read. -/
theorem readable_of_mem_slotsOf {attributes : List Attribute} {slot : Slot}
    (mem : slot ∈ slotsOf attributes) : slot.Readable := by
  obtain ⟨reading, inReadings, hvalue⟩ := List.mem_filterMap.mp mem
  rcases List.mem_append.mp inReadings with loop | expression
  · obtain ⟨a, -, rfl⟩ := List.mem_map.mp loop
    rw [readLoop] at hvalue
    split at hvalue
    · cases hvalue
    · split at hvalue
      · rename_i clause hread
        obtain rfl := Option.some.inj hvalue
        intro v hv
        exact isBinding_of_read hread hv
      · cases hvalue
  · obtain ⟨a, -, rfl⟩ := List.mem_map.mp expression
    rw [readExpression] at hvalue
    split at hvalue
    · cases hvalue
    · dsimp only at hvalue
      split at hvalue
      · cases hvalue
      · obtain rfl := Option.some.inj hvalue
        trivial

/-- The variables of the open scopes come from loop clauses, and so do those of the signatures of
what has been taken out. -/
structure Named (w : Walk) : Prop where
  scopes : ∀ scope ∈ w.scopes, Bound scope.bindings
  expressions : ∀ e ∈ w.expressions, ∃ declared, Bound declared ∧
    e.parameters = signature e.kind declared
  collections : ∀ k ∈ w.collections, ∃ declared, Bound declared ∧ k.parameters = visible declared

namespace Named

variable {w : Walk} {declared : List Parameter}

theorem start : Named .start :=
  ⟨by simp [Walk.start], by simp [Walk.start], by simp [Walk.start]⟩

/-- The variables of the open scopes. -/
theorem scopeVariables (named : Named w) : Bound (scopeVariables w.scopes) := by
  intro p mem
  obtain ⟨scope, inScopes, inBindings⟩ := List.mem_flatMap.mp mem
  exact named.scopes scope (List.mem_reverse.mp inScopes) p inBindings

/-- One more expression. -/
theorem take (named : Named w) (span : Span) (replacement : String → String)
    (kind : ExpressionKind) (bound : Bound declared) (returnType body : String) :
    Named (w.take span replacement kind (signature kind declared) returnType body) where
  scopes := named.scopes
  expressions := by
    intro e mem
    rcases List.mem_append.mp mem with before | new
    · exact named.expressions e before
    · obtain rfl := List.mem_singleton.mp new
      exact ⟨declared, bound, rfl⟩
  collections := named.collections

/-- One more collection. -/
theorem takeCollection (named : Named w) (c : ComponentType) (span : Span) (clause : LoopClause)
    (bound : Bound declared) : Named (w.takeCollection c span clause (visible declared)) where
  scopes := named.scopes
  expressions := named.expressions
  collections := by
    intro k mem
    rcases List.mem_append.mp mem with before | new
    · exact named.collections k before
    · obtain rfl := List.mem_singleton.mp new
      exact ⟨declared, bound, rfl⟩

/-- What is in the slots of an element. -/
theorem slots (hierarchy : TypeHierarchy) (c : ComponentType) {outer inner : List Parameter}
    (outerBound : Bound outer) (innerBound : Bound inner) (slots : List Slot) (named : Named w) :
    Named (slots.foldl (Walk.slot hierarchy c (visible outer) (visible inner)) w) := by
  induction slots generalizing w with
  | nil => exact named
  | cons slot rest ih =>
    apply ih
    cases slot with
    | loop span clause => exact named.takeCollection c span clause outerBound
    | expression span directive body => exact named.take span id _ innerBound _ body

/-- The scopes that stay open. -/
theorem closeScope (named : Named w) (name : String) :
    Named { w with scopes := closeScope name w.scopes } where
  scopes := by
    intro scope mem
    dsimp only [Extraction.closeScope] at mem
    split at mem
    · exact named.scopes scope
        ((List.dropWhile_sublist _).subset (List.mem_of_mem_drop mem))
    · exact named.scopes scope mem
  expressions := named.expressions
  collections := named.collections

/-- An interpolation. -/
theorem interpolation (hierarchy : TypeHierarchy) (c : ComponentType) (span : Span)
    (body : String) (named : Named w) : Named (w.interpolation hierarchy c span body) := by
  rw [Walk.interpolation]
  -- the signature of what handles no event
  split
  · exact named.take span _ .computed named.scopeVariables _ body
  · exact named.take span _ .getter named.scopeVariables _ body

/-- **A step of the walk keeps to variables of loop clauses.** -/
theorem step (hierarchy : TypeHierarchy) (c : ComponentType) (named : Named w)
    (located : Token × Span) :
    Named ((site? located).toList.foldl (Walk.step hierarchy c) w) := by
  rw [site?]
  cases located.1.kind with
  | interpolation =>
    simp only [Option.toList_some, List.foldl_cons, List.foldl_nil, Walk.step]
    exact named.interpolation hierarchy c _ _
  | openTag =>
    simp only [Option.toList_some, List.foldl_cons, List.foldl_nil, Walk.step]
    have own : Bound (Walk.loopVariables
        (slotsOf (Element.ofTag located.1.text located.2.start).attributes)) :=
      .loopVariables fun _ => readable_of_mem_slotsOf
    have after := named.slots hierarchy c named.scopeVariables (named.scopeVariables.append own)
      (slotsOf (Element.ofTag located.1.text located.2.start).attributes)
    split
    · refine ⟨?_, after.expressions, after.collections⟩
      intro scope mem
      rcases List.mem_cons.mp mem with rfl | mem
      · exact own
      · exact after.scopes scope mem
    · exact after
  | closeTag name => exact named.closeScope name
  | unterminatedInterpolation | comment | text | stray => exact named

/-- A walk keeps to variables of loop clauses. -/
theorem foldl_step (hierarchy : TypeHierarchy) (c : ComponentType)
    (tokens : List (Token × Span)) (named : Named w) :
    Named ((tokens.filterMap site?).foldl (Walk.step hierarchy c) w) := by
  induction tokens generalizing w with
  | nil => exact named
  | cons located rest ih =>
    rw [filterMap_site?_cons, List.foldl_append]
    exact ih (named.step hierarchy c located)

end Named

/-- What is extracted has signatures of variables of loop clauses. -/
theorem named_of_extract [Matching] (ok : extract h c template = .ok x) :
    (∀ e ∈ x.expressions, ∃ declared, Bound declared ∧ e.parameters = signature e.kind declared) ∧
      ∀ k ∈ x.collections, ∃ declared, Bound declared ∧ k.parameters = visible declared := by
  obtain ⟨-, rfl⟩ := extract_eq_ok_iff.mp ok
  have named := Named.start.foldl_step h c (lex template)
  exact ⟨named.expressions, named.collections⟩

/-- Names that end in front of a parenthesis. -/
def NoParenthesis (parameters : List Parameter) : Prop := ∀ p ∈ parameters, ')' ∉ p.name.toList

theorem Bound.noParenthesis {declared : List Parameter} (h : Bound declared) :
    NoParenthesis declared :=
  fun p mem => (h p mem).parenthesis

/-- **The parameters of extracted expressions have names that end in front of a parenthesis.** -/
theorem parameters_of_extract [Matching] (ok : extract h c template = .ok x) {e : Expression}
    (mem : e ∈ x.expressions) : NoParenthesis e.parameters := by
  obtain ⟨declared, bound, parameters⟩ := (named_of_extract ok).1 e mem
  rw [parameters, signature]
  split
  · intro p mem
    rcases List.mem_append.mp mem with seen | event
    · exact bound.visible.noParenthesis p seen
    · obtain rfl := List.mem_singleton.mp event
      decide
  · exact bound.visible.noParenthesis

/-- The parameters of extracted collections have such names as well. -/
theorem parameters_of_collection [Matching] (ok : extract h c template = .ok x) {k : Collection}
    (mem : k ∈ x.collections) : NoParenthesis k.parameters := by
  obtain ⟨declared, bound, parameters⟩ := (named_of_extract ok).2 k mem
  rw [parameters]
  exact bound.visible.noParenthesis

end Extraction

end TemplateCompiler
