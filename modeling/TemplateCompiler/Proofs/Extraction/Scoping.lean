import Mathlib
import TemplateCompiler.Proofs.Extraction.Holes

/-!
# Loop variables

The walk keeps the open scopes on a stack: an opening tag pushes, and a closing tag cuts the stack
at the innermost scope of its name, however deep it lies. Where the tokens of a template form a
tree, this is lexical scoping: an expression has the variables of the elements around it, those of
its own element included if it stands in an attribute, and after an element the stack is what it
was before.

An element has the variables of its first loop directive, the only one that counts.

## Main definitions

* `Extraction.unshadowed` — variables without those that are declared again
* `Extraction.Forest` — tokens as a tree of elements
* `Extraction.Forest.wellNested` — every element that opens a scope has its own closing tag
* `Extraction.Forest.expressions`, `Extraction.Forest.collections` — what the tokens of a tree hold,
  and its parameters

## Main statements

* `Extraction.visible_eq_unshadowed` — what is visible
* `Extraction.Forest.through_tokens` — what a walk through a tree takes out
* `Extraction.lexically_scoped` — the parameters of what is extracted
-/
namespace TemplateCompiler.Extraction

open Text Markup

/-! ## Variables -/

/-- Whether a variable is declared again among those further in. -/
def isHidden (inner : List Parameter) (v : Parameter) : Bool := inner.any fun w => w.name == v.name

/-- Variables, the innermost last, without those that are declared again further in. -/
def unshadowed : List Parameter → List Parameter
  | [] => []
  | v :: inner => if isHidden inner v then unshadowed inner else v :: unshadowed inner

/-- **What is visible is what is not declared again.** -/
theorem visible_eq_unshadowed (declared : List Parameter) :
    visible declared = unshadowed declared := by
  -- variables from further out stay in front as long as their names are not used again
  suffices general : ∀ outer : List Parameter, declared.foldl
      (fun all v => (all.filter fun w => w.name != v.name) ++ [v]) outer =
        (outer.filter fun v => !isHidden declared v) ++ unshadowed declared from general []
  induction declared with
  | nil => simp [unshadowed, isHidden]
  | cons v inner ih =>
    intro outer
    have kept : ((outer.filter fun w => w.name != v.name).filter fun w => !isHidden inner w) =
        outer.filter fun w => !isHidden (v :: inner) w := by
      rw [List.filter_filter]
      apply List.filter_congr
      intro w _
      rw [isHidden, isHidden, List.any_cons, Bool.not_or, Bool.and_comm, bne, Bool.beq_comm]
    rw [List.foldl_cons, ih, List.filter_append, kept, List.append_assoc, unshadowed]
    cases again : isHidden inner v <;> simp [again]

/-- The parameters of an expression in an attribute: the visible variables, and the event. -/
def attributeParameters (inner : List Parameter) : Directive → List Parameter
  | .on _ => inner ++ [eventParameter]
  | _ => inner

/-! ## Trees -/

/-- The element of an opening tag. -/
def tagOf (located : Token × Span) : Element := Element.ofTag located.1.text located.2.start

/-- Whether the token is an opening tag that opens a scope: it is neither void nor closes itself. -/
def opens (located : Token × Span) : Bool :=
  located.1.kind == .openTag && (tagOf located).opensScope

/-- Whether the token is a closing tag with the name of an element, whatever the case of the
letters. -/
def closes (located opening : Token × Span) : Bool :=
  match located.1.kind with
  | .closeTag name => Element.foldName name == Element.foldName (tagOf opening).name
  | _ => false

/-- Tokens as a tree. An element has its opening and closing tags and what is between them. All
other tokens stand for themselves. -/
inductive Forest where
  | nil
  | leaf (token : Token × Span) (rest : Forest)
  | element (opening : Token × Span) (children : Forest) (closing : Token × Span) (rest : Forest)

namespace Forest

/-- The tokens in their order. -/
def tokens : Forest → List (Token × Span)
  | nil => []
  | leaf token rest => token :: rest.tokens
  | element opening children closing rest =>
    opening :: (children.tokens ++ closing :: rest.tokens)

/-- Whether every element that opens a scope has its own closing tag, given the elements around the
tree. Other closing tags close none of these. -/
def wellNested (enclosing : List (Token × Span)) : Forest → Bool
  | nil => true
  | leaf token rest =>
    !opens token && (enclosing.all fun opening => !closes token opening) &&
      rest.wellNested enclosing
  | element opening children closing rest =>
    opens opening && closes closing opening && children.wellNested (enclosing ++ [opening]) &&
      rest.wellNested enclosing

theorem wellNested_leaf {enclosing : List (Token × Span)} {token : Token × Span} {rest : Forest}
    (nested : (leaf token rest).wellNested enclosing) :
    opens token = false ∧ (∀ opening ∈ enclosing, closes token opening = false) ∧
      rest.wellNested enclosing := by
  simpa [wellNested, and_assoc] using nested

theorem wellNested_element {enclosing : List (Token × Span)} {opening closing : Token × Span}
    {children rest : Forest}
    (nested : (element opening children closing rest).wellNested enclosing) :
    opens opening ∧ closes closing opening ∧ children.wellNested (enclosing ++ [opening]) ∧
      rest.wellNested enclosing := by
  simpa [wellNested, and_assoc] using nested

/-- The tokens in their order, each with the opening tags of the elements that are open in front of
it, the outermost first. -/
def visits (enclosing : List (Token × Span)) :
    Forest → List (List (Token × Span) × (Token × Span))
  | nil => []
  | leaf token rest => (enclosing, token) :: rest.visits enclosing
  | element opening children closing rest =>
    (enclosing, opening) :: (children.visits (enclosing ++ [opening]) ++
      (enclosing ++ [opening], closing) :: rest.visits enclosing)

/-- The elements and single tokens of the tree, each with all tokens in front of it. -/
def nodes : Forest → List (List (Token × Span) × List (Token × Span))
  | nil => []
  | leaf token rest => ([], [token]) :: rest.nodes.map (Prod.map (token :: ·) id)
  | element opening children closing rest =>
    let whole := opening :: (children.tokens ++ [closing])
    ([], whole) :: (children.nodes.map (Prod.map (opening :: ·) id) ++
      rest.nodes.map (Prod.map (whole ++ ·) id))

end Forest

/-! ## What a token holds -/

/-- The variables of an element's loop. -/
def ownVariables (located : Token × Span) : List Parameter :=
  (loopPlaces located).flatMap fun place => loopParameters place.2.bindings

/-- The variables that nested elements declare, the outermost first. -/
def declared (elements : List (Token × Span)) : List Parameter := elements.flatMap ownVariables

/-- The expressions in a token and their parameters, given the elements around it. An attribute
sees the variables of its own element, too. -/
def expressionsAt (enclosing : List (Token × Span)) (located : Token × Span) :
    List (String × List Parameter) :=
  match located.1.kind with
  | .interpolation =>
    [(String.ofList (interpolationBody located.1), unshadowed (declared enclosing))]
  | .openTag =>
    (expressionAttributes (tagOf located).attributes).filterMap fun a =>
      (expressionPlace? a).map fun place =>
        (place.2, attributeParameters (unshadowed (declared (enclosing ++ [located]))) a.directive)
  | _ => []

/-- The collection of the loop in a token and its parameters, given the elements around it. -/
def collectionsAt (enclosing : List (Token × Span)) (located : Token × Span) :
    List (String × List Parameter) :=
  (loopPlaces located).map fun place =>
    (String.ofList (cleanBody place.2.collection.text.toList), unshadowed (declared enclosing))

/-- The expressions in the tokens of a tree and their parameters. -/
def Forest.expressions (f : Forest) (enclosing : List (Token × Span)) :
    List (String × List Parameter) :=
  (f.visits enclosing).flatMap fun visit => expressionsAt visit.1 visit.2

/-- The collections in the tokens of a tree and their parameters. -/
def Forest.collections (f : Forest) (enclosing : List (Token × Span)) :
    List (String × List Parameter) :=
  (f.visits enclosing).flatMap fun visit => collectionsAt visit.1 visit.2

/-! ## What a walk adds -/

/-- What a stretch of the walk adds to the records of expressions and collections. -/
structure Adds (w after : Walk) (expressions collections : List (String × List Parameter)) :
    Prop where
  expressions : after.expressions.map (fun e => (e.body, e.parameters)) =
    w.expressions.map (fun e => (e.body, e.parameters)) ++ expressions
  collections : after.collections.map (fun c => (c.body, c.parameters)) =
    w.collections.map (fun c => (c.body, c.parameters)) ++ collections

namespace Adds

variable {w after last : Walk} {es es' cs cs' : List (String × List Parameter)}

theorem refl (w : Walk) : Adds w w [] [] := ⟨(List.append_nil _).symm, (List.append_nil _).symm⟩

theorem trans (first : Adds w after es cs) (next : Adds after last es' cs') :
    Adds w last (es ++ es') (cs ++ cs') where
  expressions := by rw [next.expressions, first.expressions, List.append_assoc]
  collections := by rw [next.collections, first.collections, List.append_assoc]

/-- Scopes have no part in what is added. -/
theorem scopes (added : Adds w after es cs) (scopes : List Scope) :
    Adds w { after with scopes } es cs :=
  ⟨added.expressions, added.collections⟩

theorem take (w : Walk) (span : Span) (replacement : String → String) (kind : ExpressionKind)
    (parameters : List Parameter) (returnType body : String) :
    Adds w (w.take span replacement kind parameters returnType body) [(body, parameters)] [] where
  expressions := by simp [Walk.take]
  collections := by simp [Walk.take]

theorem takeCollection (w : Walk) (c : ComponentType) (span : Span) (clause : LoopClause)
    (parameters : List Parameter) :
    Adds w (w.takeCollection c span clause parameters) []
      [(String.ofList (cleanBody clause.collection.text.toList), parameters)] where
  expressions := by simp [Walk.takeCollection]
  collections := by simp [Walk.takeCollection]

end Adds

/-- Only a listener gets the event. -/
theorem classifyExpression_event_iff (h : TypeHierarchy) (c : ComponentType)
    (directive : Directive) (body : String) :
    (classifyExpression h c directive body).1 = .event ↔ ∃ event, directive = .on event := by
  unfold classifyExpression
  cases directive <;> simp <;> split <;> simp

/-! ## Slots -/

/-- The slots of an element without problems, its loop and then its expressions. -/
theorem slotsOf_eq {attributes : List Attribute} (ok : elementProblems attributes = []) :
    slotsOf attributes =
      ((loopAttribute? attributes).toList.filterMap loopPlace?).map
          (fun place => .loop place.1.span place.2) ++
        (expressionAttributes attributes).filterMap fun a =>
          (expressionPlace? a).map fun place => .expression place.1.span a.directive place.2 := by
  have ok (r : Except Diagnostic Slot) (mem : r ∈ readings attributes) : problem? r = none :=
    List.filterMap_eq_nil_iff.mp ok r mem
  rw [slotsOf, readings, List.filterMap_append, List.filterMap_map, List.filterMap_map,
    List.map_filterMap]
  congr 1
  · apply List.filterMap_congr
    intro a mem
    obtain ⟨value, clause, hvalue, hread, hslot⟩ := exists_clause_of_readLoop
      (ok _ (List.mem_append_left _ (List.mem_map_of_mem mem)))
    simp [hslot, loopPlace?, hvalue, hread, value?]
  · apply List.filterMap_congr
    intro a mem
    obtain ⟨value, hvalue, -, hslot⟩ := exists_value_of_readExpression
      (ok _ (List.mem_append_right _ (List.mem_map_of_mem mem)))
    simp [hslot, expressionPlace?, hvalue, value?]

/-- The variables of the loop that an opening tag without problems has. -/
theorem loopVariables_slotsOf {located : Token × Span} (tag : located.1.kind = .openTag)
    (ok : elementProblems (tagOf located).attributes = []) :
    Walk.loopVariables (slotsOf (tagOf located).attributes) = ownVariables located := by
  have loopless (attributes : List Attribute) :
      Walk.loopVariables (attributes.filterMap fun a => (expressionPlace? a).map fun place =>
        .expression place.1.span a.directive place.2) = [] := by
    induction attributes with
    | nil => rfl
    | cons a rest ih => cases found : expressionPlace? a <;> simpa [found, Walk.loopVariables]
  rw [slotsOf_eq ok, ownVariables, loopPlaces, tag]
  dsimp only
  rw [← tagOf]
  cases loopAttribute? (tagOf located).attributes with
  | none => exact loopless _
  | some a => cases found : loopPlace? a <;> simp [found, Walk.loopVariables, loopless]

namespace Slot

/-- The expression in a slot with its parameters, given the variables inside the element. -/
def expressionWith? (inner : List Parameter) : Slot → Option (String × List Parameter)
  | .loop _ _ => none
  | .expression _ directive body => some (body, attributeParameters inner directive)

/-- The collection in a slot with its parameters, given the variables outside the element. -/
def collectionWith? (outer : List Parameter) : Slot → Option (String × List Parameter)
  | .loop _ clause => some (String.ofList (cleanBody clause.collection.text.toList), outer)
  | .expression _ _ _ => none

end Slot

/-- The expressions in the slots of an element. -/
theorem filterMap_expressionWith? {attributes : List Attribute}
    (ok : elementProblems attributes = []) (inner : List Parameter) :
    (slotsOf attributes).filterMap (Slot.expressionWith? inner) =
      (expressionAttributes attributes).filterMap fun a =>
        (expressionPlace? a).map fun place => (place.2, attributeParameters inner a.directive) := by
  have noLoops : (((loopAttribute? attributes).toList.filterMap loopPlace?).map
      fun place => Slot.loop place.1.span place.2).filterMap (Slot.expressionWith? inner) = [] := by
    rw [List.filterMap_map]
    exact List.filterMap_eq_nil_iff.mpr fun _ _ => rfl
  rw [slotsOf_eq ok, List.filterMap_append, noLoops, List.nil_append, List.filterMap_filterMap]
  apply List.filterMap_congr
  intro a _
  cases expressionPlace? a <;> rfl

/-- The collection in the slots of an element. -/
theorem filterMap_collectionWith? {attributes : List Attribute}
    (ok : elementProblems attributes = []) (outer : List Parameter) :
    (slotsOf attributes).filterMap (Slot.collectionWith? outer) =
      ((loopAttribute? attributes).toList.filterMap loopPlace?).map fun place =>
        (String.ofList (cleanBody place.2.collection.text.toList), outer) := by
  have noExpressions : ((expressionAttributes attributes).filterMap fun a =>
      (expressionPlace? a).map fun place =>
        Slot.expression place.1.span a.directive place.2).filterMap
          (Slot.collectionWith? outer) = [] := by
    rw [List.filterMap_filterMap]
    refine List.filterMap_eq_nil_iff.mpr fun a _ => ?_
    cases expressionPlace? a <;> rfl
  rw [slotsOf_eq ok, List.filterMap_append, noExpressions, List.append_nil, List.filterMap_map]
  exact congrFun List.filterMap_eq_map' _

section Walking

variable (h : TypeHierarchy) (c : ComponentType)

/-- What is in one slot. -/
theorem adds_slot (outer inner : List Parameter) (w : Walk) (slot : Slot) :
    Adds w (w.slot h c outer inner slot) (slot.expressionWith? inner).toList
      (slot.collectionWith? outer).toList := by
  cases slot with
  | loop span clause => exact .takeCollection w c span clause outer
  | expression span directive body =>
    have parameters : (if (classifyExpression h c directive body).1 = .event then
        inner ++ [eventParameter] else inner) = attributeParameters inner directive := by
      by_cases listener : ∃ event, directive = .on event
      · rw [if_pos ((classifyExpression_event_iff h c directive body).mpr listener)]
        obtain ⟨event, rfl⟩ := listener
        rfl
      · rw [if_neg (mt (classifyExpression_event_iff h c directive body).mp listener)]
        cases directive with
        | on event => exact absurd ⟨event, rfl⟩ listener
        | _ => rfl
    rw [Slot.expressionWith?, ← parameters]
    exact .take w span id _ _ _ body

theorem adds_slots (outer inner : List Parameter) (slots : List Slot) (w : Walk) :
    Adds w (slots.foldl (Walk.slot h c outer inner) w) (slots.filterMap (·.expressionWith? inner))
      (slots.filterMap (·.collectionWith? outer)) := by
  induction slots generalizing w with
  | nil => exact .refl w
  | cons slot rest ih =>
    have more := (adds_slot h c outer inner w slot).trans (ih (w.slot h c outer inner slot))
    cases slot with
    | loop span clause => exact more
    | expression span directive body => exact more

theorem scopes_foldl_slot (outer inner : List Parameter) (slots : List Slot) (w : Walk) :
    (slots.foldl (Walk.slot h c outer inner) w).scopes = w.scopes := by
  induction slots generalizing w with
  | nil => rfl
  | cons slot rest ih =>
    rw [List.foldl_cons, ih]
    cases slot <;> rfl

/-! ## One token -/

/-- The scopes that elements have opened, the innermost first. -/
def scopesOf (elements : List (Token × Span)) : List Scope :=
  (elements.map fun opening => ⟨(tagOf opening).name, ownVariables opening⟩).reverse

theorem scopesOf_concat (elements : List (Token × Span)) (opening : Token × Span) :
    scopesOf (elements ++ [opening]) =
      ⟨(tagOf opening).name, ownVariables opening⟩ :: scopesOf elements := by
  simp [scopesOf]

theorem scopeVariables_scopesOf (elements : List (Token × Span)) :
    scopeVariables (scopesOf elements) = declared elements := by
  simp [scopeVariables, scopesOf, declared, List.flatMap_map]

/-- The walk goes on with a token. -/
def Walk.visit (w : Walk) (located : Token × Span) : Walk :=
  (site? located).toList.foldl (step h c) w

variable {w : Walk} {enclosing : List (Token × Span)} {located : Token × Span}

/-- **A token adds what it holds**, with the variables of the elements around it. -/
theorem adds_visit (ok : problems located = []) (inside : w.scopes = scopesOf enclosing) :
    Adds w (w.visit h c located) (expressionsAt enclosing located)
      (collectionsAt enclosing located) := by
  rw [problems] at ok
  rw [Walk.visit, site?, expressionsAt, collectionsAt, loopPlaces]
  cases kind : located.1.kind with
  | interpolation =>
    simp only [Option.toList_some, List.foldl_cons, List.foldl_nil, Walk.step, Walk.interpolation,
      inside, scopeVariables_scopesOf, visible_eq_unshadowed]
    exact .take w _ _ _ _ _ _
  | openTag =>
    simp only [kind] at ok
    rw [← tagOf] at ok ⊢
    simp only [Option.toList_some, List.foldl_cons, List.foldl_nil, Walk.step, inside,
      scopeVariables_scopesOf, visible_eq_unshadowed, loopVariables_slotsOf kind ok]
    have added := adds_slots h c (unshadowed (declared enclosing))
      (unshadowed (declared enclosing ++ ownVariables located))
      (slotsOf (tagOf located).attributes) w
    rw [filterMap_expressionWith? ok, filterMap_collectionWith? ok] at added
    have inner : declared (enclosing ++ [located]) =
        declared enclosing ++ ownVariables located := by
      simp [declared]
    rw [inner]
    split
    · exact added.scopes _
    · exact added
  | closeTag name =>
    simp only [Option.toList_some, List.foldl_cons, List.foldl_nil]
    exact (Adds.refl w).scopes _
  | unterminatedInterpolation | comment | text | stray => exact .refl w

/-- An opening tag that opens a scope leaves its own one on the stack. -/
theorem scopes_visit_of_opens (ok : problems located = []) (inside : w.scopes = scopesOf enclosing)
    (opening : opens located) :
    (w.visit h c located).scopes = scopesOf (enclosing ++ [located]) := by
  obtain ⟨tag, unclosed⟩ := Bool.and_eq_true_iff.mp opening
  replace tag := beq_iff_eq.mp tag
  rw [problems, tag] at ok
  dsimp only at ok
  rw [← tagOf] at ok
  rw [Walk.visit, site?, tag]
  dsimp only
  rw [← tagOf]
  simp only [Option.toList_some, List.foldl_cons, List.foldl_nil, Walk.step, unclosed, if_true,
    scopes_foldl_slot, loopVariables_slotsOf tag ok, inside, scopesOf_concat]

/-- The closing tag of the innermost element leaves the scopes of the others. -/
theorem scopes_visit_of_closes {opening : Token × Span}
    (inside : w.scopes = scopesOf (enclosing ++ [opening])) (closing : closes located opening) :
    (w.visit h c located).scopes = scopesOf enclosing := by
  rw [closes] at closing
  rw [Walk.visit, site?]
  cases kind : located.1.kind with
  | closeTag name =>
    rw [kind] at closing
    have same : Element.foldName (tagOf opening).name = Element.foldName name :=
      (beq_iff_eq.mp closing).symm
    simp only [Option.toList_some, List.foldl_cons, List.foldl_nil, Walk.step, inside,
      scopesOf_concat]
    simp [closeScope, same]
  | openTag | interpolation | unterminatedInterpolation | comment | text | stray =>
    simp [kind] at closing

/-- Any other token leaves the scopes as they are. -/
theorem scopes_visit_of_leaf (inside : w.scopes = scopesOf enclosing)
    (opensNone : opens located = false)
    (closesNone : ∀ opening ∈ enclosing, closes located opening = false) :
    (w.visit h c located).scopes = scopesOf enclosing := by
  rw [Walk.visit, site?]
  cases kind : located.1.kind with
  | openTag =>
    have closed : (tagOf located).opensScope = false := by simpa [opens, kind] using opensNone
    dsimp only
    rw [← tagOf]
    simp only [Option.toList_some, List.foldl_cons, List.foldl_nil, Walk.step, closed,
      Bool.false_eq_true, if_false, scopes_foldl_slot, inside]
  | closeTag name =>
    have unmatched : (scopesOf enclosing).any (fun scope =>
        Element.foldName scope.tag == Element.foldName name) = false := by
      rw [scopesOf, List.any_reverse, List.any_map, List.any_eq_false]
      intro opening mem same
      have matched : closes located opening = true := by
        rw [closes, kind]
        exact beq_iff_eq.mpr (beq_iff_eq.mp same).symm
      rw [closesNone opening mem] at matched
      cases matched
    simp only [Option.toList_some, List.foldl_cons, List.foldl_nil, Walk.step, inside, closeScope,
      unmatched, Bool.false_eq_true, if_false]
  | interpolation | unterminatedInterpolation | comment | text | stray => exact inside

/-! ## Trees of tokens -/

/-- The walk goes on with several tokens. -/
def Walk.through (w : Walk) (located : List (Token × Span)) : Walk :=
  located.foldl (Walk.visit h c) w

theorem Walk.through_append (w : Walk) (first more : List (Token × Span)) :
    w.through h c (first ++ more) = (w.through h c first).through h c more :=
  List.foldl_append

/-- Sites are visited one token after the other. -/
theorem run_eq_through (tokens : List (Token × Span)) :
    Walk.run h c (tokens.filterMap site?) = Walk.start.through h c tokens := by
  rw [Walk.run]
  generalize Walk.start = w
  induction tokens generalizing w with
  | nil => rfl
  | cons located rest ih =>
    rw [filterMap_site?_cons, List.foldl_append, ih]
    rfl

namespace Forest

/-- **A walk through a tree** takes out what its tokens hold and ends in the scopes in which it
began. -/
theorem through_tokens (f : Forest) {w : Walk} {enclosing : List (Token × Span)}
    (nested : f.wellNested enclosing) (ok : ∀ located ∈ f.tokens, problems located = [])
    (inside : w.scopes = scopesOf enclosing) :
    (w.through h c f.tokens).scopes = scopesOf enclosing ∧
      Adds w (w.through h c f.tokens) (f.expressions enclosing) (f.collections enclosing) := by
  induction f generalizing w enclosing with
  | nil => exact ⟨inside, .refl w⟩
  | leaf token rest ih =>
    obtain ⟨opensNone, closesNone, nested⟩ := wellNested_leaf nested
    have okToken := ok token List.mem_cons_self
    obtain ⟨scopes, more⟩ := ih nested (fun t mem => ok t (List.mem_cons_of_mem _ mem))
      (scopes_visit_of_leaf h c inside opensNone closesNone)
    exact ⟨scopes, (adds_visit h c okToken inside).trans more⟩
  | element opening children closing rest ihChildren ihRest =>
    obtain ⟨opens, closes, nestedChildren, nestedRest⟩ := wellNested_element nested
    have okOpening := ok opening List.mem_cons_self
    have okClosing := ok closing (by simp [tokens])
    have opened := scopes_visit_of_opens h c okOpening inside opens
    obtain ⟨kept, addsChildren⟩ := ihChildren nestedChildren
      (fun t mem => ok t (by simp [tokens, mem])) opened
    have closed := scopes_visit_of_closes h c kept closes
    obtain ⟨scopes, addsRest⟩ := ihRest nestedRest
      (fun t mem => ok t (by simp [tokens, mem])) closed
    have adds := (adds_visit h c okOpening inside).trans
      (addsChildren.trans ((adds_visit h c okClosing kept).trans addsRest))
    simp only [tokens, expressions, collections, visits, Walk.through, List.foldl_cons,
      List.foldl_append, List.flatMap_cons, List.flatMap_append]
    exact ⟨scopes, adds⟩

/-- **After an element the scopes are what they were before it.** -/
theorem scopes_of_mem_nodes (f : Forest) {w : Walk} {enclosing : List (Token × Span)}
    (nested : f.wellNested enclosing) (ok : ∀ located ∈ f.tokens, problems located = [])
    (inside : w.scopes = scopesOf enclosing) {before node : List (Token × Span)}
    (mem : (before, node) ∈ f.nodes) :
    (w.through h c (before ++ node)).scopes = (w.through h c before).scopes := by
  induction f generalizing w enclosing before with
  | nil => cases mem
  | leaf token rest ih =>
    obtain ⟨opensNone, closesNone, nested⟩ := wellNested_leaf nested
    have after := scopes_visit_of_leaf h c inside opensNone closesNone
    rcases List.mem_cons.mp mem with same | behind
    · obtain ⟨rfl, rfl⟩ := Prod.mk.inj same
      exact after.trans inside.symm
    · obtain ⟨⟨front, _⟩, inRest, same⟩ := List.mem_map.mp behind
      obtain ⟨rfl, rfl⟩ := Prod.mk.inj same
      exact ih nested (fun t mem => ok t (List.mem_cons_of_mem _ mem)) after inRest
  | element opening children closing rest ihChildren ihRest =>
    obtain ⟨opens, closes, nestedChildren, nestedRest⟩ := wellNested_element nested
    have okOpening := ok opening List.mem_cons_self
    have opened := scopes_visit_of_opens h c okOpening inside opens
    -- the element by itself is a tree
    have whole := (through_tokens h c (element opening children closing nil)
      (by simp [wellNested, opens, closes, nestedChildren])
      (fun t mem => ok t (by simp only [tokens, List.mem_cons, List.mem_append] at mem ⊢; tauto))
      inside).1
    rcases List.mem_cons.mp mem with same | behind
    · obtain ⟨rfl, rfl⟩ := Prod.mk.inj same
      exact whole.trans inside.symm
    · rcases List.mem_append.mp behind with inside | behind
      · obtain ⟨⟨front, _⟩, inChildren, same⟩ := List.mem_map.mp inside
        obtain ⟨rfl, rfl⟩ := Prod.mk.inj same
        exact ihChildren nestedChildren (fun t mem => ok t (by simp [tokens, mem])) opened
          inChildren
      · obtain ⟨⟨front, _⟩, inRest, same⟩ := List.mem_map.mp behind
        obtain ⟨rfl, rfl⟩ := Prod.mk.inj same
        dsimp only
        rw [List.append_assoc, Walk.through_append, Walk.through_append h c w _ front]
        exact ihRest nestedRest (fun t mem => ok t (by simp [tokens, mem])) whole inRest

end Forest

end Walking

/-! ## Lexical scoping -/

/-- **Loop variables are lexically scoped.** If the tokens of a template form a tree, the parameters
of what is extracted are the variables of the elements around it, and no element changes the scopes
for what follows. -/
theorem lexically_scoped [Matching] {h : TypeHierarchy} {c : ComponentType} {template : String}
    {x : Extraction} (ok : extract h c template = .ok x) {f : Forest}
    (spells : f.tokens = lex template) (nested : f.wellNested []) :
    x.expressions.map (fun e => (e.body, e.parameters)) = f.expressions [] ∧
      x.collections.map (fun c => (c.body, c.parameters)) = f.collections [] ∧
      ∀ node ∈ f.nodes, (Walk.run h c ((node.1 ++ node.2).filterMap site?)).scopes =
        (Walk.run h c (node.1.filterMap site?)).scopes := by
  obtain ⟨noProblems, rfl⟩ := extract_eq_ok_iff.mp ok
  have clean : ∀ located ∈ f.tokens, problems located = [] := by
    rw [spells]
    exact List.flatMap_eq_nil_iff.mp noProblems
  obtain ⟨-, adds⟩ := f.through_tokens h c nested clean (w := .start) rfl
  rw [spells, ← run_eq_through] at adds
  refine ⟨adds.expressions, adds.collections, fun node mem => ?_⟩
  rw [run_eq_through, run_eq_through]
  exact f.scopes_of_mem_nodes h c nested clean (w := .start) rfl mem

/-- Loops in which a name is used again, once with a type, a void element, closing tags in other
letters and one that closes nothing. -/
def shadowedLoops : String :=
  "<p v-for='a in b'><B v-for='C a in a' @d='f(a)'><br v-for='e in a'>{{ a }}</b></i>{{ a }}</P>"

/-- The tree of its tokens. -/
def shadowedTree : Forest :=
  .element (⟨.openTag, "<p v-for='a in b'>".toList⟩, ⟨0, 18⟩)
    (.element (⟨.openTag, "<B v-for='C a in a' @d='f(a)'>".toList⟩, ⟨18, 48⟩)
      (.leaf (⟨.openTag, "<br v-for='e in a'>".toList⟩, ⟨48, 67⟩)
        (.leaf (⟨.interpolation, "{{ a }}".toList⟩, ⟨67, 74⟩) .nil))
      (⟨.closeTag "b", "</b>".toList⟩, ⟨74, 78⟩)
      (.leaf (⟨.closeTag "i", "</i>".toList⟩, ⟨78, 82⟩)
        (.leaf (⟨.interpolation, "{{ a }}".toList⟩, ⟨82, 89⟩) .nil)))
    (⟨.closeTag "P", "</P>".toList⟩, ⟨89, 93⟩) .nil

set_option maxRecDepth 2000 in
/-- The listener and the inner text see the typed variable, the outer text the other one. -/
theorem shadowedLoops_lexically_scoped :
    shadowedTree.tokens = lex shadowedLoops ∧ shadowedTree.wellNested [] = true ∧
      ∃ x, extract default default shadowedLoops = .ok x ∧
        (x.expressions.map (fun e => (e.body, e.parameters)) = shadowedTree.expressions [] ∧
          x.collections.map (fun c => (c.body, c.parameters)) = shadowedTree.collections [] ∧
          ∀ node ∈ shadowedTree.nodes,
            (Walk.run default default ((node.1 ++ node.2).filterMap site?)).scopes =
              (Walk.run default default (node.1.filterMap site?)).scopes) ∧
        x.expressions.map Expression.parameters =
          [[⟨"a", "C"⟩, eventParameter], [⟨"a", "C"⟩], [⟨"a", objectType⟩]] := by
  have spells : shadowedTree.tokens = lex shadowedLoops := by cbv
  have nested : shadowedTree.wellNested [] = true := by cbv
  have ok : extract default default shadowedLoops = .ok
      ⟨"<p v-for='a in col$0Array'><B v-for='a in col$1Array' @d='exp$0'>" ++
          "<br v-for='e in col$2Array'>{{ exp$1 }}</b></i>{{ exp$2 }}</P>",
        [⟨"exp$0", .event, [⟨"a", "C"⟩, eventParameter], voidType, "f(a)"⟩,
          ⟨"exp$1", .getter, [⟨"a", "C"⟩], "String", "a"⟩,
          ⟨"exp$2", .getter, [⟨"a", objectType⟩], "String", "a"⟩],
        [⟨"col$0", [], objectType, "b"⟩, ⟨"col$1", [⟨"a", objectType⟩], objectType, "a"⟩,
          ⟨"col$2", [⟨"a", "C"⟩], objectType, "a"⟩]⟩ := by
    cbv
  exact ⟨spells, nested, _, ok, lexically_scoped ok spells nested, rfl⟩

end TemplateCompiler.Extraction
