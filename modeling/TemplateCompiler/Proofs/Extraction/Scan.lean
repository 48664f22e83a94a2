import Mathlib
import TemplateCompiler.Proofs.Extraction.Holes

/-!
# Scanning on behind a problem

Extraction reads off all problems of a template first and walks over it only if there are none. A
scanner that goes over the template once does not have that choice: it meets a problem in the
middle of its work and scans on, with scopes in which the variables of a loop may be missing, and
with numbers that do not count what could not be taken out. Both say the same. Whatever state the
scan is in, and whatever is known about the component, a token is blamed for what is wrong with
the token, so that no problem hides another one or makes it look different.

## Main definitions

* `Extraction.Scan` — the state of a scan, with a step for each token
* `Extraction.Complains` — what is wrong with a token, and how it is worded
* `Extraction.blamed` — what a scan over the token alone reports

## Main statements

* `Extraction.Scan.problems_visit`, `Extraction.Scan.problems_foldl_visit` — what a token adds to
  the problems, and what a scan reports
* `Extraction.mem_problems_iff` — each problem of a token
* `Extraction.Scan.outcome_run` — a scan has the outcome of the extraction
* `Extraction.extract_blames_each_token` — which problems an extraction reports
-/
namespace TemplateCompiler.Extraction

open Text Markup

/-! ## The scan -/

/-- The state of a scan: how far the walk has got, and the problems met on the way. -/
structure Scan where
  walk : Walk
  problems : List Diagnostic

namespace Scan

/-- Where a scan begins. -/
def start : Scan := ⟨.start, []⟩

/-- One more problem. Everything else stays as it is. -/
def report (s : Scan) (problem : Diagnostic) : Scan :=
  { s with problems := s.problems ++ [problem] }

section Step

variable (h : TypeHierarchy) (c : ComponentType)

/-- Take out what has been read in an attribute, or report why nothing was. -/
def take (outer inner : List Parameter) (s : Scan) : Except Diagnostic Slot → Scan
  | .ok slot => { s with walk := s.walk.slot h c outer inner slot }
  | .error problem => s.report problem

/-- Scan an opening tag. Its loop comes first. If the loop cannot be read, the element has no
variables of its own, but its other attributes are scanned all the same. -/
def element (s : Scan) (element : Element) : Scan :=
  let loop := (loopAttribute? element.attributes).toList.map readLoop
  let own := Walk.loopVariables (loop.filterMap value?)
  let outer := visible (scopeVariables s.walk.scopes)
  let inner := visible (scopeVariables s.walk.scopes ++ own)
  let after := element.attributes.foldl
    (fun s a => if a.directive.takesExpression then s.take h c outer inner (readExpression a) else s)
    (loop.foldl (take h c outer inner) s)
  if element.opensScope then
    { after with walk := { after.walk with scopes := ⟨element.name, own⟩ :: after.walk.scopes } }
  else after

/-- Scan a token. -/
def visit (s : Scan) (located : Token × Span) : Scan :=
  match located.1.kind with
  | .interpolation =>
    let body := interpolationBody located.1
    if body = [] then s.report (.plain located.2 "empty interpolation")
    else { s with walk := s.walk.interpolation h c located.2 (String.ofList body) }
  | .unterminatedInterpolation => s.report (.plain located.2 "unterminated interpolation")
  | .openTag => s.element h c (Element.ofTag located.1.text located.2.start)
  | .closeTag name =>
    { s with walk := { s.walk with scopes := closeScope name s.walk.scopes } }
  | .comment | .text | .stray => s

/-- Scan all tokens. -/
def run (tokens : List (Token × Span)) : Scan := tokens.foldl (visit h c) start

end Step

/-- What comes out of a scan: the problems, or if there are none what has been taken out. -/
def outcome (template : String) (s : Scan) : Except (List Diagnostic) Extraction :=
  match s.problems with
  | [] => .ok (s.walk.extraction template)
  | found => .error found

end Scan

/-! ## Problems of a token -/

/-- Attributes of the element of an opening tag. -/
def attributesAt (located : Token × Span) : List Attribute :=
  (Element.ofTag located.1.text located.2.start).attributes

/-- What can be wrong with a token, and how it is worded. -/
inductive Complains (located : Token × Span) : Diagnostic → Prop where
  /-- Two opening braces without closing ones. -/
  | unterminated : located.1.kind = .unterminatedInterpolation →
    Complains located (.plain located.2 "unterminated interpolation")
  /-- An interpolation of which nothing is left. -/
  | empty : located.1.kind = .interpolation → interpolationBody located.1 = [] →
    Complains located (.plain located.2 "empty interpolation")
  /-- A directive that takes an expression and has no value. -/
  | valueless {a : Attribute} : located.1.kind = .openTag → a ∈ attributesAt located →
    a.directive.takesExpression = true → a.value = none →
      Complains located (.plain a.name.span (a.name.text ++ " needs an expression"))
  /-- A directive that takes an expression and has a value of which nothing is left. -/
  | bodiless {a : Attribute} {value : Located} : located.1.kind = .openTag →
    a ∈ attributesAt located → a.directive.takesExpression = true → a.value = some value →
      cleanBody value.text.toList = [] →
        Complains located (.plain value.span (a.name.text ++ " needs an expression"))
  /-- A loop directive without a value, if it is the first one of the element. -/
  | clauseless {a : Attribute} : located.1.kind = .openTag →
    loopAttribute? (attributesAt located) = some a → a.value = none →
      Complains located (.plain a.name.span "v-for needs a loop clause")
  /-- A loop directive whose value is not a clause, if it is the first one of the element. -/
  | refused {a : Attribute} {value : Located} {problem : Diagnostic} :
    located.1.kind = .openTag → loopAttribute? (attributesAt located) = some a →
      a.value = some value → LoopClause.read value.text = .error problem →
        Complains located (problem.shift value.span.start)

theorem problem?_readLoop_eq_some_iff {a : Attribute} {d : Diagnostic} :
    problem? (readLoop a) = some d ↔
      (a.value = none ∧ d = .plain a.name.span "v-for needs a loop clause") ∨
        ∃ value problem, a.value = some value ∧ LoopClause.read value.text = .error problem ∧
          d = problem.shift value.span.start := by
  rw [readLoop]
  cases a.value with
  | none => simp [problem?, @eq_comm _ d]
  | some value => cases hread : LoopClause.read value.text <;> simp [problem?, hread, @eq_comm _ d]

theorem problem?_readExpression_eq_some_iff {a : Attribute} {d : Diagnostic} :
    problem? (readExpression a) = some d ↔
      (a.value = none ∧ d = .plain a.name.span (a.name.text ++ " needs an expression")) ∨
        ∃ value, a.value = some value ∧ cleanBody value.text.toList = [] ∧
          d = .plain value.span (a.name.text ++ " needs an expression") := by
  rw [readExpression]
  cases a.value with
  | none => simp [problem?, @eq_comm _ d]
  | some value =>
    by_cases empty : cleanBody value.text.toList = [] <;> simp [problem?, empty, @eq_comm _ d]

/-- **What is wrong with a token** is one of these things, for each of its attributes. -/
theorem mem_problems_iff {located : Token × Span} {d : Diagnostic} :
    d ∈ problems located ↔ Complains located d := by
  constructor
  · intro mem
    rw [problems] at mem
    split at mem
    · next kind => exact List.mem_singleton.mp mem ▸ .unterminated kind
    · next kind =>
      split at mem
      · next empty => exact List.mem_singleton.mp mem ▸ .empty kind empty
      · cases mem
    · next kind =>
      obtain ⟨reading, inReadings, hproblem⟩ := List.mem_filterMap.mp mem
      rcases List.mem_append.mp inReadings with loop | expression
      · obtain ⟨a, ha, rfl⟩ := List.mem_map.mp loop
        have first := Option.mem_toList.mp ha
        rcases problem?_readLoop_eq_some_iff.mp hproblem with ⟨none, rfl⟩ |
          ⟨value, problem, hvalue, hread, rfl⟩
        · exact .clauseless kind first none
        · exact .refused kind first hvalue hread
      · obtain ⟨a, ha, rfl⟩ := List.mem_map.mp expression
        obtain ⟨inTag, takes⟩ := List.mem_filter.mp ha
        rcases problem?_readExpression_eq_some_iff.mp hproblem with ⟨none, rfl⟩ |
          ⟨value, hvalue, empty, rfl⟩
        · exact .valueless kind inTag takes none
        · exact .bodiless kind inTag takes hvalue empty
    · cases mem
  · have ofExpression {a : Attribute} {d : Diagnostic} (kind : located.1.kind = .openTag)
        (inTag : a ∈ attributesAt located) (takes : a.directive.takesExpression = true)
        (hproblem : problem? (readExpression a) = some d) : d ∈ problems located := by
      rw [problems, kind]
      exact List.mem_filterMap.mpr ⟨_, List.mem_append_right _
        (List.mem_map_of_mem (List.mem_filter.mpr ⟨inTag, takes⟩)), hproblem⟩
    have ofLoop {a : Attribute} {d : Diagnostic} (kind : located.1.kind = .openTag)
        (first : loopAttribute? (attributesAt located) = some a)
        (hproblem : problem? (readLoop a) = some d) : d ∈ problems located := by
      rw [problems, kind]
      exact List.mem_filterMap.mpr ⟨_, List.mem_append_left _
        (List.mem_map_of_mem (Option.mem_toList.mpr first)), hproblem⟩
    rintro (kind | ⟨kind, empty⟩ | ⟨kind, inTag, takes, none⟩ |
      ⟨kind, inTag, takes, hvalue, empty⟩ | ⟨kind, first, none⟩ | ⟨kind, first, hvalue, hread⟩)
    · simp [problems, kind]
    · simp [problems, kind, empty]
    · exact ofExpression kind inTag takes (problem?_readExpression_eq_some_iff.mpr (.inl ⟨none, rfl⟩))
    · exact ofExpression kind inTag takes
        (problem?_readExpression_eq_some_iff.mpr (.inr ⟨_, hvalue, empty, rfl⟩))
    · exact ofLoop kind first (problem?_readLoop_eq_some_iff.mpr (.inl ⟨none, rfl⟩))
    · exact ofLoop kind first (problem?_readLoop_eq_some_iff.mpr (.inr ⟨_, _, hvalue, hread, rfl⟩))

/-! ## What a scan reports -/

namespace Scan

section Step

variable (h : TypeHierarchy) (c : ComponentType)

/-- Reading attributes one after the other adds the problems of those that cannot be read, and
takes out what is in the others. -/
theorem foldl_take (outer inner : List Parameter) (readings : List (Except Diagnostic Slot))
    (s : Scan) :
    readings.foldl (take h c outer inner) s =
      ⟨(readings.filterMap value?).foldl (Walk.slot h c outer inner) s.walk,
        s.problems ++ readings.filterMap problem?⟩ := by
  induction readings generalizing s with
  | nil => simp
  | cons reading rest ih =>
    rw [List.foldl_cons, ih]
    cases reading with
    | ok slot => simp [take, List.filterMap_cons, value?, problem?]
    | error problem => simp [take, report, List.filterMap_cons, value?, problem?]

/-- Attributes that take no expression are passed over. -/
theorem foldl_attributes (outer inner : List Parameter) (attributes : List Attribute) (s : Scan) :
    attributes.foldl (fun s a => if a.directive.takesExpression then
        s.take h c outer inner (readExpression a) else s) s =
      ((expressionAttributes attributes).map readExpression).foldl (take h c outer inner) s := by
  rw [expressionAttributes, List.foldl_map, List.foldl_filter]

/-- Expressions have no variables. -/
theorem loopVariables_expressions (first : List Slot) (attributes : List Attribute) :
    Walk.loopVariables (first ++ (attributes.map readExpression).filterMap value?) =
      Walk.loopVariables first := by
  induction first with
  | nil =>
    induction attributes with
    | nil => rfl
    | cons a rest ih =>
      rw [List.map_cons, List.filterMap_cons]
      cases hread : readExpression a with
      | error problem => exact ih
      | ok slot =>
        obtain ⟨value, -, -, hslot⟩ :=
          exists_value_of_readExpression (a := a) (by rw [hread]; rfl)
        obtain rfl := Except.ok.inj (hread.symm.trans hslot)
        exact ih
  | cons slot rest ih =>
    cases slot with
    | loop span clause => rfl
    | expression span directive body => exact ih

/-- Scanning an opening tag goes through its readings. The variables of the element are those of
the slots that can be read. -/
theorem element_eq (s : Scan) (element : Element) :
    s.element h c element =
      ⟨s.walk.step h c (.element element.name element.opensScope (slotsOf element.attributes)),
        s.problems ++ elementProblems element.attributes⟩ := by
  have own := loopVariables_expressions
    (((loopAttribute? element.attributes).toList.map readLoop).filterMap value?)
    (expressionAttributes element.attributes)
  rw [← List.filterMap_append, ← readings, ← slotsOf] at own
  rw [Scan.element]
  dsimp only
  rw [foldl_attributes, ← List.foldl_append, ← readings, foldl_take, ← own, Walk.step]
  split <;> rfl

/-- **A token adds what is wrong with it to the problems**, whatever has been met before it and
whatever is known about the component. -/
theorem problems_visit (s : Scan) (located : Token × Span) :
    (s.visit h c located).problems = s.problems ++ Extraction.problems located := by
  rw [visit, Extraction.problems]
  cases located.1.kind with
  | interpolation =>
    dsimp only
    split
    · rfl
    · exact (List.append_nil _).symm
  | openTag =>
    dsimp only
    rw [element_eq]
  | unterminatedInterpolation => rfl
  | closeTag | comment | text | stray => exact (List.append_nil _).symm

/-- A token with which nothing is wrong is a site of the walk, or none. -/
theorem walk_visit (s : Scan) {located : Token × Span} (ok : Extraction.problems located = []) :
    (s.visit h c located).walk = (site? located).toList.foldl (Walk.step h c) s.walk := by
  rw [Extraction.problems] at ok
  rw [visit, site?]
  cases kind : located.1.kind with
  | interpolation =>
    simp only [kind, ite_eq_right_iff, List.cons_ne_nil, imp_false] at ok
    simp only [if_neg ok]
    rfl
  | openTag =>
    dsimp only
    rw [element_eq]
    rfl
  | closeTag name => rfl
  | unterminatedInterpolation => simp [kind] at ok
  | comment | text | stray => rfl

/-- **What a scan reports**: the problems of all tokens in their order. -/
theorem problems_foldl_visit (tokens : List (Token × Span)) (s : Scan) :
    (tokens.foldl (visit h c) s).problems = s.problems ++ tokens.flatMap Extraction.problems := by
  induction tokens generalizing s with
  | nil => exact (List.append_nil _).symm
  | cons located rest ih =>
    rw [List.foldl_cons, ih, problems_visit, List.flatMap_cons, List.append_assoc]

/-- Without problems a scan is a walk over the sites. -/
theorem walk_foldl_visit {tokens : List (Token × Span)}
    (ok : tokens.flatMap Extraction.problems = []) (s : Scan) :
    (tokens.foldl (visit h c) s).walk =
      (tokens.filterMap site?).foldl (Walk.step h c) s.walk := by
  induction tokens generalizing s with
  | nil => rfl
  | cons located rest ih =>
    rw [List.flatMap_cons, List.append_eq_nil_iff] at ok
    rw [List.foldl_cons, ih ok.2, walk_visit h c s ok.1, filterMap_site?_cons, List.foldl_append]

/-- **A scan has the outcome of the extraction.** -/
theorem outcome_run [Matching] (template : String) :
    (run h c (lex template)).outcome template = extract h c template := by
  have problems := problems_foldl_visit h c (lex template) start
  rw [show start.problems = [] from rfl, List.nil_append] at problems
  rw [outcome, run, problems, extract]
  cases found : (lex template).flatMap Extraction.problems with
  | nil =>
    dsimp only
    rw [walk_foldl_visit h c found start, Walk.run]
    rfl
  | cons d rest => rfl

end Step

end Scan

/-! ## What an extraction reports -/

/-- What is reported of a token by itself: by a scan over nothing else, in a component of which
nothing is known. -/
def blamed (located : Token × Span) : List Diagnostic :=
  (Scan.start.visit default default located).problems

theorem blamed_eq_problems (located : Token × Span) : blamed located = problems located :=
  Scan.problems_visit default default .start located

/-- An extraction reports what is wrong with the tokens, if anything is. -/
theorem extract_eq_error_iff [Matching] {h : TypeHierarchy} {c : ComponentType} {template : String}
    {found : List Diagnostic} :
    extract h c template = .error found ↔
      found = (lex template).flatMap problems ∧ found ≠ [] := by
  rw [extract]
  split
  · next ok =>
    rw [ok]
    constructor
    · intro fails
      cases fails
    · rintro ⟨rfl, nonempty⟩
      exact absurd rfl nonempty
  · next ne =>
    rw [Except.error.injEq]
    constructor
    · rintro rfl
      exact ⟨rfl, ne⟩
    · exact fun reports => reports.1.symm

/-- **Every token is blamed for what is wrong with it, and for nothing else.** An extraction has
the outcome of a scan that goes on behind problems. It fails exactly if something is wrong with a
token, and then it reports, token by token, what is wrong with each of them. What is wrong with a
token is the same in every state of a scan and for every component. -/
theorem extract_blames_each_token [Matching] (h : TypeHierarchy) (c : ComponentType) (template : String) :
    extract h c template = (Scan.run h c (lex template)).outcome template ∧
      ((∃ found, extract h c template = .error found) ↔
        ∃ located ∈ lex template, ∃ d, Complains located d) ∧
      (∀ found, extract h c template = .error found → found = (lex template).flatMap blamed) ∧
      (∀ located d, d ∈ blamed located ↔ Complains located d) ∧
      ∀ (h' : TypeHierarchy) (c' : ComponentType) (s : Scan) (located : Token × Span),
        (s.visit h' c' located).problems = s.problems ++ blamed located := by
  have blamed_eq : blamed = problems := funext blamed_eq_problems
  rw [blamed_eq]
  refine ⟨(Scan.outcome_run h c template).symm, ?_, fun found fails => ?_,
    fun located d => mem_problems_iff, fun h' c' s located => Scan.problems_visit h' c' s located⟩
  · constructor
    · rintro ⟨found, fails⟩
      obtain ⟨rfl, nonempty⟩ := extract_eq_error_iff.mp fails
      obtain ⟨d, mem⟩ := List.exists_mem_of_ne_nil _ nonempty
      obtain ⟨located, inLex, inToken⟩ := List.mem_flatMap.mp mem
      exact ⟨located, inLex, d, mem_problems_iff.mp inToken⟩
    · rintro ⟨located, inLex, d, complains⟩
      have mem := List.mem_flatMap.mpr ⟨located, inLex, mem_problems_iff.mpr complains⟩
      exact ⟨_, extract_eq_error_iff.mpr ⟨rfl, List.ne_nil_of_mem mem⟩⟩
  · exact (extract_eq_error_iff.mp fails).1

/-- A listener without a statement in front of a loop without a collection, a directive without a
value, an empty interpolation inside the loop, and braces without an end. -/
theorem five_problems_blamed :
    ∃ found, extract default default "<p @c=\";\" v-for=\"é in\" :a>\x7b\x7b ; \x7d\x7d\x7b\x7b " = .error found ∧
      found = (lex "<p @c=\";\" v-for=\"é in\" :a>\x7b\x7b ; \x7d\x7d\x7b\x7b ").flatMap blamed ∧
      found.map Diagnostic.message =
        ["Unexpected end of input", "@c needs an expression", ":a needs an expression",
          "empty interpolation", "unterminated interpolation"] := by
  have fails : extract default default "<p @c=\";\" v-for=\"é in\" :a>\x7b\x7b ; \x7d\x7d\x7b\x7b " =
      .error [⟨⟨22, 22⟩, "Unexpected end of input", ["any"]⟩,
        ⟨⟨7, 8⟩, "@c needs an expression", []⟩, ⟨⟨24, 26⟩, ":a needs an expression", []⟩,
        ⟨⟨27, 34⟩, "empty interpolation", []⟩, ⟨⟨34, 36⟩, "unterminated interpolation", []⟩] := by
    cbv
  exact ⟨_, fails, (extract_blames_each_token default default _).2.2.1 _ fails, rfl⟩

end TemplateCompiler.Extraction
