import Mathlib
import TemplateCompiler.Accessor.Recovery
import TemplateCompiler.Accessor.Synthesis
import TemplateCompiler.Proofs.Extraction.Records

/-!
# Recovering what has been written

An accessor is written as the source of a function, and the expression is recovered from that
source. What is written in front of the expression depends on the type of the result, but what is
dropped when it is recovered does not: a `return` is dropped from every function, also from one
whose expression is a statement and which never got any. All else is recovered as it was, whatever
brackets, semicolons or lines the expression has.

## Main definitions

* `Accessor.BeginsWithReturn` — the expressions that are taken for more than they are

## Main statements

* `Accessor.expression?_of_not_return` — what is recovered as it was written
* `Accessor.expression?_of_return` — what is left of a statement that begins with `return`
* `Accessor.expression?_extracted_iff` — both for every expression that is extracted
-/
namespace TemplateCompiler.Accessor

open Text Markup Extraction

/-! ## The shape of the function -/

/-- What a function has in front of its expression. -/
def leadOf : ReturnShape → List Char
  | .statement => []
  | _ => "return ".toList

/-- The text between the braces. -/
def innerOf (shape : ReturnShape) (body : List Char) : List Char :=
  ' ' :: (leadOf shape ++ (body ++ [';', ' ']))

/-- The source, cut where it is read. -/
theorem toList_compiledSource (parameters : List Parameter) (shape : ReturnShape)
    (body : String) :
    (compiledSource parameters shape body).toList =
      "function".toList ++ ('(' ::
        ((String.intercalate ", " (parameters.map Parameter.name)).toList ++
          (')' :: ' ' :: '{' :: (innerOf shape body.toList ++ ['}'])))) := by
  cases shape <;>
    simp [compiledSource, innerOf, leadOf, -String.toList_intercalate, List.append_assoc]

/-- The parameters end at their parenthesis. -/
theorem dropWhile_names {parameters : List Parameter} (names : NoParenthesis parameters)
    (rest : List Char) :
    ((String.intercalate ", " (parameters.map Parameter.name)).toList ++ (')' :: rest)).dropWhile
      (· != ')') = ')' :: rest := by
  have joined : ∀ c ∈ (String.intercalate ", " (parameters.map Parameter.name)).toList,
      (c != ')') = true := by
    intro c mem
    rcases mem_intercalate mem with separator | ⟨name, hname, inName⟩
    · have : ∀ c ∈ ", ".toList, (c != ')') = true := by simp
      exact this c separator
    · obtain ⟨p, hp, rfl⟩ := List.mem_map.mp hname
      rw [bne_iff_ne]
      rintro rfl
      exact names p hp inName
  rw [List.dropWhile_append_of_pos joined, List.dropWhile_cons_of_neg (by simp)]

/-- The text between the braces is found. -/
theorem functionInner?_compiledSource {parameters : List Parameter}
    (names : NoParenthesis parameters) (shape : ReturnShape) (body : String) :
    functionInner? (compiledSource parameters shape body).toList =
      some (innerOf shape body.toList) := by
  have keyword (rest : List Char) :
      after? "function".toList (trimStart ("function".toList ++ rest)) = some rest :=
    after?_eq_some_iff.mpr rfl
  have unnamed (rest : List Char) :
      trimStart ((trimStart ('(' :: rest)).dropWhile isFunctionNameChar) = '(' :: rest := rfl
  have opening (rest : List Char) : after? ['('] ('(' :: rest) = some rest :=
    after?_eq_some_iff.mpr rfl
  have closing (rest : List Char) : after? [')'] (')' :: rest) = some rest :=
    after?_eq_some_iff.mpr rfl
  have brace (rest : List Char) : after? ['{'] (trimStart (' ' :: '{' :: rest)) = some rest :=
    after?_eq_some_iff.mpr rfl
  have last (inner : List Char) : before? ['}'] (trimEnd (inner ++ ['}'])) = some inner := by
    rw [trimEnd_concat]
    exact before?_eq_some_iff.mpr rfl
  rw [toList_compiledSource, functionInner?, keyword]
  simp only [Option.bind_eq_bind, Option.bind_some]
  rw [unnamed, opening]
  simp only [Option.bind_some]
  rw [dropWhile_names names, closing]
  simp only [Option.bind_some]
  rw [brace, Option.bind_some, last]

/-! ## The expression in it -/

variable {body : List Char}

/-- The final semicolon and the blank behind it are dropped, and nothing else. -/
theorem dropTerminator_of_trimmed (trimmed : Trimmed body) :
    dropTerminator (body ++ [';', ' ']) = body := by
  have ends : trimEnd (body ++ [';', ' ']) = body ++ [';'] := by
    rw [show body ++ [';', ' '] = (body ++ [';']) ++ [' '] by simp, trimEnd_concat,
      if_pos (by decide), trimEnd_concat, if_neg (by decide)]
  simp only [dropTerminator, ends, before?_eq_some_iff.mpr rfl, Option.getD_some]
  exact trimmed.trimEnd_eq

/-- A `return` with a blank behind it, and an expression behind that. -/
def BeginsWithReturn (body : List Char) : Prop :=
  ∃ blank rest, body = "return".toList ++ blank :: rest ∧ isBlank blank = true

/-- The `return` that has been written is dropped. -/
theorem dropReturn_lead (trimmed : Trimmed body) (rest : List Char) :
    dropReturn ("return ".toList ++ (body ++ rest)) = body ++ rest := by
  have after : after? "return".toList ("return ".toList ++ (body ++ rest)) =
      some (' ' :: (body ++ rest)) := after?_eq_some_iff.mpr rfl
  rw [dropReturn, after]
  simp only [show isBlank ' ' = true from rfl, if_true]
  rw [trimStart_cons_of_isBlank rfl, trimmed.trimStart_append]

/-- Nothing is dropped from an expression that does not begin with `return`. -/
theorem dropReturn_of_not (h : ¬ BeginsWithReturn body) :
    dropReturn (body ++ [';', ' ']) = body ++ [';', ' '] := by
  have after : after? "return".toList (body ++ [';', ' ']) =
      (after? "return".toList body).map (· ++ [';', ' ']) := after?_append (by simp) body
  rw [dropReturn, after]
  cases hbody : after? "return".toList body with
  | none => rfl
  | some rest =>
    have split := after?_eq_some_iff.mp hbody
    cases rest with
    | nil => rfl
    | cons c rest =>
      have noBlank : isBlank c = false := by
        by_contra blank
        exact h ⟨c, rest, split, by simpa using blank⟩
      simp [noBlank]

/-- A `return` that is part of the expression is dropped as well. -/
theorem dropReturn_of_return {blank : Char} {rest : List Char} (h : isBlank blank = true)
    (tail : List Char) :
    dropReturn ("return".toList ++ blank :: rest ++ tail) = trimStart (rest ++ tail) := by
  have after : after? "return".toList ("return".toList ++ blank :: rest ++ tail) =
      some (blank :: (rest ++ tail)) := after?_eq_some_iff.mpr (by simp)
  rw [dropReturn, after]
  simp only [h, if_true]
  exact trimStart_cons_of_isBlank h _

/-- Recovery looks at the text between the braces, without the blank that begins it. -/
theorem expression?_compiledSource {parameters : List Parameter}
    (names : NoParenthesis parameters) (shape : ReturnShape) {body : String}
    (trimmed : Trimmed body.toList) {found : List Char} (foundTrimmed : Trimmed found)
    (recovered : dropReturn (leadOf shape ++ (body.toList ++ [';', ' '])) = found ++ [';', ' ']) :
    expression? (compiledSource parameters shape body) = some (String.ofList found) := by
  have inner : trimStart (innerOf shape body.toList) =
      leadOf shape ++ (body.toList ++ [';', ' ']) := by
    rw [innerOf, trimStart_cons_of_isBlank rfl]
    cases shape with
    | statement => exact trimmed.trimStart_append _
    | text | cast => rfl
  rw [expression?, functionInner?_compiledSource names]
  simp only [Option.bind_eq_bind, Option.bind_some]
  rw [inner, recovered, dropTerminator_of_trimmed foundTrimmed, if_neg foundTrimmed.ne_nil]

/-- **An expression is recovered as it was written**, unless it is a statement that begins with
`return`. -/
theorem expression?_of_not_return {parameters : List Parameter} (names : NoParenthesis parameters)
    {shape : ReturnShape} {body : String} (trimmed : Trimmed body.toList)
    (h : ¬ (shape = .statement ∧ BeginsWithReturn body.toList)) :
    expression? (compiledSource parameters shape body) = some body := by
  have recovered : dropReturn (leadOf shape ++ (body.toList ++ [';', ' '])) =
      body.toList ++ [';', ' '] := by
    cases shape with
    | statement => exact dropReturn_of_not fun begins => h ⟨rfl, begins⟩
    | text | cast => exact dropReturn_lead trimmed _
  have found := expression?_compiledSource names shape trimmed trimmed recovered
  rwa [String.ofList_toList] at found

/-- **A statement loses the `return` that it begins with.** -/
theorem expression?_of_return {parameters : List Parameter} (names : NoParenthesis parameters)
    {body : String} (trimmed : Trimmed body.toList) {blank : Char} {rest : List Char}
    (begins : body.toList = "return".toList ++ blank :: rest) (h : isBlank blank = true) :
    expression? (compiledSource parameters .statement body) =
      some (String.ofList (trimStart rest)) := by
  have nonempty : rest ≠ [] := by
    rintro rfl
    -- the expression would end with the blank
    obtain ⟨front, c, ends, noBlank⟩ := trimmed.last
    rw [begins] at ends
    obtain ⟨-, last⟩ := List.append_inj' ends rfl
    obtain ⟨rfl, -⟩ := List.cons.inj last
    rw [h] at noBlank
    cases noBlank
  have left : Trimmed (trimStart rest) := by
    have split : Trimmed ("return".toList ++ [blank] ++ rest) := by
      rwa [List.append_assoc, List.singleton_append, ← begins]
    exact split.trimStart_of_append nonempty
  refine expression?_compiledSource names .statement trimmed left ?_
  rw [leadOf, List.nil_append, begins, dropReturn_of_return h, trimStart_append left.ne_nil]

variable {h : TypeHierarchy} {c : ComponentType} {template : String} {x : Extraction}

/-- **What is recovered from the accessor of an extracted expression**: the expression as it was
written, if and only if the accessor returns a value or the expression does not begin with
`return` and a blank. A statement that does so loses that much, and nothing else. -/
theorem expression?_extracted_iff [Matching] (ok : extract h c template = .ok x) {e : Expression}
    (mem : e ∈ x.expressions) :
    (expression? (ofExpression e).compiled = some e.body ↔
        ¬ (ReturnShape.ofType e.returnType = .statement ∧ BeginsWithReturn e.body.toList)) ∧
      ∀ (blank : Char) (rest : List Char), ReturnShape.ofType e.returnType = .statement →
        e.body.toList = "return".toList ++ blank :: rest → isBlank blank = true →
          expression? (ofExpression e).compiled = some (String.ofList (trimStart rest)) := by
  have names := parameters_of_extract ok mem
  have trimmed := trimmed_of_extract ok mem
  have lost : ∀ (blank : Char) (rest : List Char), ReturnShape.ofType e.returnType = .statement →
      e.body.toList = "return".toList ++ blank :: rest → isBlank blank = true →
        expression? (ofExpression e).compiled = some (String.ofList (trimStart rest)) := by
    intro blank rest statement begins hblank
    rw [ofExpression, make, statement]
    exact expression?_of_return names trimmed begins hblank
  refine ⟨⟨?_, expression?_of_not_return names trimmed⟩, lost⟩
  rintro recovered ⟨statement, blank, rest, begins, hblank⟩
  -- what is left is shorter than the expression
  rw [lost blank rest statement begins hblank, Option.some.injEq] at recovered
  have lengths := congrArg (fun text : String => text.toList.length) recovered
  simp only [String.toList_ofList, begins, List.length_append, List.length_cons] at lengths
  have short := length_dropWhile_le isBlank rest
  rw [trimStart] at lengths
  omega

/-- A handler that is a call. -/
theorem call_is_recovered :
    ∃ x e, extract default default "<b @click=\"go()\"></b>" = .ok x ∧ e ∈ x.expressions ∧
      ReturnShape.ofType e.returnType = .statement ∧
        expression? (ofExpression e).compiled = some e.body := by
  have ok : extract default default "<b @click=\"go()\"></b>" =
      .ok ⟨"<b @click=\"exp$0\"></b>",
        [⟨"exp$0", .event, [eventParameter], voidType, "go()"⟩], []⟩ := by
    cbv
  refine ⟨_, _, ok, List.mem_cons_self, by decide, ?_⟩
  refine (expression?_extracted_iff ok List.mem_cons_self).1.mpr ?_
  rintro ⟨-, blank, rest, begins, -⟩
  exact absurd (congrArg (List.take 1) begins) (by simp)

/-- A handler that returns what it calls: the `return` is lost. -/
theorem return_is_lost :
    ∃ x e, extract default default "<b @click=\"return go()\"></b>" = .ok x ∧
      e ∈ x.expressions ∧ e.body = "return go()" ∧
        expression? (ofExpression e).compiled = some "go()" := by
  have ok : extract default default "<b @click=\"return go()\"></b>" =
      .ok ⟨"<b @click=\"exp$0\"></b>",
        [⟨"exp$0", .event, [eventParameter], voidType, "return go()"⟩], []⟩ := by
    cbv
  exact ⟨_, _, ok, List.mem_cons_self, rfl, by cbv⟩

end TemplateCompiler.Accessor
