import TemplateCompiler.Proofs.Accessor.Qualifiers
import TemplateCompiler.Proofs.Accessor.RoundTrip
import TemplateCompiler.Proofs.Markup.TagParts

/-!
# String constants of expressions

The scan that drops qualifiers reads an expression character by character and knows nothing of
string constants. A quote ends a name, so the contents of a constant are scanned as if they were an
expression of their own, and a constant keeps its contents only if no qualifier would be dropped
from them.

## Main definitions

* `Accessor.Contents` — what can stand between quotes
* `Accessor.Framed`, `Accessor.Spells` — the constants of a text
* `Accessor.Unqualified` — no qualifier would be dropped

## Main statements

* `Accessor.Spells.unique` — a text has one sequence of constants
* `Accessor.resume_append_quote` — the scan begins anew behind a quote
* `Accessor.resume_eq_self_iff` — when the scan changes nothing
* `Accessor.spells_stripQualifiers` — what becomes of the constants of an expression
* `Accessor.exists_recovered` — recovered expressions have the constants that were written
-/
namespace TemplateCompiler.Accessor

open Text Markup Extraction

variable {quote c : Char} {cs rest : List Char}

/-! ## Constants -/

/-- What can stand between quotes: a backslash takes the next character along. -/
inductive Contents (quote : Char) : List Char → Prop where
  | nil : Contents quote []
  | plain {c : Char} {rest : List Char} :
    c ≠ quote → c ≠ '\\' → Contents quote rest → Contents quote (c :: rest)
  | escape (c : Char) {rest : List Char} : Contents quote rest → Contents quote ('\\' :: c :: rest)

/-- Without quotes and backslashes anything can. -/
theorem contents_of_plain (plain : ∀ c ∈ cs, c ≠ quote ∧ c ≠ '\\') : Contents quote cs := by
  induction cs with
  | nil => exact .nil
  | cons c cs ih =>
    rw [List.forall_mem_cons] at plain
    exact .plain plain.1.1 plain.1.2 (ih plain.2)

/-- A string constant, without its quotes. -/
structure Constant where
  quote : Char
  contents : List Char

/-- The constant does not end before its last quote. -/
def Constant.Valid (constant : Constant) : Prop := Contents constant.quote constant.contents

/-- The text is made of constants between their quotes and of other text, in which there are no
quotes. -/
inductive Framed : List Char → List Constant → Prop where
  | nil : Framed [] []
  | other {c : Char} {cs : List Char} {constants : List Constant} :
    ¬ IsQuote c → Framed cs constants → Framed (c :: cs) constants
  | constant {quote : Char} (contents : List Char) {cs : List Char} {constants : List Constant} :
    IsQuote quote → Framed cs constants →
      Framed (quote :: (contents ++ quote :: cs)) (⟨quote, contents⟩ :: constants)

/-- The string constants of the text are these. -/
structure Spells (cs : List Char) (constants : List Constant) : Prop where
  framed : Framed cs constants
  valid : ∀ constant ∈ constants, constant.Valid

variable {constants : List Constant}

theorem framed_cons_iff (other : ¬ IsQuote c) :
    Framed (c :: cs) constants ↔ Framed cs constants := by
  constructor
  · intro framed
    cases framed with
    | other _ more => exact more
    | constant _ isQuote _ => exact absurd isQuote other
  · exact .other other

theorem framed_append_iff {front : List Char} (others : ∀ c ∈ front, ¬ IsQuote c) :
    Framed (front ++ cs) constants ↔ Framed cs constants := by
  induction front with
  | nil => rfl
  | cons c front ih =>
    rw [List.forall_mem_cons] at others
    rw [List.cons_append, framed_cons_iff others.1, ih others.2]

/-- Text without quotes has no constants. -/
theorem spells_append_iff {front : List Char} (others : ∀ c ∈ front, ¬ IsQuote c) :
    Spells (front ++ cs) constants ↔ Spells cs constants := by
  constructor
  · rintro ⟨framed, valid⟩
    exact ⟨(framed_append_iff others).mp framed, valid⟩
  · rintro ⟨framed, valid⟩
    exact ⟨(framed_append_iff others).mpr framed, valid⟩

/-- At a quote a constant begins. -/
theorem Framed.exists_of_quote (framed : Framed (quote :: cs) constants) (isQuote : IsQuote quote) :
    ∃ contents rest behind, cs = contents ++ quote :: rest ∧
      constants = ⟨quote, contents⟩ :: behind ∧ Framed rest behind := by
  cases framed with
  | other noQuote _ => exact absurd isQuote noQuote
  | constant _ _ more => exact ⟨_, _, _, rfl, rfl, more⟩

/-- A constant ends at the first quote that no backslash takes along. -/
theorem Contents.unique (isQuote : IsQuote quote) {contents other more : List Char}
    (valid : Contents quote contents) (valid' : Contents quote other)
    (same : contents ++ quote :: rest = other ++ quote :: more) :
    contents = other ∧ rest = more := by
  have noEscape : quote ≠ '\\' := by rcases isQuote with rfl | rfl <;> decide
  induction valid generalizing other with
  | nil =>
    cases valid' with
    | nil => exact ⟨rfl, (List.cons.inj same).2⟩
    | plain notQuote => exact absurd (List.cons.inj same).1.symm notQuote
    | escape => exact absurd (List.cons.inj same).1 noEscape
  | plain notQuote notEscape _ ih =>
    cases valid' with
    | nil => exact absurd (List.cons.inj same).1 notQuote
    | plain _ _ valid' =>
      obtain ⟨rfl, tails⟩ := List.cons.inj same
      obtain ⟨rfl, behind⟩ := ih valid' tails
      exact ⟨rfl, behind⟩
    | escape => exact absurd (List.cons.inj same).1 notEscape
  | escape c _ ih =>
    cases valid' with
    | nil => exact absurd (List.cons.inj same).1.symm noEscape
    | plain _ notEscape => exact absurd (List.cons.inj same).1.symm notEscape
    | escape d valid' =>
      obtain ⟨rfl, tails⟩ := List.cons.inj (List.cons.inj same).2
      obtain ⟨rfl, behind⟩ := ih valid' tails
      exact ⟨rfl, behind⟩

/-- **A text has one sequence of constants.** -/
theorem Spells.unique {others : List Constant} (spells : Spells cs constants)
    (spells' : Spells cs others) : constants = others := by
  obtain ⟨framed, valid⟩ := spells
  obtain ⟨framed', valid'⟩ := spells'
  induction framed generalizing others with
  | nil =>
    cases framed'
    rfl
  | other noQuote _ ih => exact ih valid ((framed_cons_iff noQuote).mp framed') valid'
  | constant contents isQuote _ ih =>
    obtain ⟨other, rest, behind, same, rfl, more⟩ := framed'.exists_of_quote isQuote
    rw [List.forall_mem_cons] at valid valid'
    obtain ⟨rfl, rfl⟩ := valid.1.unique isQuote valid'.1 same
    rw [ih valid.2 more valid'.2]

/-! ## The scan at a quote -/

theorem not_mem_qualifier_of_isQuote (isQuote : IsQuote quote) : quote ∉ qualifier := by
  rcases isQuote with rfl | rfl <;> decide

theorem endsName_of_isQuote (isQuote : IsQuote quote) : endsName quote = true := by
  rcases isQuote with rfl | rfl <;> decide

/-- **The scan begins anew behind a quote**, and what is in front of the quote is scanned as if
nothing followed it. -/
theorem resume_append_quote (isQuote : IsQuote quote) (drops : Bool) (cs rest : List Char) :
    resume drops (cs ++ quote :: rest) = resume drops cs ++ quote :: resume true rest := by
  have apart : ∀ c ∈ (quote :: rest).head?, c ∉ qualifier := by
    intro c here
    obtain rfl := Option.some.inj here
    exact not_mem_qualifier_of_isQuote isQuote
  induction drops, cs using scan_induction with
  | nil drops =>
    have absent : after? qualifier (quote :: rest) = none := by
      simpa [after?, qualifier] using after?_append apart []
    rw [List.nil_append, resume_of_none fun _ => absent, resume_false_cons,
      endsName_of_isQuote isQuote]
    cases drops <;> rfl
  | drop behind ih => rw [List.append_assoc, resume_qualifier, resume_qualifier, ih]
  | keep drops c behind kept ih =>
    have absent : drops = true → after? qualifier ((c :: behind) ++ quote :: rest) = none := by
      intro drop
      rw [after?_append apart, kept drop, Option.map_none]
    rw [resume_of_none absent, resume_of_none kept, List.cons_append, resume_false_cons,
      resume_false_cons, ih, List.cons_append]

/-- The scan keeps all quotes. -/
theorem count_resume (isQuote : IsQuote quote) (drops : Bool) (cs : List Char) :
    (resume drops cs).count quote = cs.count quote := by
  induction drops, cs using scan_induction with
  | nil drops => cases drops <;> rfl
  | drop rest ih =>
    rw [resume_qualifier, ih, List.count_append,
      List.count_eq_zero_of_not_mem (not_mem_qualifier_of_isQuote isQuote), Nat.zero_add]
  | keep drops c rest kept ih =>
    rw [resume_of_none kept, resume_false_cons, List.count_cons, List.count_cons, ih]

/-! ## Texts without qualifiers -/

/-- No qualifier in the text would be dropped: each of them ends a longer name. -/
def Unqualified (cs : List Char) : Prop :=
  ∀ front behind, cs = front ++ (qualifier ++ behind) → front.getLast?.all endsName = false

/-- Dropping a qualifier makes the text shorter, so the scan changes nothing if and only if it drops
nothing. Whether a qualifier at the front is dropped depends on what stands in front of the text. -/
theorem resume_eq_self_iff_elim (drops : Bool) (cs : List Char) :
    resume drops cs = cs ↔ ∀ front behind, cs = front ++ (qualifier ++ behind) →
      front.getLast?.elim drops endsName = false := by
  induction drops, cs using scan_induction with
  | nil drops =>
    refine iff_of_true (by cases drops <;> rfl) fun front behind same => ?_
    simp [qualifier] at same
  | drop rest =>
    rw [resume_qualifier]
    refine iff_of_false (fun same => ?_) fun none => ?_
    · have shorter := length_resume_le false rest
      rw [same] at shorter
      exact absurd (length_lt_qualifier rest) shorter.not_gt
    · exact absurd (none [] rest rfl) (by simp)
  | keep drops c rest kept ih =>
    rw [resume_of_none kept, resume_false_cons, List.cons.injEq, and_iff_right rfl, ih]
    have last (front : List Char) :
        (c :: front).getLast?.elim drops endsName = front.getLast?.elim (endsName c) endsName := by
      cases ends : front.getLast? <;> simp [List.getLast?_cons, ends]
    constructor
    · rintro none (_ | ⟨d, front⟩) behind same
      · cases drops with
        | false => rfl
        | true =>
          rw [same, List.nil_append, after?_eq_some_iff.mpr rfl] at kept
          cases kept rfl
      · obtain ⟨rfl, rfl⟩ := List.cons.inj same
        exact (last front).trans (none front behind rfl)
    · rintro none front behind rfl
      exact (last front).symm.trans (none (c :: front) behind rfl)

/-- **The scan changes nothing if and only if no qualifier would be dropped.** -/
theorem resume_eq_self_iff (cs : List Char) : resume true cs = cs ↔ Unqualified cs := by
  rw [resume_eq_self_iff_elim, Unqualified]
  have all (last : Option Char) : last.elim true endsName = last.all endsName := by
    cases last <;> rfl
  simp only [all]

/-! ## Constants after the scan -/

/-- What stands in front of the same number of quotes, up to the next one, is the same. -/
theorem eq_of_count {as bs more : List Char} (same : as ++ quote :: rest = bs ++ quote :: more)
    (count : as.count quote = bs.count quote) : as = bs ∧ rest = more := by
  rcases List.append_eq_append_iff.mp same with ⟨_ | ⟨d, between⟩, rfl, behind⟩ |
    ⟨_ | ⟨d, between⟩, rfl, behind⟩
  · exact ⟨(List.append_nil _).symm, (List.cons.inj behind).2⟩
  · obtain ⟨rfl, -⟩ := List.cons.inj behind
    rw [List.count_append, List.count_cons_self] at count
    omega
  · exact ⟨List.append_nil _, (List.cons.inj behind).2.symm⟩
  · obtain ⟨rfl, -⟩ := List.cons.inj behind
    rw [List.count_append, List.count_cons_self] at count
    omega

/-- The constant without the qualifiers that its contents begin with or have behind a character that
ends a name. -/
def Constant.stripped (constant : Constant) : Constant :=
  ⟨constant.quote, resume true constant.contents⟩

/-- **Each constant is scanned on its own.** -/
theorem framed_resume (framed : Framed cs constants) (drops : Bool) :
    Framed (resume drops cs) (constants.map Constant.stripped) := by
  induction size : cs.length using Nat.strong_induction_on generalizing drops cs constants with
  | _ n ih =>
    subst size
    rcases step_cases drops cs with rfl | ⟨rfl, behind, rfl⟩ | ⟨kept, c, behind, rfl⟩
    · cases framed
      cases drops <;> exact .nil
    · have others : ∀ c ∈ qualifier, ¬ IsQuote c := by
        intro c mem isQuote
        exact not_mem_qualifier_of_isQuote isQuote mem
      rw [resume_qualifier]
      exact ih _ (length_lt_qualifier behind) ((framed_append_iff others).mp framed) false rfl
    · rw [resume_of_none kept, resume_false_cons]
      by_cases isQuote : IsQuote c
      · -- behind the constant the scan goes on at its last quote, not one character later
        obtain ⟨contents, rest, others, rfl, rfl, more⟩ := framed.exists_of_quote isQuote
        have shorter : rest.length < (c :: (contents ++ c :: rest)).length := by
          simp only [List.length_cons, List.length_append]
          omega
        rw [endsName_of_isQuote isQuote, resume_append_quote isQuote]
        exact .constant (resume true contents) isQuote (ih _ shorter more true rfl)
      · exact .other isQuote (ih _ (Nat.lt_succ_self _) ((framed_cons_iff isQuote).mp framed) _ rfl)

/-- Constants that have been scanned are what they were if and only if no qualifier would be dropped
from them. -/
theorem framed_iff_of_stripped (framed : Framed cs (constants.map Constant.stripped)) :
    Framed cs constants ↔ ∀ constant ∈ constants, Unqualified constant.contents := by
  generalize same : constants.map Constant.stripped = stripped at framed
  induction framed generalizing constants with
  | nil =>
    obtain rfl := List.map_eq_nil_iff.mp same
    exact iff_of_true .nil nofun
  | other noQuote _ ih => rw [framed_cons_iff noQuote, ih same]
  | constant _ isQuote _ ih =>
    obtain ⟨⟨quote, contents⟩, behind, rfl, first, more⟩ := List.map_eq_cons_iff.mp same
    obtain ⟨rfl, rfl⟩ := Constant.mk.inj first
    rw [List.forall_mem_cons, ← ih more, ← resume_eq_self_iff]
    constructor
    · intro framed
      obtain ⟨found, rest, others, texts, constants, framed⟩ := framed.exists_of_quote isQuote
      obtain ⟨here, rfl⟩ := List.cons.inj constants
      obtain ⟨-, rfl⟩ := Constant.mk.inj here
      -- the scan keeps quotes, so a constant with the old contents would have to end where it ends
      obtain ⟨unchanged, rfl⟩ := eq_of_count texts (count_resume isQuote true contents)
      exact ⟨unchanged, framed⟩
    · rintro ⟨unchanged, framed⟩
      rw [unchanged]
      exact .constant contents isQuote framed

/-- **All constants of an expression keep their contents if and only if none of them has a qualifier
that would be dropped.** -/
theorem spells_stripQualifiers {expression : String}
    (spells : Spells expression.toList constants) :
    Framed (stripQualifiers expression).toList (constants.map Constant.stripped) ∧
      (Spells (stripQualifiers expression).toList constants ↔
        ∀ constant ∈ constants, Unqualified constant.contents) := by
  have framed : Framed (stripQualifiers expression).toList (constants.map Constant.stripped) := by
    rw [stripQualifiers, String.toList_ofList, stripFrom_start]
    exact framed_resume spells.framed true
  refine ⟨framed, ?_⟩
  rw [← framed_iff_of_stripped framed]
  exact ⟨Spells.framed, fun kept => ⟨kept, spells.valid⟩⟩

/-! ## Constants of recovered expressions -/

/-- **What is recovered from an accessor** is the expression without a front that has no quotes. -/
theorem exists_recovered [Matching] {h : TypeHierarchy} {t : ComponentType} {template : String}
    {x : Extraction} (ok : extract h t template = .ok x) {e : Expression}
    (mem : e ∈ x.expressions) :
    ∃ front found, expression? (ofExpression e).compiled = some found ∧
      e.body.toList = front ++ found.toList ∧ ∀ c ∈ front, ¬ IsQuote c := by
  have names := parameters_of_extract ok mem
  have trimmed := trimmed_of_extract ok mem
  by_cases lost : ReturnShape.ofType e.returnType = .statement ∧ BeginsWithReturn e.body.toList
  · obtain ⟨statement, blank, rest, begins, isBlank⟩ := lost
    have found := expression?_of_return names trimmed begins isBlank
    rw [← statement] at found
    refine ⟨"return".toList ++ blank :: rest.takeWhile Text.isBlank, _, found, ?_, ?_⟩
    · have split :
          rest = rest.takeWhile Text.isBlank ++ (String.ofList (trimStart rest)).toList := by
        rw [String.toList_ofList]
        exact (List.takeWhile_append_dropWhile ..).symm
      rw [begins, List.append_assoc]
      exact congrArg ("return".toList ++ blank :: ·) split
    · have blanks : ∀ c, Text.isBlank c = true → ¬ IsQuote c := by
        rintro c blank (rfl | rfl) <;> exact absurd blank (by decide)
      have word : ∀ c ∈ "return".toList, ¬ IsQuote c := by simp [IsQuote]
      intro c mem
      rcases List.mem_append.mp mem with inWord | mem
      · exact word c inWord
      rcases List.mem_cons.mp mem with rfl | behind
      · exact blanks c isBlank
      · exact blanks c (List.mem_takeWhile_imp behind)
  · exact ⟨[], e.body, expression?_of_not_return names trimmed lost, rfl, nofun⟩

end TemplateCompiler.Accessor
