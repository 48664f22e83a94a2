import TemplateCompiler.Proofs.Extraction.Scan
import TemplateCompiler.Proofs.Extraction.Seams
import TemplateCompiler.Proofs.Markup.Complaints
import TemplateCompiler.Proofs.Report

/-!
# Problems point into the template

A problem is found in one of three texts: the template, an opening tag of it, or the value of a loop
directive in such a tag. Its span counts from the beginning of that text and is shifted by where the
text begins in the one around it. A span that covers a stretch of a text so covers the same stretch
of the template, whatever characters stand in front of it.

## Main statements

* `Extraction.covers_name_of_mem`, `Extraction.covers_value_of_mem` — where attributes stand
* `Extraction.exists_covers_of_refused` — where the problem with a loop clause lies
* `Extraction.exists_covers_of_complains` — a problem with a token covers a stretch of the template
* `Extraction.problems_point_into_template` — all problems of an extraction point into the template
-/
namespace TemplateCompiler.Extraction

open Text Markup

variable {template : String} {located : Token × Span} {a : Attribute} {value : Located}
  {d problem : Diagnostic}

/-! ## Where things stand in the template -/

/-- The name of an attribute stands where its span says. -/
theorem covers_name_of_mem [Matching] (inLex : located ∈ lex template) (inTag : a ∈ attributesAt located) :
    Covers 0 template.toList a.name.span a.name.text.toList :=
  (covers_of_mem_lex inLex).trans (covers_name_ofTag inTag)

/-- The value of an attribute stands where its span says. -/
theorem covers_value_of_mem [Matching] (inLex : located ∈ lex template) (kind : located.1.kind = .openTag)
    (inTag : a ∈ attributesAt located) (hvalue : a.value = some value) :
    Covers 0 template.toList value.span value.text.toList :=
  (covers_of_mem_lex inLex).trans
    ((spread_of_mem_lex inLex kind).fenced value
      (List.mem_filterMap.mpr ⟨a, inTag, hvalue⟩)).covers

/-- The problem with a loop clause lies in the value that the clause is. -/
theorem exists_covers_of_refused (refused : LoopClause.read value.text = .error problem) :
    ∃ stretch, Covers value.span.start value.text.toList (problem.shift value.span.start).span
      stretch := by
  obtain ⟨stretch, inClause⟩ := exists_covers_of_read refused
  exact ⟨stretch, inClause.shift value.span.start⟩

/-- **A problem with a token covers a stretch of the template.** -/
theorem exists_covers_of_complains [Matching] (inLex : located ∈ lex template)
    (complains : Complains located d) : ∃ stretch, Covers 0 template.toList d.span stretch := by
  cases complains with
  | unterminated kind => exact ⟨_, covers_of_mem_lex inLex⟩
  | empty kind => exact ⟨_, covers_of_mem_lex inLex⟩
  | valueless kind inTag => exact ⟨_, covers_name_of_mem inLex inTag⟩
  | bodiless kind inTag takes hvalue => exact ⟨_, covers_value_of_mem inLex kind inTag hvalue⟩
  | clauseless kind first => exact ⟨_, covers_name_of_mem inLex (List.mem_of_find?_eq_some first)⟩
  | refused kind first hvalue refused =>
    have covers := covers_value_of_mem inLex kind (List.mem_of_find?_eq_some first) hvalue
    obtain ⟨stretch, inValue⟩ := exists_covers_of_refused refused
    exact ⟨stretch, covers.trans inValue⟩

/-- A template with a token has characters. -/
theorem toList_ne_nil_of_mem_lex [Matching] (inLex : located ∈ lex template) : template.toList ≠ [] := by
  intro empty
  simp [lex_eq, empty, tokens, positioned] at inLex

/-- **Problems point into the template.** The span of every problem begins and ends between two
characters of the template, and a report marks the characters whose bytes are in the span. The
problem with a loop clause is reported inside the value that the clause is. -/
theorem problems_point_into_template [Matching] {h : TypeHierarchy} {c : ComponentType} {template : String}
    {found : List Diagnostic} (fails : extract h c template = .error found) :
    (∀ d ∈ found, Report.PointsInto template d) ∧
      ∀ located ∈ lex template, located.1.kind = .openTag → ∀ a value problem,
        loopAttribute? (attributesAt located) = some a → a.value = some value →
          LoopClause.read value.text = .error problem →
            Covers 0 template.toList value.span value.text.toList ∧
              problem.shift value.span.start ∈ found ∧
                value.span.start ≤ (problem.shift value.span.start).span.start ∧
                  (problem.shift value.span.start).span.stop ≤ value.span.stop := by
  obtain ⟨rfl, -⟩ := extract_eq_error_iff.mp fails
  constructor
  · intro d mem
    obtain ⟨located, inLex, inToken⟩ := List.mem_flatMap.mp mem
    obtain ⟨stretch, covers⟩ := exists_covers_of_complains inLex (mem_problems_iff.mp inToken)
    exact Report.pointsInto_of_covers (toList_ne_nil_of_mem_lex inLex) covers
  · intro located inLex kind a value problem first hvalue refused
    have covers := covers_value_of_mem inLex kind (List.mem_of_find?_eq_some first) hvalue
    have complains : Complains located (problem.shift value.span.start) :=
      .refused kind first hvalue refused
    obtain ⟨stretch, inValue⟩ := exists_covers_of_refused refused
    refine ⟨covers, List.mem_flatMap.mpr ⟨located, inLex, mem_problems_iff.mpr complains⟩,
      inValue.le.1, ?_⟩
    rw [covers.le.2.1]
    exact inValue.le.2.2

/-- A loop clause with a word too many, a directive without a value and braces without an end, all
of them with characters of several bytes in front or inside. The first problem is the word, which is
in the value of the loop. -/
theorem multibyte_problems_point_into_template :
    ∃ found, extract default default "ß<p v-for=\"é ö ü in x\" :ä>\x7b\x7b " = .error found ∧
      (∀ d ∈ found, Report.PointsInto "ß<p v-for=\"é ö ü in x\" :ä>\x7b\x7b " d) ∧
        found.map Diagnostic.span = [⟨18, 20⟩, ⟨27, 30⟩, ⟨31, 33⟩] ∧
          Covers 0 "ß<p v-for=\"é ö ü in x\" :ä>\x7b\x7b ".toList ⟨12, 25⟩
            "é ö ü in x".toList := by
  have inLex : (lex "ß<p v-for=\"é ö ü in x\" :ä>\x7b\x7b ")[1]? =
      some (⟨.openTag, "<p v-for=\"é ö ü in x\" :ä>".toList⟩, ⟨2, 31⟩) := by
    cbv
  have first : loopAttribute?
      (attributesAt (⟨.openTag, "<p v-for=\"é ö ü in x\" :ä>".toList⟩, ⟨2, 31⟩)) =
        some ⟨⟨"v-for", ⟨5, 10⟩⟩, some ⟨"é ö ü in x", ⟨12, 25⟩⟩⟩ := by
    cbv
  have fails : extract default default "ß<p v-for=\"é ö ü in x\" :ä>\x7b\x7b " =
      .error [⟨⟨18, 20⟩, "Unexpected end of input", ["of"]⟩,
        ⟨⟨27, 30⟩, ":ä needs an expression", []⟩,
        ⟨⟨31, 33⟩, "unterminated interpolation", []⟩] := by
    cbv
  obtain ⟨points, clauses⟩ := problems_point_into_template fails
  exact ⟨_, fails, points, rfl,
    (clauses _ (List.mem_of_getElem? inLex) rfl _ _ _ first rfl rfl).1⟩

end TemplateCompiler.Extraction
