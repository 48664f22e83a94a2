import TemplateCompiler.Proofs.Accessor.Constants
import TemplateCompiler.Proofs.Assembly.Collections

/-!
# String constants from the template to the options

Assembly puts each expression back into its hole without qualifiers. What it puts there has the
constants of the expression in the same places, but the contents of a constant have lost the
qualifiers that would be dropped from them.

## Main statements

* `Assembly.exists_assembled` — what is put into the hole of an expression
* `Assembly.constants_of_assemble` — when string constants survive
-/
namespace TemplateCompiler.Assembly

open Text Extraction Accessor

variable {h : TypeHierarchy} {c : ComponentType} {template : String} {x : Extraction}

/-- **What is put into the hole of an expression**: the expression without qualifiers, and without a
front that has no quotes. -/
theorem exists_assembled [Markup.Matching] (extracts : extract h c template = .ok x) {known : List (String × String)}
    (recovers : (expressionIds (Descriptor.make h c x).compiled).mapM
      (recover (Descriptor.make h c x).compiled) = .ok known) {hole : Hole}
    (mem : hole ∈ expressionHoles template) :
    ∃ front found, hole.content.assembled known = stripQualifiers found ∧
      hole.content.body.toList = front ++ found.toList ∧ ∀ c ∈ front, ¬ Markup.IsQuote c := by
  have record : (hole.content.id, hole.content.body) ∈
      x.expressions.map fun e => (e.id, e.body) := by
    rw [(recorded_of_extract extracts).expressions]
    exact List.mem_map_of_mem mem
  obtain ⟨e, inExpressions, same⟩ := List.mem_map.mp record
  obtain ⟨id, body⟩ := Prod.mk.inj same
  obtain ⟨front, found, recovered, split, others⟩ := exists_recovered extracts inExpressions
  refine ⟨front, found, ?_, body ▸ split, others⟩
  obtain ⟨index, text, -, content⟩ := mem_number mem
  have entry : lookupEntry hole.content.id known = some (stripQualifiers found) := by
    rw [lookupEntry_mapM_recover recovers, expressionIds_compiled extracts, ← id, recover_eq_ok_iff,
      get?_methods_compiled extracts inExpressions]
    exact ⟨List.mem_map_of_mem inExpressions, found, recovered, rfl⟩
  rw [content] at entry ⊢
  exact congrArg (Option.getD · _) entry

/-- **When string constants survive.** If a component is compiled and assembled, then what stands in
the place of each expression has the string constants of that expression, each without the
qualifiers that would be dropped from its contents. The contents of all of them are what the author
has written if and only if there are no such qualifiers. -/
theorem constants_of_assemble [Markup.Matching] {settings : Settings} {compiled : CompiledComponent}
    (compiles : compileComponent h c (some template) settings = .ok compiled)
    (metadata : ComponentType) {i : Instance} {r : Registry} {options : ComponentOptions}
    (ok : (assemble (compiled.definition metadata) i r).1 = .ok options) :
    ∃ edits, Spliced 0 template.toList edits (options.template.getD "").toList ∧
      ∀ hole ∈ expressionHoles template, ∃ text, hole.put text ∈ edits ∧
        ∀ constants, Spells hole.content.body.toList constants →
          Framed text.toList (constants.map Constant.stripped) ∧
            (Spells text.toList constants ↔
              ∀ constant ∈ constants, Unqualified constant.contents) := by
  have resolved := (assemble_eq_ok_iff.mp ok).template
  rcases compiled_cases compiles with ⟨empty, source, view, rfl⟩ |
    ⟨text, x, same, nonempty, extracts, source, rfl⟩
  · obtain rfl := empty template rfl
    obtain ⟨none, -⟩ := Prod.mk.inj (Except.ok.inj resolved)
    rw [← none]
    have noHoles : expressionHoles "" = [] := by
      simp [expressionHoles, Markup.lex_eq, Markup.tokens, Markup.positioned, number]
    exact ⟨[], .nil 0, by simp [noHoles]⟩
  · obtain rfl := Option.some.inj same
    have hasTemplate : (Descriptor.make h c x).hasTemplate = true :=
      bne_iff_ne.mpr (template_ne_empty extracts nonempty)
    have holds : (Descriptor.make h c x).compiled.isEmpty = false :=
      beq_false_of_ne (template_ne_empty extracts nonempty)
    rw [CompiledComponent.definition, if_pos hasTemplate] at resolved
    simp only [templateOptions, ComponentDefinition.template_of, holds, Bool.false_eq_true,
      if_false] at resolved
    obtain ⟨known, recovers, resolved⟩ := exists_of_bind_ok resolved
    obtain ⟨result, -⟩ := Prod.mk.inj (Except.ok.inj resolved)
    obtain ⟨edits, rewritten, filled⟩ := exists_edits_of_extract extracts known
    rw [← result]
    refine ⟨edits, rewritten, fun hole mem => ?_⟩
    obtain ⟨front, found, assembled, split, others⟩ := exists_assembled extracts recovers mem
    refine ⟨_, filled hole (List.mem_append_right _ mem), fun constants spells => ?_⟩
    rw [split, spells_append_iff others] at spells
    rw [assembled]
    exact spells_stripQualifiers spells

/-- A qualifier that ends a longer name stays in a constant, and the one of the call is dropped. -/
theorem longer_name_survives :
    ∃ compiled options,
      compileComponent default default (some "<p :title=\"this.f('$this.a')\"></p>") default =
        .ok compiled ∧
      (assemble (compiled.definition default) ⟨fun _ => none, fun _ => none⟩ .empty).1 =
        .ok options ∧
      options.template = some "<p :title=\"f('$this.a')\"></p>" ∧
      ∃ edits, Spliced 0 "<p :title=\"this.f('$this.a')\"></p>".toList edits
          "<p :title=\"f('$this.a')\"></p>".toList ∧
        ∀ hole ∈ expressionHoles "<p :title=\"this.f('$this.a')\"></p>", ∃ text,
          hole.put text ∈ edits ∧ Spells text.toList [⟨'\'', "$this.a".toList⟩] := by
  let x : Extraction :=
    ⟨"<p :title=\"exp$0\"></p>", [⟨"exp$0", .getter, [], objectType, "this.f('$this.a')"⟩], []⟩
  have extracts : extract default default "<p :title=\"this.f('$this.a')\"></p>" = .ok x := by
    decide +kernel
  have holes : expressionHoles "<p :title=\"this.f('$this.a')\"></p>" =
      [⟨⟨⟨11, 28⟩, false⟩, .expression 0 "this.f('$this.a')"⟩] := by
    decide +kernel
  have compiles := (@compileComponent_eq_ok_iff _ _ _ _ default _).mpr ⟨x, extracts, rfl⟩
  have template : (assemble ⟨default, some (Descriptor.make default default x).compiled⟩
      ⟨fun _ => none, fun _ => none⟩ .empty).1.map ComponentOptions.template =
        .ok (some "<p :title=\"f('$this.a')\"></p>") := by
    decide +kernel
  have spells : Spells "this.f('$this.a')".toList [⟨'\'', "$this.a".toList⟩] := by
    have front : ∀ c ∈ "this.f(".toList, ¬ Markup.IsQuote c := by simp [Markup.IsQuote]
    have behind : Framed [')'] [] := .other (by simp [Markup.IsQuote]) .nil
    refine (spells_append_iff front).mpr ⟨.constant "$this.a".toList (.inr rfl) behind, ?_⟩
    · intro constant mem
      obtain rfl := List.mem_singleton.mp mem
      exact contents_of_plain (by simp)
  have kept : Unqualified "$this.a".toList := by
    rw [← resume_eq_self_iff]
    decide
  obtain ⟨options, assembles, template⟩ := exists_of_map_ok template
  obtain ⟨edits, rewritten, filled⟩ := constants_of_assemble compiles default assembles
  rw [template] at rewritten
  refine ⟨_, options, compiles, assembles, template, edits, rewritten, fun hole mem => ?_⟩
  obtain ⟨text, put, constants⟩ := filled hole mem
  rw [holes] at mem
  obtain rfl := List.mem_singleton.mp mem
  exact ⟨text, put, (constants _ spells).2.mpr (List.forall_mem_singleton.mpr kept)⟩

/-- A qualifier at the end of a constant is deleted from it. -/
theorem constant_loses_qualifier :
    ∃ compiled options,
      compileComponent default default (some "\x7b\x7b 'Delete this.' \x7d\x7d") default =
        .ok compiled ∧
      (assemble (compiled.definition default) ⟨fun _ => none, fun _ => none⟩ .empty).1 =
        .ok options ∧
      expressionHoles "\x7b\x7b 'Delete this.' \x7d\x7d" =
        [⟨⟨⟨0, 20⟩, true⟩, .expression 0 "'Delete this.'"⟩] ∧
      options.template = some "\x7b\x7b 'Delete ' \x7d\x7d" ∧
      Spells "'Delete this.'".toList [⟨'\'', "Delete this.".toList⟩] ∧
      Spells "'Delete '".toList [⟨'\'', "Delete ".toList⟩] := by
  let x : Extraction :=
    ⟨"{{ exp$0 }}", [⟨"exp$0", .getter, [], "String", "'Delete this.'"⟩], []⟩
  have extracts : extract default default "\x7b\x7b 'Delete this.' \x7d\x7d" = .ok x := by
    decide +kernel
  have compiles := (@compileComponent_eq_ok_iff _ _ _ _ default _).mpr ⟨x, extracts, rfl⟩
  have alone (contents : List Char) (plain : ∀ c ∈ contents, c ≠ '\'' ∧ c ≠ '\\') :
      Spells ('\'' :: (contents ++ ['\''])) [⟨'\'', contents⟩] := by
    refine ⟨.constant contents (.inr rfl) .nil, fun constant mem => ?_⟩
    obtain rfl := List.mem_singleton.mp mem
    exact contents_of_plain plain
  have template : (assemble ⟨default, some (Descriptor.make default default x).compiled⟩
      ⟨fun _ => none, fun _ => none⟩ .empty).1.map ComponentOptions.template =
        .ok (some "\x7b\x7b 'Delete ' \x7d\x7d") := by
    decide +kernel
  obtain ⟨options, assembles, template⟩ := exists_of_map_ok template
  exact ⟨_, options, compiles, assembles, by decide +kernel, template,
    alone "Delete this.".toList (by simp), alone "Delete ".toList (by simp)⟩

end TemplateCompiler.Assembly
