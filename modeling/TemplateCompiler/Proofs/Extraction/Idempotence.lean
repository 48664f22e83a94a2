import Mathlib
import TemplateCompiler.Proofs.Extraction.Refilling

/-!
# Extracting again

An extracted template can be extracted again. Its tokens are those of the authored one with
placeholders in them, so there are as many expressions and loops as before, and they are the
placeholders. Every placeholder is replaced by itself.

Two things may go wrong, and both are ruled out here. The clause of a loop is written with blanks,
which only quotes hold together. And a stray bracket may begin a comment or a tag once something
behind it has been replaced.

## Main definitions

* `Extraction.StraysSettled` — no replacement can give a stray bracket a meaning
* `Extraction.AllReadAgain` — what is read from an extracted template, token by token
* `Extraction.SelfFilled` — a hole that has its placeholder in it already
* `Extraction.Repeats` — extracting again changes nothing and finds the placeholders

## Main statements

* `Extraction.lex_template_of_extract` — the tokens of the extracted template are the refilled ones
* `Extraction.selfFilled_of_mem_holes` — its holes have their placeholders in them already
* `Extraction.extract_again` — extraction is idempotent
-/
namespace TemplateCompiler.Extraction

open Text Markup

/-- Behind a stray bracket nothing is replaced, or the text there rules out that the bracket begins
something. -/
def StraysSettled [Matching] (template : String) : Prop :=
  ∀ span behind, (⟨.stray, ['<']⟩, span) :: behind <:+ lex template →
    (∀ located ∈ behind, places located = []) ∨
      Settled (behind.flatMap fun located => located.1.text)

/-! ## Edits that change nothing -/

/-- Edits that put the text of their spans there change nothing. -/
theorem eq_of_spliced {position : Nat} {text result : List Char} {edits : List Edit}
    (h : Spliced position text edits result)
    (covers : ∀ edit ∈ edits, Covers position text edit.span edit.replacement.toList) :
    result = text := by
  induction h with
  | nil => rfl
  | @keep position text result edits c h ih =>
    refine congrArg (c :: ·) (ih fun edit mem => ?_)
    have front : c :: text = [c] ++ text := rfl
    have here := covers edit mem
    rw [front] at here
    exact covers_of_le here (by simpa using (h.bounds mem).1)
  | @replace position text result edits old new h ih =>
    have same : old = new.toList := by
      obtain ⟨before, behind, split, spans⟩ := covers _ List.mem_cons_self
      obtain ⟨starts, stops⟩ := Span.mk.inj spans
      have none : byteLength [] = byteLength before := by
        rw [byteLength_nil]
        omega
      obtain ⟨-, split⟩ := eq_of_byteLength_eq (List.nil_append _ |>.trans split) none
      exact (eq_of_byteLength_eq split (by omega)).1
    rw [← same, ih fun edit mem => covers_of_le (covers edit (List.mem_cons_of_mem _ mem))
      (h.bounds mem).1]

/-! ## The tokens of the extracted template -/

section Refilled

variable {template : String} {f : Token × Span → Token}

/-- A token without places keeps its text. -/
theorem Refilled.text_eq [Matching] {located : Token × Span} {other : Token}
    (refilled : Refilled template located other) (none : places located = []) :
    other.text = located.1.text := by
  obtain ⟨ordered, perm, spliced⟩ := refilled.spliced
  rw [none, List.perm_nil] at perm
  rw [perm] at spliced
  exact spliced.unique (.refl _ _)

/-- Refilled tokens spell what the edits make of the markup. -/
theorem exists_spliced_rewritten [Matching] {position : Nat} {all : List Token}
    (refilled : ∀ located ∈ positioned position all, Refilled template located (f located)) :
    ∃ ordered : List Place, ordered.Perm ((positioned position all).flatMap places) ∧
      Spliced position (all.flatMap Token.text)
        (ordered.map fun place => place.put (textAt template place))
        (rewritten f (positioned position all)) := by
  induction all generalizing position with
  | nil => exact ⟨[], .nil, .nil _⟩
  | cons token all ih =>
    rw [positioned] at refilled ⊢
    obtain ⟨first, firstPerm, firstSpliced⟩ := (refilled _ List.mem_cons_self).spliced
    obtain ⟨more, perm, spliced⟩ := ih fun located mem =>
      refilled located (List.mem_cons_of_mem _ mem)
    refine ⟨first ++ more, ?_, ?_⟩
    · rw [List.flatMap_cons]
      exact firstPerm.append perm
    · rw [List.map_append, List.flatMap_cons, rewritten_cons]
      exact firstSpliced.append spliced

/-- What extraction puts into the places of the holes are their placeholders. -/
theorem map_put_textAt [Matching] (template : String) :
    ((holes template).map Hole.place).map (fun place => place.put (textAt template place)) =
      (holes template).map fun hole => hole.put hole.content.placeholder := by
  rw [List.map_map]
  refine List.map_congr_left fun hole mem => ?_
  simp only [Function.comp_apply, textAt_of_mem mem, Hole.put]

variable {h : TypeHierarchy} {c : ComponentType} {x : Extraction}

/-- The extracted template is made of the refilled tokens. -/
theorem toList_template_of_extract [Matching] (ok : extract h c template = .ok x)
    (refilled : ∀ located ∈ lex template, Refilled template located (f located)) :
    x.template.toList = rewritten f (lex template) := by
  have inHoles := places_holes template
  rw [lex_eq] at refilled inHoles ⊢
  obtain ⟨ordered, perm, spliced⟩ := exists_spliced_rewritten refilled
  rw [flatMap_text_tokens] at spliced
  have put := (perm.trans inHoles.symm).map fun place => place.put (textAt template place)
  rw [map_put_textAt] at put
  exact template_of_rewrites ok ⟨_, put, spliced⟩

/-- A template without problems has no interpolation without an end. -/
theorem terminated_of_extract [Matching] (ok : extract h c template = .ok x) :
    ∀ located ∈ lex template, located.1.kind ≠ .unterminatedInterpolation := by
  intro located mem kind
  have noProblems := List.flatMap_eq_nil_iff.mp (extract_eq_ok_iff.mp ok).1 located mem
  simp [problems, kind] at noProblems

/-- **The tokens of the extracted template are the refilled ones.** -/
theorem lex_template_of_extract [Matching] (ok : extract h c template = .ok x)
    (settled : StraysSettled template)
    (refilled : ∀ located ∈ lex template, Refilled template located (f located)) :
    lex x.template = positioned 0 ((lex template).map f) := by
  have replaces (located) (mem : located ∈ lex template) := (refilled located mem).replaces
  have terminated := terminated_of_extract ok
  rw [lex_eq, toList_template_of_extract ok refilled]
  rw [lex_eq] at replaces terminated ⊢
  rw [tokens_rewritten replaces terminated ?_]
  intro before span behind split
  rw [← lex_eq] at split
  have isSuffix : (⟨.stray, ['<']⟩, span) :: behind <:+ lex template := ⟨before, split.symm⟩
  refine (settled span behind isSuffix).imp_left fun none => ?_
  have inLex (located) (mem : located ∈ behind) : located ∈ lex template :=
    isSuffix.subset (List.mem_cons_of_mem _ mem)
  exact List.flatMap_congr fun located mem =>
    (refilled located (inLex located mem)).text_eq (none located mem)

end Refilled

/-! ## The holes of the extracted template -/

/-- What stands for the content of a hole: the name of the expression, or the data slot from which
the engine reads the items of the collection. -/
def Content.slot : Content → String
  | expression index _ => Placeholder.expressionId index
  | loop index _ => Placeholder.arraySlot (Placeholder.collectionId index)

/-- A hole of a template that has its placeholder in it already. -/
structure SelfFilled (template : String) (hole : Hole) : Prop where
  covers : Covers 0 template.toList hole.place.span
    (hole.put hole.content.placeholder).replacement.toList
  /-- What is taken out is what has been put in. -/
  body : hole.content.body = hole.content.slot

/-- Tokens and the ones that they are made into, at the positions of those. -/
theorem forall₂_positioned_map (f : Token × Span → Token) (position : Nat)
    (all : List (Token × Span)) :
    List.Forall₂ (fun again located => again.1 = f located ∧
        again.2.stop = again.2.start + byteLength (f located).text)
      (positioned position (all.map f)) all := by
  induction all generalizing position with
  | nil => exact .nil
  | cons located all ih => exact .cons ⟨rfl, rfl⟩ (ih _)

/-- What is related and numbered is related under the same numbers. -/
theorem forall₂_number {α β : Type} {R : Place × α → Place × β → Prop} (make : Nat → α → Content)
    (other : Nat → β → Content) {news : List (Place × α)} {olds : List (Place × β)}
    (h : List.Forall₂ R news olds) :
    List.Forall₂ (fun new old => ∃ index value source, R (new.place, value) (old.place, source) ∧
        new.content = make index value ∧ old.content = other index source)
      (number make news) (number other olds) := by
  rw [number, number, List.forall₂_map_left_iff, List.forall₂_map_right_iff]
  generalize 0 = start
  induction h generalizing start with
  | nil => exact .nil
  | cons first _ ih => exact .cons ⟨start, _, _, first, rfl, rfl⟩ (ih _)

section Again

variable {template : String} {h : TypeHierarchy} {c : ComponentType} {x : Extraction}

/-- What is read from the extracted template, token by token. -/
def AllReadAgain [Matching] (template again : String) : Prop :=
  List.Forall₂ (fun new old => ReadAgain template old new ∧ new ∈ lex again ∧ old ∈ lex template)
    (lex again) (lex template)

/-- **From the extracted template the same is read**, token by token. -/
theorem allReadAgain_of_extract [Matching] (ok : extract h c template = .ok x)
    (quoted : ∀ located ∈ lex template, LoopQuoted located) (settled : StraysSettled template) :
    AllReadAgain template x.template := by
  have noProblems := List.flatMap_eq_nil_iff.mp (extract_eq_ok_iff.mp ok).1
  have each (located) (mem : located ∈ lex template) : ∃ other, Refilled template located other :=
    exists_refilled mem (noProblems located mem) (quoted located mem)
  have : Nonempty Token := ⟨⟨.text, []⟩⟩
  choose! f refilled using each
  have related := forall₂_positioned_map f 0 (lex template)
  rw [← lex_template_of_extract ok settled refilled] at related
  refine (forall₂_of_mem related).imp ?_
  rintro ⟨other, span⟩ located ⟨⟨rfl, stop⟩, inAgain, inLex⟩
  exact ⟨(refilled located inLex).again span stop, inAgain, inLex⟩

namespace AllReadAgain

variable {again : String}

/-- The extracted template has no problems. -/
theorem problems [Matching] (reads : AllReadAgain template again) :
    (lex again).flatMap Extraction.problems = [] :=
  List.flatMap_eq_nil_iff.mpr (forall_of_forall₂ (reads.imp fun _ _ h => h.1.problems))

/-- The expressions of the extracted template are the placeholders. -/
theorem expressions [Matching] (reads : AllReadAgain template again) :
    List.Forall₂ (fun new old => new.2 = textAt template old.1 ∧
        Covers 0 again.toList new.1.span (new.1.put new.2).replacement.toList)
      ((lex again).flatMap expressionPlaces) ((lex template).flatMap expressionPlaces) := by
  refine List.rel_flatMap reads ?_
  rintro new old ⟨read, inAgain, -⟩
  refine read.expressions.imp ?_
  rintro place source ⟨text, holds⟩
  exact ⟨text, (covers_of_mem_lex inAgain).trans (text ▸ holds)⟩

/-- The loops of the extracted template are those of the clauses for the engine. -/
theorem loops [Matching] (reads : AllReadAgain template again) :
    List.Forall₂ (fun new old => LoopClause.read (textAt template old.1) = .ok new.2 ∧
        Covers 0 again.toList new.1.span (new.1.put (textAt template old.1)).replacement.toList ∧
          ∃ text, LoopClause.read text = .ok old.2)
      ((lex again).flatMap loopPlaces) ((lex template).flatMap loopPlaces) := by
  refine List.rel_flatMap reads ?_
  rintro new old ⟨read, inAgain, -⟩
  refine (forall₂_of_mem read.loops).imp ?_
  rintro place source ⟨⟨clause, holds⟩, -, inOld⟩
  exact ⟨clause, (covers_of_mem_lex inAgain).trans holds, exists_read_of_mem_loopPlaces inOld⟩

/-- An expression of the extracted template is its name. -/
theorem selfFilled_expression [Matching] (reads : AllReadAgain template again) :
    ∀ hole ∈ expressionHoles again, SelfFilled again hole := by
  refine forall_of_forall₂
    ((forall₂_of_mem (forall₂_number .expression .expression reads.expressions)).imp ?_)
  rintro ⟨place, content⟩ old ⟨⟨index, body, source, ⟨text, covers⟩, rfl, content⟩, -, inOld⟩
  have put : textAt template old.place = Placeholder.expressionId index := by
    rw [textAt_of_mem (List.mem_append_right _ inOld), content, Content.placeholder]
  have name : body = Placeholder.expressionId index := text.trans put
  exact ⟨name ▸ covers, name⟩

/-- A loop of the extracted template is the clause for the engine. -/
theorem selfFilled_loop [Matching] (reads : AllReadAgain template again) :
    ∀ hole ∈ loopHoles again, SelfFilled again hole := by
  refine forall_of_forall₂ ((forall₂_of_mem (forall₂_number .loop .loop reads.loops)).imp ?_)
  rintro ⟨place, content⟩ old
    ⟨⟨index, clause, source, ⟨read, covers, authored, authoredRead⟩, rfl, content⟩, -, inOld⟩
  have put : textAt template old.place =
      bareClause source.bindings (Placeholder.collectionId index) := by
    rw [textAt_of_mem (List.mem_append_left _ inOld), content, Content.placeholder]
  obtain ⟨span, rewritten⟩ := isClause_bareClause authoredRead index
  dsimp only at read covers
  rw [put] at read covers
  obtain rfl := Except.ok.inj ((read_eq_ok_iff.mpr rewritten).symm.trans read)
  have same : bareClause (source.bindings.map fun v => bare v.name)
      (Placeholder.collectionId index) =
        bareClause source.bindings (Placeholder.collectionId index) := by
    rw [bareClause_eq, bareClause_eq, List.map_map]
    rfl
  refine ⟨?_, ?_⟩
  · rw [Content.placeholder, same]
    exact covers
  · rw [Content.body, cleanBody_arraySlot, String.ofList_toList, Content.slot]

end AllReadAgain

/-- **The holes of the extracted template have their placeholders in them already.** -/
theorem selfFilled_of_mem_holes [Matching] {again : String} (reads : AllReadAgain template again) :
    ∀ hole ∈ holes again, SelfFilled again hole := by
  intro hole mem
  rcases List.mem_append.mp mem with loop | expression
  · exact reads.selfFilled_loop hole loop
  · exact reads.selfFilled_expression hole expression

/-- Extraction keeps a template whose holes have their placeholders in them. -/
theorem template_of_selfFilled [Matching] (ok : extract h c template = .ok x)
    (filled : ∀ hole ∈ holes template, SelfFilled template hole) : x.template = template := by
  obtain ⟨seams, tail, all, sewn⟩ := exists_sewn template
  obtain ⟨ordered, perm, spliced⟩ :=
    rewrites_fill all sewn fun hole => hole.content.placeholder
  refine String.toList_inj.mp ((template_of_rewrites ok ⟨ordered, perm, spliced⟩).trans ?_)
  refine eq_of_spliced spliced fun edit mem => ?_
  obtain ⟨hole, inHoles, rfl⟩ := List.mem_map.mp (perm.subset mem)
  exact (filled hole inHoles).covers

/-- There are as many records as there are places. -/
theorem lengths_of_extract [Matching] (ok : extract h c template = .ok x) :
    x.expressions.length = ((lex template).flatMap expressionPlaces).length ∧
      x.collections.length = ((lex template).flatMap loopPlaces).length := by
  have took := took_walkOver ok
  obtain ⟨-, rfl⟩ := extract_eq_ok_iff.mp ok
  exact ⟨took.length_expressions, took.length_collections⟩

/-- Extraction takes out of it what has been put in. -/
theorem bodies_of_selfFilled [Matching] (ok : extract h c template = .ok x)
    (filled : ∀ hole ∈ holes template, SelfFilled template hole) :
    x.expressions.map Expression.body =
        (List.range x.expressions.length).map Placeholder.expressionId ∧
      x.collections.map Collection.body =
        (List.range x.collections.length).map
          fun index => Placeholder.arraySlot (Placeholder.collectionId index) := by
  have took := took_walkOver ok
  obtain ⟨-, rfl⟩ := extract_eq_ok_iff.mp ok
  have bodies {found : List Hole} (inHoles : found ⊆ holes template) :
      found.map (fun hole => hole.content.body) = found.map fun hole => hole.content.slot :=
    List.map_congr_left fun hole mem => (filled hole (inHoles mem)).body
  have records := congrArg (List.map Prod.snd) took.records
  have collections := congrArg (List.map Prod.snd) took.collections
  rw [List.map_map, List.map_map] at records collections
  refine ⟨?_, ?_⟩
  · have numbered := map_content_number .expression Content.slot (fun _ _ => rfl)
      ((lex template).flatMap expressionPlaces)
    rw [← took.length_expressions] at numbered
    exact (records.trans (bodies (List.subset_append_right _ _))).trans numbered
  · have numbered := map_content_number .loop Content.slot (fun _ _ => rfl)
      ((lex template).flatMap loopPlaces)
    rw [← took.length_collections] at numbered
    exact (collections.trans (bodies (List.subset_append_left _ _))).trans numbered

/-- The template that has been extracted can be extracted again. It stays as it is, there are as
many expressions and collections as there were, and they are the placeholders. -/
def Repeats [Matching] (h : TypeHierarchy) (c : ComponentType) (x : Extraction) : Prop :=
  ∃ again, extract h c x.template = .ok again ∧ again.template = x.template ∧
    again.expressions.map Expression.body =
      (List.range x.expressions.length).map Placeholder.expressionId ∧
    again.collections.map Collection.body =
      (List.range x.collections.length).map
        fun index => Placeholder.arraySlot (Placeholder.collectionId index)

/-- **Extraction is idempotent**, if the values of loops are quoted and no replacement gives a
stray bracket a meaning. -/
theorem extract_again [Matching] (ok : extract h c template = .ok x)
    (quoted : ∀ located ∈ lex template, LoopQuoted located) (settled : StraysSettled template) :
    Repeats h c x := by
  have reads := allReadAgain_of_extract ok quoted settled
  have filled := selfFilled_of_mem_holes reads
  obtain ⟨again, okAgain⟩ : ∃ again, extract h c x.template = .ok again :=
    ⟨_, extract_eq_ok_iff.mpr ⟨reads.problems, rfl⟩⟩
  obtain ⟨expressions, collections⟩ := bodies_of_selfFilled okAgain filled
  have first := lengths_of_extract ok
  have second := lengths_of_extract okAgain
  rw [second.1, reads.expressions.length_eq, ← first.1] at expressions
  rw [second.2, reads.loops.length_eq, ← first.2] at collections
  exact ⟨again, okAgain, template_of_selfFilled okAgain filled, expressions, collections⟩

set_option maxRecDepth 2000 in
/-- A quoted loop, a binding, and a stray bracket in front of an interpolation. -/
theorem loop_and_stray_repeat :
    ∃ x, extract default default "<p v-for='a in b' :c=a>1 < 2{{ a }}</p>" = .ok x ∧
      Repeats default default x := by
  have ok : extract default default "<p v-for='a in b' :c=a>1 < 2{{ a }}</p>" =
      .ok ⟨"<p v-for='a in col$0Array' :c=exp$0>1 < 2{{ exp$1 }}</p>",
        [⟨"exp$0", .getter, [⟨"a", objectType⟩], objectType, "a"⟩,
          ⟨"exp$1", .getter, [⟨"a", objectType⟩], "String", "a"⟩],
        [⟨"col$0", [], objectType, "b"⟩]⟩ := by
    cbv
  have lexed : lex "<p v-for='a in b' :c=a>1 < 2{{ a }}</p>" =
      [(⟨.openTag, "<p v-for='a in b' :c=a>".toList⟩, ⟨0, 23⟩),
        (⟨.text, "1 ".toList⟩, ⟨23, 25⟩), (⟨.stray, ['<']⟩, ⟨25, 26⟩),
        (⟨.text, " 2".toList⟩, ⟨26, 28⟩),
        (⟨.interpolation, "\x7b\x7b a \x7d\x7d".toList⟩, ⟨28, 35⟩),
        (⟨.closeTag "p", "</p>".toList⟩, ⟨35, 39⟩)] := by
    cbv
  have loop : loopAttribute? (Element.ofTag "<p v-for='a in b' :c=a>".toList 0).attributes =
      some ⟨⟨"v-for", ⟨3, 8⟩⟩, some ⟨"a in b", ⟨10, 16⟩⟩⟩ := by
    cbv
  refine ⟨_, ok, extract_again ok ?_ ?_⟩
  · rw [lexed]
    simp only [List.forall_mem_cons, LoopQuoted, reduceCtorEq, false_imp_iff,
      List.not_mem_nil, implies_true, and_true, true_imp_iff]
    intro a mem value hvalue
    rw [loop] at mem
    obtain rfl := Option.some.inj mem
    obtain rfl := Option.some.inj hvalue
    exact ⟨'\'', .inr rfl, "<p v-for=".toList, " :c=a>".toList, by decide, by decide⟩
  · intro span behind isSuffix
    rw [lexed] at isSuffix
    simp only [List.suffix_cons_iff, List.cons.injEq, Prod.mk.injEq, Token.mk.injEq,
      List.suffix_nil, reduceCtorEq, false_and, false_or, or_false, true_and] at isSuffix
    obtain ⟨-, rfl⟩ := isSuffix
    exact .inr (settled_cons rfl rfl (by decide) (by decide))

set_option maxRecDepth 2000 in
/-- A clause for the engine needs quotes. Without them the tag is none any more. -/
theorem bare_loop_is_lost :
    ∃ x, extract default default "<i v-for=(a)in(b)></i>" = .ok x ∧
      ¬ Repeats default default x := by
  have ok : extract default default "<i v-for=(a)in(b)></i>" =
      .ok ⟨"<i v-for=a in col$0Array></i>", [], [⟨"col$0", [], objectType, "(b)"⟩]⟩ := by
    cbv
  have again : extract default default "<i v-for=a in col$0Array></i>" =
      .ok ⟨"<i v-for=a in col$0Array></i>", [], []⟩ := by
    cbv
  refine ⟨_, ok, ?_⟩
  rintro ⟨x, okAgain, -, -, collections⟩
  obtain rfl := Except.ok.inj (again.symm.trans okAgain)
  cases collections

/-- The end of a decrement keeps a comment from closing. -/
theorem comment_is_completed :
    ∃ x, extract default default "<!-- \x7b\x7b a-- \x7d\x7d -->" = .ok x ∧
      ¬ Repeats default default x := by
  have ok : extract default default "<!-- \x7b\x7b a-- \x7d\x7d -->" =
      .ok ⟨"<!-- {{ exp$0 }} -->", [⟨"exp$0", .getter, [], "String", "a--"⟩], []⟩ := by
    cbv
  have again : extract default default "<!-- {{ exp$0 }} -->" =
      .ok ⟨"<!-- {{ exp$0 }} -->", [], []⟩ := by
    cbv
  refine ⟨_, ok, ?_⟩
  rintro ⟨x, okAgain, -, expressions, -⟩
  obtain rfl := Except.ok.inj (again.symm.trans okAgain)
  cases expressions

end Again

end TemplateCompiler.Extraction
