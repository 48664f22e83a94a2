import Mathlib.Data.List.Perm.Subperm
import TemplateCompiler.Proofs.Extraction.Holes
import TemplateCompiler.Proofs.Markup.Values
import TemplateCompiler.Proofs.Placeholder
import TemplateCompiler.Proofs.Text.Splice

/-!
# Filling the holes

The holes of a template come from two lexers and are found in an order that is not that of the
text: a loop before the attributes in front of it. Still they can all be filled at once, with any
texts, and the rest of the template stays as it is. What is put into a hole stands between two
characters that no placeholder has, so that it is read apart from the text around it.

The places of holes do not overlap, and neither do they together with those characters. With the
holes sorted, the template falls into seams: text that is kept, a border, a hole, a border.

## Main definitions

* `Extraction.Framed` — what is put into a place of a text stands between borders
* `Extraction.Seam`, `Extraction.fill` — a text with holes, and the text when they are filled
* `Extraction.Stitched`, `Extraction.Sewn` — seams that make up a template

## Main statements

* `Extraction.framed_of_mem_holes` — the holes of a template are framed in it
* `Extraction.apart_holes` — they lie apart
* `Extraction.exists_sewn` — every template is made of seams
* `Extraction.template_of_rewrites` — extraction puts placeholders into the holes
-/
namespace TemplateCompiler.Extraction

open Text Markup
open Placeholder (Border)

/-! ## Frames -/

theorem border_of_isFence {c : Char} (h : isFence c = true) : Border [c] := by
  refine ⟨List.cons_ne_nil c [], ?_⟩
  intro d hd
  obtain rfl := List.mem_singleton.mp hd
  simp only [isFence, isAttributeNameChar, isMarkupBlank, Bool.not_not, Bool.or_eq_true,
    beq_iff_eq] at h
  rcases h with (((((((((rfl | rfl) | rfl) | rfl) | rfl) | rfl) | rfl) | rfl) | rfl) | rfl) <;> rfl

/-- The bytes that a place claims for itself: its span, with one character on either side unless
braces belong to it. -/
def Place.reach (place : Place) : Span :=
  if place.braced then place.span else ⟨place.span.start - 1, place.span.stop + 1⟩

theorem Place.le_reach (place : Place) :
    place.reach.start ≤ place.span.start ∧ place.span.stop ≤ place.reach.stop := by
  rw [Place.reach]
  split
  · exact ⟨Nat.le_refl _, Nat.le_refl _⟩
  · exact ⟨Nat.sub_le _ _, Nat.le_succ _⟩

/-- In text that begins at byte `position`, whatever is put into the place stands between
borders, which the reach of the place covers. -/
def Framed (position : Nat) (text : List Char) (place : Place) : Prop :=
  ∃ wide left right, wide ≠ [] ∧ Covers position text place.reach wide ∧ Border left ∧
    Border right ∧
      ∀ new, Spliced place.reach.start wide [place.put new] (left ++ (new.toList ++ right))

namespace Framed

variable {position : Nat} {text stretch : List Char} {span : Span} {place : Place}

theorem le (h : Framed position text place) :
    position ≤ place.reach.start ∧ place.reach.start < place.reach.stop ∧
      place.reach.stop ≤ position + byteLength text := by
  obtain ⟨wide, -, -, nonempty, covers, -⟩ := h
  obtain ⟨c, rest, rfl⟩ := List.exists_cons_of_ne_nil nonempty
  obtain ⟨start, stop, bound⟩ := covers.le
  have := c.utf8Size_pos
  rw [byteLength_cons] at stop
  omega

theorem start_le_stop (h : Framed position text place) : place.span.start ≤ place.span.stop := by
  obtain ⟨wide, left, right, -, -, -, -, spliced⟩ := h
  exact ((spliced "").bounds List.mem_cons_self).2.1

/-- The span of a place begins inside its reach. -/
theorem start_lt (h : Framed position text place) : place.span.start < place.reach.stop := by
  have nonempty := h.le.2.1
  have span := h.start_le_stop
  unfold Place.reach at *
  split at nonempty <;> rename_i braced
  · simpa [braced] using nonempty
  · simp only [braced]
    exact Nat.lt_succ_of_le span

/-- A place that is framed in a part of the text is framed in the whole text. -/
theorem within (covers : Covers position text span stretch)
    (h : Framed span.start stretch place) : Framed position text place := by
  obtain ⟨wide, left, right, nonempty, inner, borders⟩ := h
  exact ⟨wide, left, right, nonempty, covers.trans inner, borders⟩

end Framed

/-- The place of a value that no braces belong to. -/
def valuePlace (value : Located) : Place := ⟨value.span, false⟩

/-- A fenced value is framed by its fences. -/
theorem framed_of_fenced {position : Nat} {text : List Char} {value : Located}
    (h : Fenced position text value) : Framed position text (valuePlace value) := by
  obtain ⟨before, left, right, behind, rfl, hleft, hright, -, hspan⟩ := h
  have sizes := And.intro (utf8Size_of_isFence hleft) (utf8Size_of_isFence hright)
  have reach : (valuePlace value).reach =
      ⟨position + byteLength before,
        position + byteLength before + byteLength (left :: (value.text.toList ++ [right]))⟩ := by
    simp [Place.reach, valuePlace, hspan, sizes]
    omega
  refine ⟨left :: (value.text.toList ++ [right]), [left], [right], List.cons_ne_nil _ _,
    ⟨before, behind, by simp, reach⟩, border_of_isFence hleft, border_of_isFence hright, ?_⟩
  intro new
  have inner := Spliced.single (position + byteLength before + left.utf8Size) value.text.toList new
  have whole := Spliced.keep left (inner.append (Spliced.refl _ [right]))
  have put : (valuePlace value).put new =
      ⟨⟨position + byteLength before + left.utf8Size,
        position + byteLength before + left.utf8Size + byteLength value.text.toList⟩, new⟩ := by
    simp [Place.put, valuePlace, hspan, sizes]
  rw [reach, put]
  exact whole

/-- An interpolation is framed by its braces. -/
theorem framed_interpolation (position : Nat) {text : List Char} (nonempty : text ≠ []) :
    Framed position text ⟨⟨position, position + byteLength text⟩, true⟩ := by
  refine ⟨text, ['{', '{', ' '], [' ', '}', '}'], nonempty, ⟨[], [], by simp, rfl⟩,
    Placeholder.border_of_any (by decide) (by decide),
    Placeholder.border_of_any (by decide) (by decide), ?_⟩
  intro new
  have whole := Spliced.single position text ("\x7b\x7b " ++ new ++ " \x7d\x7d")
  simpa [Place.put, Place.reach] using whole

/-! ## Places of a token -/

/-- The places that a token has. -/
def places (located : Token × Span) : List Place :=
  (loopPlaces located).map Prod.fst ++ (expressionPlaces located).map Prod.fst

/-- A place is apart from another one. -/
def Place.Apart (a b : Place) : Prop :=
  a.reach.stop ≤ b.reach.start ∨ b.reach.stop ≤ a.reach.start

theorem Place.Apart.symm {a b : Place} (h : a.Apart b) : b.Apart a := Or.symm h

/-- The loop of an element and its expressions are attributes of it, none of them twice. -/
theorem edited_subperm (attributes : List Attribute) :
    ((loopAttribute? attributes).toList ++ expressionAttributes attributes).Subperm
      attributes := by
  have loop : (loopAttribute? attributes).toList.Sublist
      (attributes.filter fun a => a.directive == .loop) := by
    rw [loopAttribute?, ← List.head?_filter]
    cases attributes.filter fun a => a.directive == .loop with
    | nil => exact .slnil
    | cons a rest => exact List.singleton_sublist.mpr List.mem_cons_self
  have others : (expressionAttributes attributes).Sublist
      (attributes.filter fun a => !(a.directive == .loop)) := by
    refine List.monotone_filter_right attributes ?_
    intro a takes
    cases hd : a.directive <;> simp_all [Directive.takesExpression]
  exact ((loop.append others).subperm).trans (List.filter_append_perm _ _).subperm

/-- The places of loops are those of values, as far as the values are clauses. -/
theorem places_loops_sublist (attributes : List Attribute) :
    ((attributes.filterMap loopPlace?).map Prod.fst).Sublist
      ((valuesOf attributes).map valuePlace) := by
  induction attributes with
  | nil => exact .slnil
  | cons a rest ih =>
    cases hvalue : a.value with
    | none => simpa [loopPlace?, valuesOf, hvalue] using ih
    | some value =>
      cases hread : LoopClause.read value.text with
      | error problem =>
        have sub := ih.cons (valuePlace value)
        simpa [loopPlace?, valuesOf, hvalue, hread, value?] using sub
      | ok clause =>
        have sub := ih.cons_cons (valuePlace value)
        simpa [loopPlace?, valuesOf, valuePlace, hvalue, hread, value?] using sub

/-- The places of expressions are those of values. -/
theorem places_expressions (attributes : List Attribute) :
    (attributes.filterMap expressionPlace?).map Prod.fst =
      (valuesOf attributes).map valuePlace := by
  rw [List.map_filterMap, valuesOf, List.map_filterMap]
  apply List.filterMap_congr
  intro a _
  cases hvalue : a.value <;> simp [expressionPlace?, valuePlace, hvalue]

/-- The places of an opening tag are those of values of it. -/
theorem places_subperm {located : Token × Span} (kind : located.1.kind = .openTag) :
    (places located).Subperm
      ((valuesOf (Element.ofTag located.1.text located.2.start).attributes).map valuePlace) := by
  rw [places, loopPlaces, expressionPlaces]
  simp only [kind]
  generalize (Element.ofTag located.1.text located.2.start).attributes = attributes
  have sub : ((((loopAttribute? attributes).toList.filterMap loopPlace?).map Prod.fst) ++
      ((expressionAttributes attributes).filterMap expressionPlace?).map Prod.fst).Sublist
        ((valuesOf ((loopAttribute? attributes).toList ++ expressionAttributes attributes)).map
          valuePlace) := by
    rw [places_expressions]
    simp only [valuesOf, List.filterMap_append, List.map_append]
    exact (places_loops_sublist _).append_right _
  obtain ⟨edited, perm, sublist⟩ := edited_subperm attributes
  have values : (valuesOf edited).Sublist (valuesOf attributes) := sublist.filterMap _
  have same : (valuesOf edited).Perm
      (valuesOf ((loopAttribute? attributes).toList ++ expressionAttributes attributes)) :=
    perm.filterMap _
  exact sub.subperm.trans ⟨_, same.map valuePlace, values.map valuePlace⟩

/-- The values of an opening tag are spread over it. -/
theorem spread_of_mem_lex [Matching] {template : String} {located : Token × Span}
    (mem : located ∈ lex template) (kind : located.1.kind = .openTag) :
    Spread located.2.start located.1.text
      (valuesOf (Element.ofTag located.1.text located.2.start).attributes) := by
  obtain ⟨inner, shape⟩ := brackets_of_mem_lex mem kind
  rw [shape]
  exact spread_ofTag inner located.2.start

/-- Values that are spread have reaches one after the other. -/
theorem ordered_valuePlaces {position : Nat} {text : List Char} {values : List Located}
    (h : Spread position text values) :
    (values.map valuePlace).Pairwise fun a b => a.reach.stop ≤ b.reach.start := by
  refine List.pairwise_map.mpr (h.apart.imp ?_)
  intro a b apart
  show a.span.stop + 1 ≤ b.span.start - 1
  omega

/-- **The places of a token are framed in it.** -/
theorem framed_of_mem_places [Matching] {template : String} {located : Token × Span} {place : Place}
    (mem : located ∈ lex template) (inToken : place ∈ places located) :
    Framed located.2.start located.1.text place := by
  cases kind : located.1.kind with
  | interpolation =>
    have stop := (covers_of_mem_lex mem).le.2.1
    obtain ⟨inner, shape⟩ := braces_of_mem_lex mem kind
    have nonempty : located.1.text ≠ [] := by simp [shape]
    have framed := framed_interpolation located.2.start nonempty
    rw [← stop] at framed
    simp only [places, loopPlaces, expressionPlaces, kind, List.map_nil, List.map_cons,
      List.nil_append, List.mem_singleton] at inToken
    rw [inToken]
    exact framed
  | openTag =>
    obtain ⟨value, hvalue, rfl⟩ := List.mem_map.mp ((places_subperm kind).subset inToken)
    exact framed_of_fenced ((spread_of_mem_lex mem kind).fenced value hvalue)
  | closeTag name => simp [places, loopPlaces, expressionPlaces, kind] at inToken
  | unterminatedInterpolation | comment | text | stray =>
    simp [places, loopPlaces, expressionPlaces, kind] at inToken

/-- **The places of a token lie apart.** -/
theorem apart_places [Matching] {template : String} {located : Token × Span} (mem : located ∈ lex template) :
    (places located).Pairwise Place.Apart := by
  cases kind : located.1.kind with
  | openTag =>
    obtain ⟨values, perm, sublist⟩ := places_subperm kind
    have ordered := (ordered_valuePlaces (spread_of_mem_lex mem kind)).sublist sublist
    exact perm.pairwise (ordered.imp Or.inl) Place.Apart.symm
  | interpolation => simp [places, loopPlaces, expressionPlaces, kind]
  | closeTag name => simp [places, loopPlaces, expressionPlaces, kind]
  | unterminatedInterpolation | comment | text | stray =>
    simp [places, loopPlaces, expressionPlaces, kind]

/-- What holds between places that come one after the other and between the places of each token
holds between all of them, because tokens come one after the other. -/
theorem pairwise_flatMap_places [Matching] {template : String} {R : Place → Place → Prop}
    {f : Token × Span → List Place}
    (before : ∀ a b : Place, a.reach.stop ≤ b.reach.start → R a b)
    (sub : ∀ located, f located ⊆ places located)
    (within : ∀ located ∈ lex template, (f located).Pairwise R) :
    ((lex template).flatMap f).Pairwise R := by
  refine List.pairwise_flatMap.mpr ⟨within, ?_⟩
  refine (ordered_lex template).imp_of_mem ?_
  intro a b ha hb order p hp q hq
  have inA := (framed_of_mem_places ha (sub a hp)).le
  have inB := (framed_of_mem_places hb (sub b hq)).le
  have stop := (covers_of_mem_lex ha).le.2.1
  refine before p q ?_
  omega

/-! ## Holes of a template -/

/-- The places of the holes are those of the tokens. -/
theorem places_holes [Matching] (template : String) :
    ((holes template).map Hole.place).Perm ((lex template).flatMap places) := by
  rw [holes, List.map_append, loopHoles, expressionHoles, map_place_number, map_place_number,
    List.map_flatMap, List.map_flatMap]
  exact List.flatMap_append_perm _ _ _

/-- **The holes of a template are framed in it.** -/
theorem framed_of_mem_holes [Matching] {template : String} {hole : Hole} (mem : hole ∈ holes template) :
    Framed 0 template.toList hole.place := by
  have mem := (places_holes template).subset (List.mem_map_of_mem mem)
  obtain ⟨located, inLex, inToken⟩ := List.mem_flatMap.mp mem
  exact (framed_of_mem_places inLex inToken).within (covers_of_mem_lex inLex)

/-- **The holes of a template lie apart.** -/
theorem apart_holes [Matching] (template : String) :
    (holes template).Pairwise fun a b => a.place.Apart b.place := by
  have tokens : ((lex template).flatMap places).Pairwise Place.Apart :=
    pairwise_flatMap_places (fun _ _ => Or.inl) (fun _ => List.Subset.refl _)
      fun _ mem => apart_places mem
  exact List.pairwise_map.mp ((places_holes template).symm.pairwise tokens Place.Apart.symm)

/-- The holes in the order of the template. -/
def sortedHoles [Matching] (template : String) : List Hole :=
  (holes template).mergeSort fun a b => a.place.reach.start ≤ b.place.reach.start

theorem sortedHoles_perm [Matching] (template : String) : (sortedHoles template).Perm (holes template) :=
  List.mergeSort_perm _ _

/-- Sorted holes come one after the other. -/
theorem ordered_sortedHoles [Matching] (template : String) :
    (sortedHoles template).Pairwise fun a b => a.place.reach.stop ≤ b.place.reach.start := by
  have sorted : (sortedHoles template).Pairwise
      fun a b => a.place.reach.start ≤ b.place.reach.start :=
    sorted_mergeSort (fun hole => hole.place.reach.start) (holes template)
  have apart : (sortedHoles template).Pairwise fun a b => a.place.Apart b.place :=
    (sortedHoles_perm template).symm.pairwise (apart_holes template) Place.Apart.symm
  refine (sorted.and apart).imp_of_mem ?_
  rintro a b ha hb ⟨le, before | behind⟩
  · exact before
  · have := (framed_of_mem_holes ((sortedHoles_perm template).subset hb)).le
    omega

/-! ## Seams -/

/-- A hole, the text in front of it, and the borders of what is put into it. -/
structure Seam where
  kept : List Char
  left : List Char
  hole : Hole
  right : List Char

/-- The borders of a seam are borders. -/
def Seam.Bordered (seam : Seam) : Prop := Border seam.left ∧ Border seam.right

/-- The text that seams make with something in their holes, and `tail` behind the last one. -/
def fill (contents : Hole → String) (tail : List Char) : List Seam → List Char
  | [] => tail
  | seam :: rest =>
    seam.kept ++ (seam.left ++ ((contents seam.hole).toList ++ (seam.right ++
      fill contents tail rest)))

/-- The text, which begins at byte `position`, is made of the seams: filling their holes is what
the edits at the holes do. -/
structure Sewn (position : Nat) (text : List Char) (seams : List Seam) (tail : List Char) :
    Prop where
  bordered : ∀ seam ∈ seams, seam.Bordered
  /-- What is kept is text of the author. -/
  kept : ∀ seam ∈ seams, seam.kept <:+: text
  keptTail : tail <:+: text
  fill : ∀ contents : Hole → String, Spliced position text
    (seams.map fun seam => seam.hole.put (contents seam.hole)) (fill contents tail seams)

/-- A stretch that begins behind the front of a text is one of what follows the front. -/
theorem covers_of_le {position : Nat} {front text stretch : List Char} {span : Span}
    (h : Covers position (front ++ text) span stretch)
    (le : position + byteLength front ≤ span.start) :
    Covers (position + byteLength front) text span stretch := by
  obtain ⟨before, behind, split, rfl⟩ := h
  dsimp only at le
  obtain ⟨more, rfl⟩ : ∃ more, before = front ++ more := by
    rcases List.append_eq_append_iff.mp split with ⟨more, hbefore, -⟩ | ⟨more, hfront, -⟩
    · exact ⟨more, hbefore⟩
    · -- the front reaches behind `before` by characters that take no bytes, so by none
      rw [hfront, byteLength_append] at le
      cases more with
      | nil => exact ⟨[], by simp [hfront]⟩
      | cons c rest =>
        have := c.utf8Size_pos
        rw [byteLength_cons] at le
        omega
  refine ⟨more, behind, ?_, by simp [Nat.add_assoc]⟩
  rw [List.append_assoc] at split
  exact List.append_cancel_left split

theorem Framed.behind {position : Nat} {front text : List Char} {place : Place}
    (h : Framed position (front ++ text) place)
    (le : position + byteLength front ≤ place.reach.start) :
    Framed (position + byteLength front) text place := by
  obtain ⟨wide, left, right, nonempty, covers, borders⟩ := h
  exact ⟨wide, left, right, nonempty, covers_of_le covers le, borders⟩

/-- The text, which begins at byte `position`, falls into the seams: in front of each hole stands
what its seam keeps, and what is put into the hole stands between the borders. -/
inductive Stitched : Nat → List Char → List Seam → List Char → Prop
  | tail (position : Nat) (text : List Char) : Stitched position text [] text
  | seam {position : Nat} {seam : Seam} {wide behind tail : List Char} {seams : List Seam}
      (bordered : seam.Bordered)
      (put : ∀ new, Spliced (position + byteLength seam.kept) wide [seam.hole.put new]
        (seam.left ++ (new.toList ++ seam.right)))
      (more : Stitched (position + byteLength seam.kept + byteLength wide) behind seams tail) :
      Stitched position (seam.kept ++ (wide ++ behind)) (seam :: seams) tail

/-- Holes that are framed in a text and come one after the other make seams of it. -/
theorem exists_stitched_of_framed {position : Nat} {text : List Char} {ordered : List Hole}
    (framed : ∀ hole ∈ ordered, Framed position text hole.place)
    (apart : ordered.Pairwise fun a b => a.place.reach.stop ≤ b.place.reach.start) :
    ∃ seams tail, seams.map Seam.hole = ordered ∧ Stitched position text seams tail := by
  induction ordered generalizing position text with
  | nil => exact ⟨[], text, rfl, .tail position text⟩
  | cons hole rest ih =>
    obtain ⟨wide, left, right, -, ⟨kept, behind, rfl, hreach⟩, hleft, hright, here⟩ :=
      framed hole List.mem_cons_self
    have first := List.pairwise_cons.mp apart
    rw [hreach] at here
    simp only [hreach] at first
    have others : ∀ other ∈ rest,
        Framed (position + byteLength (kept ++ wide)) behind other.place := by
      intro other mem
      have before := first.1 other mem
      refine Framed.behind ?_ ?_
      · rw [List.append_assoc]
        exact framed other (List.mem_cons_of_mem hole mem)
      · rw [byteLength_append]
        omega
    obtain ⟨seams, tail, holes, stitched⟩ := ih others first.2
    rw [byteLength_append, ← Nat.add_assoc] at stitched
    have bordered : Seam.Bordered ⟨kept, left, hole, right⟩ := ⟨hleft, hright⟩
    exact ⟨⟨kept, left, hole, right⟩ :: seams, tail, by rw [List.map_cons, holes],
      .seam bordered here stitched⟩

/-- Filling the holes of a text that falls into seams is what the edits at the holes do. -/
theorem Stitched.sewn {position : Nat} {text tail : List Char} {seams : List Seam}
    (h : Stitched position text seams tail) : Sewn position text seams tail := by
  induction h with
  | tail position text =>
    exact ⟨nofun, nofun, List.infix_refl text, fun _ => .refl position text⟩
  | @seam position seam wide behind tail seams bordered put more ih =>
    have inside : behind <:+: seam.kept ++ (wide ++ behind) := by
      rw [← List.append_assoc]
      exact (List.suffix_append _ _).isInfix
    refine ⟨?_, ?_, ih.keptTail.trans inside, ?_⟩
    · intro other mem
      rcases List.mem_cons.mp mem with rfl | mem
      · exact bordered
      · exact ih.bordered other mem
    · intro other mem
      rcases List.mem_cons.mp mem with rfl | mem
      · exact (List.prefix_append _ _).isInfix
      · exact (ih.kept other mem).trans inside
    · intro contents
      have whole := (Spliced.refl position seam.kept).append
        ((put (contents seam.hole)).append (ih.fill contents))
      simpa [fill] using whole

/-- **Every template falls into seams**, one for each of its holes. -/
theorem exists_stitched [Matching] (template : String) :
    ∃ seams tail, seams.map Seam.hole = sortedHoles template ∧
      Stitched 0 template.toList seams tail :=
  exists_stitched_of_framed
    (fun _ mem => framed_of_mem_holes ((sortedHoles_perm template).subset mem))
    (ordered_sortedHoles template)

/-- **Every template is made of seams**, one for each of its holes. -/
theorem exists_sewn [Matching] (template : String) :
    ∃ seams tail, seams.map Seam.hole = sortedHoles template ∧
      Sewn 0 template.toList seams tail := by
  obtain ⟨seams, tail, all, stitched⟩ := exists_stitched template
  exact ⟨seams, tail, all, stitched.sewn⟩

/-- Edits at the holes begin at distinct bytes. -/
theorem distinct_holes [Matching] (template : String) :
    (holes template).Pairwise fun a b => a.place.span.start ≠ b.place.span.start := by
  refine (apart_holes template).imp_of_mem ?_
  intro a b ha hb apart
  have inA := (framed_of_mem_holes ha).start_lt
  have inB := (framed_of_mem_holes hb).start_lt
  have := a.place.le_reach
  have := b.place.le_reach
  rcases apart with before | behind
  · omega
  · omega

variable {template : String} {seams : List Seam} {tail : List Char}

/-- Putting texts into the holes of a template makes the text of its filled seams. -/
theorem rewrites_fill [Matching] (all : seams.map Seam.hole = sortedHoles template)
    (sewn : Sewn 0 template.toList seams tail) (contents : Hole → String) :
    Rewrites template.toList ((holes template).map fun hole => hole.put (contents hole))
      (fill contents tail seams) := by
  have perm : (seams.map Seam.hole).Perm (holes template) := by
    rw [all]
    exact sortedHoles_perm template
  have put := perm.map fun hole => hole.put (contents hole)
  rw [List.map_map] at put
  exact ⟨_, put, sewn.fill contents⟩

/-- Edits at the holes may be given in any order. -/
theorem applyEdits_eq_of_rewrites [Matching] {contents : Hole → String} {edits : List Edit}
    {result : List Char}
    (rewrites : Rewrites template.toList
      ((holes template).map fun hole => hole.put (contents hole)) result)
    (perm : edits.Perm ((holes template).map fun hole => hole.put (contents hole))) :
    applyEdits template.toList edits = result := by
  obtain ⟨ordered, same, spliced⟩ := rewrites
  have rewrites : Rewrites template.toList edits result :=
    ⟨ordered, same.trans perm.symm, spliced⟩
  refine rewrites.applyEdits_eq (perm.symm.pairwise (List.pairwise_map.mpr ?_) Ne.symm)
  exact distinct_holes template

/-- **Edits that put texts into the holes of a template fill its seams**, in whatever order they
are given. -/
theorem applyEdits_eq_fill [Matching] (all : seams.map Seam.hole = sortedHoles template)
    (sewn : Sewn 0 template.toList seams tail) {contents : Hole → String} {edits : List Edit}
    (perm : edits.Perm ((holes template).map fun hole => hole.put (contents hole))) :
    applyEdits template.toList edits = fill contents tail seams :=
  applyEdits_eq_of_rewrites (rewrites_fill all sewn contents) perm

/-- **Extraction puts placeholders into the holes of the template.** -/
theorem template_of_rewrites [Matching] {h : TypeHierarchy} {c : ComponentType} {x : Extraction}
    {result : List Char} (ok : extract h c template = .ok x)
    (rewrites : Rewrites template.toList
      ((holes template).map fun hole => hole.put hole.content.placeholder) result) :
    x.template.toList = result := by
  rw [(extract_eq_ok_iff.mp ok).2, Walk.extraction, String.toList_ofList]
  exact applyEdits_eq_of_rewrites rewrites (took_walkOver ok).edits

/-- Extraction fills the seams of the template with placeholders. -/
theorem template_of_extract [Matching] {h : TypeHierarchy} {c : ComponentType} {x : Extraction}
    (ok : extract h c template = .ok x) (all : seams.map Seam.hole = sortedHoles template)
    (sewn : Sewn 0 template.toList seams tail) :
    x.template.toList = fill (fun hole => hole.content.placeholder) tail seams :=
  template_of_rewrites ok (rewrites_fill all sewn _)

/-- Extraction leaves something of a template that has any text. -/
theorem template_ne_empty [Matching] {h : TypeHierarchy} {c : ComponentType} {x : Extraction}
    (ok : extract h c template = .ok x) (nonempty : template ≠ "") : x.template ≠ "" := by
  intro empty
  obtain ⟨seams, tail, all, sewn⟩ := exists_sewn template
  have filled := template_of_extract ok all sewn
  rw [empty, String.toList_empty] at filled
  cases seams with
  | nil =>
    have same : template.toList = [] := by
      rw [filled]
      exact (Spliced.refl 0 template.toList).unique (sewn.fill fun _ => "")
    exact nonempty (String.toList_eq_nil_iff.mp same)
  | cons seam rest =>
    -- a border is left on either side of a hole
    have left := (sewn.bordered seam List.mem_cons_self).1.1
    simp [fill, left] at filled

end TemplateCompiler.Extraction
