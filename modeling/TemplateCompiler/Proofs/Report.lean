import TemplateCompiler.Proofs.Markup.Tiling
import TemplateCompiler.Report

/-!
# Reports mark what is at fault

The span of a problem counts bytes of the template, and a report counts characters. If the span
covers a stretch of the template, both say the same: the span cuts the template at the borders of
characters, and the characters that the report marks are those that the bytes of the span encode.

## Main definitions

* `Report.Layout.marked` — the characters that a report marks
* `Report.PointsInto` — a problem points into the template

## Main statements

* `Markup.Covers.exists_strings` — the template around a stretch
* `Report.exists_layout` — every problem with a template can be shown in it
* `Report.pointsInto_of_covers` — problems whose span covers a stretch point into the template
-/
namespace TemplateCompiler

open Text Markup

/-! ## Stretches in bytes -/

/-- The bytes of text are those of its UTF-8 form. -/
theorem Text.utf8ByteSize_ofList (cs : List Char) :
    (String.ofList cs).utf8ByteSize = byteLength cs := by
  rw [← String.size_toByteArray, String.toByteArray_ofList]
  induction cs with
  | nil => rfl
  | cons c cs ih =>
    rw [List.utf8Encode_cons, ByteArray.size_append, ih, List.utf8Encode_singleton,
      byteLength_cons]
    simp

namespace Markup.Covers

variable {template : String} {span : Span} {stretch : List Char}

/-- The template around a stretch. -/
theorem exists_strings (h : Covers 0 template.toList span stretch) :
    ∃ before behind : String, template = before ++ (String.ofList stretch ++ behind) ∧
      span = ⟨before.utf8ByteSize,
        before.utf8ByteSize + (String.ofList stretch).utf8ByteSize⟩ := by
  obtain ⟨before, behind, whole, rfl⟩ := h
  refine ⟨String.ofList before, String.ofList behind, ?_, ?_⟩
  · rw [← String.ofList_append, ← String.ofList_append, ← whole, String.ofList_toList]
  · rw [utf8ByteSize_ofList, utf8ByteSize_ofList, Nat.zero_add]

/-- The bytes of the span encode the characters that it covers. -/
theorem extract_toByteArray (h : Covers 0 template.toList span stretch) :
    template.toByteArray.extract span.start span.stop = stretch.utf8Encode := by
  obtain ⟨before, behind, rfl, rfl⟩ := h.exists_strings
  simp only [String.toByteArray_append, ← String.size_toByteArray]
  have behindFront := ByteArray.extract_append_size_add (a := before.toByteArray)
    (b := (String.ofList stretch).toByteArray ++ behind.toByteArray) (i := 0)
    (j := (String.ofList stretch).toByteArray.size)
  rw [Nat.add_zero] at behindFront
  rw [behindFront, ByteArray.extract_append_eq_left rfl, String.toByteArray_ofList]

/-- The span ends in the template. -/
theorem stop_le_utf8ByteSize (h : Covers 0 template.toList span stretch) :
    span.stop ≤ template.utf8ByteSize := by
  obtain ⟨before, behind, rfl, rfl⟩ := h.exists_strings
  simp only [String.utf8ByteSize_append]
  omega

/-- The span begins between two characters. -/
theorem isValid_start (h : Covers 0 template.toList span stretch) :
    String.Pos.Raw.IsValid template ⟨span.start⟩ := by
  obtain ⟨before, behind, rfl, rfl⟩ := h.exists_strings
  exact String.Pos.Raw.isValid_iff_exists_append.mpr ⟨before, _, rfl, rfl⟩

/-- The span ends between two characters. -/
theorem isValid_stop (h : Covers 0 template.toList span stretch) :
    String.Pos.Raw.IsValid template ⟨span.stop⟩ := by
  obtain ⟨before, behind, rfl, rfl⟩ := h.exists_strings
  refine String.Pos.Raw.isValid_iff_exists_append.mpr
    ⟨before ++ String.ofList stretch, behind, String.append_assoc.symm, ?_⟩
  ext
  exact (String.utf8ByteSize_append).symm

end Markup.Covers

namespace Report

/-! ## Lines -/

/-- The first line of a source begins where the source does. -/
theorem exists_splitLinesFrom (offset : Nat) {reversed cs : List Char}
    (nonempty : reversed ≠ [] ∨ cs ≠ []) :
    ∃ line rest, splitLinesFrom offset reversed cs = line :: rest ∧ line.offset = offset := by
  induction cs generalizing reversed with
  | nil =>
    have line : reversed.isEmpty = false := by simpa using nonempty
    exact ⟨_, _, by rw [splitLinesFrom, line]; rfl, rfl⟩
  | cons c cs ih =>
    rw [splitLinesFrom]
    split
    · exact ⟨_, _, rfl, rfl⟩
    · exact ih (.inl (List.cons_ne_nil c reversed))

/-- Every character has a line, if there is a first one. -/
theorem exists_lineAt {line : Line} (first : line.offset = 0) (rest : List Line) (char : Nat) :
    ∃ numbered, lineAt? (line :: rest) char = some numbered := by
  rw [← Option.isSome_iff_exists, lineAt?, List.find?_isSome]
  refine ⟨(0, line), ?_, by simp [first]⟩
  rw [List.zipIdx_cons, List.map_cons, List.mem_reverse]
  exact List.mem_cons_self

/-! ## What a report marks -/

/-- The characters of the source that a report marks. -/
def Layout.marked (l : Layout) (source : List Char) : List Char :=
  (source.drop l.start).take (l.stop - l.start)

/-- **Every problem with a template can be shown in it.** The marked characters begin and end with
those at which its bytes do. -/
theorem exists_layout {source : List Char} (nonempty : source ≠ []) (d : Diagnostic) :
    ∃ l, layout? source d = some l ∧ l.start = (takeBytes d.span.start source).length ∧
      l.stop = (takeBytes d.span.stop source).length := by
  obtain ⟨line, rest, lines, first⟩ := exists_splitLinesFrom 0 (.inr nonempty : [] ≠ [] ∨ _)
  obtain ⟨start, hstart⟩ := exists_lineAt first rest (takeBytes d.span.start source).length
  obtain ⟨stop, hstop⟩ := exists_lineAt first rest
    (max ((takeBytes d.span.stop source).length - 1) (takeBytes d.span.start source).length)
  rw [layout?, splitLines, lines, hstart, hstop]
  exact ⟨_, rfl, rfl, rfl⟩

/-- The characters that a report marks are those that the span covers. -/
theorem marked_of_covers {source stretch : List Char} {d : Diagnostic} {l : Layout}
    (h : Covers 0 source d.span stretch)
    (start : l.start = (takeBytes d.span.start source).length)
    (stop : l.stop = (takeBytes d.span.stop source).length) :
    l.start ≤ l.stop ∧ l.stop ≤ source.length ∧ l.marked source = stretch := by
  obtain ⟨before, behind, rfl, span⟩ := h
  rw [span, Nat.zero_add] at start stop
  rw [takeBytes_byteLength] at start
  rw [← byteLength_append, ← List.append_assoc, takeBytes_byteLength] at stop
  refine ⟨by simp [start, stop], by simp [stop], ?_⟩
  rw [Layout.marked, start, stop, List.drop_left, List.length_append, Nat.add_sub_cancel_left,
    List.take_left]

/-- A problem points into the template: its span begins and ends between characters, and the
report marks the characters whose bytes are in the span. -/
structure PointsInto (template : String) (d : Diagnostic) : Prop where
  ordered : d.span.start ≤ d.span.stop
  inside : d.span.stop ≤ template.utf8ByteSize
  isValid_start : String.Pos.Raw.IsValid template ⟨d.span.start⟩
  isValid_stop : String.Pos.Raw.IsValid template ⟨d.span.stop⟩
  marked : ∃ l, layout? template.toList d = some l ∧ l.start ≤ l.stop ∧
    l.stop ≤ template.toList.length ∧ (l.marked template.toList).utf8Encode =
      template.toByteArray.extract d.span.start d.span.stop

/-- **A problem whose span covers a stretch of the template points into it.** -/
theorem pointsInto_of_covers {template : String} (nonempty : template.toList ≠ [])
    {d : Diagnostic} {stretch : List Char} (h : Covers 0 template.toList d.span stretch) :
    PointsInto template d := by
  obtain ⟨l, layout, start, stop⟩ := exists_layout nonempty d
  obtain ⟨ordered, inside, marked⟩ := marked_of_covers h start stop
  refine ⟨?_, h.stop_le_utf8ByteSize, h.isValid_start, h.isValid_stop,
    l, layout, ordered, inside, ?_⟩
  · rw [h.le.2.1]
    exact Nat.le_add_right _ _
  · rw [marked, h.extract_toByteArray]

end Report

end TemplateCompiler
