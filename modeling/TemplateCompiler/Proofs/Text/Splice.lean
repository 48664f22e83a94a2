import Mathlib.Data.List.Forall2
import Mathlib.Data.List.Pairwise
import TemplateCompiler.Text.Edit

/-!
# What an edited text is made of

`applyEdits` cuts text at byte offsets and drops what lies between them. Nothing in it says that
the offsets fall between characters, that the spans stay inside the text or that they do not
overlap. `Spliced` says all of it at once: it walks over the text and its result together,
character by character where both agree and edit by edit where they do not.

## Main definitions

* `Text.Spliced` — the result of edits in the order of their spans
* `Text.Rewrites` — the result of edits in any order

## Main statements

* `Text.Spliced.applyEditsFrom_eq` — a splice is what `applyEditsFrom` computes
* `Text.Rewrites.applyEdits_eq` — the same for `applyEdits`, which sorts the edits first
* `Text.Spliced.exists_restore` — putting the old slices back restores the text
-/
namespace TemplateCompiler.Text

/-- `Spliced position text edits result`: the text begins at byte `position`, every edit covers
whole characters of it, the edits come in the order of their spans, and `result` is the text with
exactly those slices replaced. -/
inductive Spliced : Nat → List Char → List Edit → List Char → Prop where
  | nil (position : Nat) : Spliced position [] [] []
  | keep {position : Nat} {text result : List Char} {edits : List Edit} (c : Char) :
    Spliced (position + c.utf8Size) text edits result →
      Spliced position (c :: text) edits (c :: result)
  | replace {position : Nat} {text result : List Char} {edits : List Edit} (old : List Char)
    (new : String) :
    Spliced (position + byteLength old) text edits result →
      Spliced position (old ++ text)
        (⟨⟨position, position + byteLength old⟩, new⟩ :: edits) (new.toList ++ result)

/-- The edits, in the order of their spans, turn the text into the result. -/
def Rewrites (text : List Char) (edits : List Edit) (result : List Char) : Prop :=
  ∃ ordered : List Edit, ordered.Perm edits ∧ Spliced 0 text ordered result

namespace Spliced

variable {position : Nat} {text result : List Char} {edits : List Edit}

/-- Without edits the text stays as it is. -/
theorem refl (position : Nat) (text : List Char) : Spliced position text [] text := by
  induction text generalizing position with
  | nil => exact .nil position
  | cons c cs ih => exact .keep c (ih _)

/-- Splices of two neighbouring texts make one of the whole. -/
theorem append {more moreResult : List Char} {moreEdits : List Edit}
    (h : Spliced position text edits result)
    (h' : Spliced (position + byteLength text) more moreEdits moreResult) :
    Spliced position (text ++ more) (edits ++ moreEdits) (result ++ moreResult) := by
  induction h with
  | nil position => simpa using h'
  | @keep position text result edits c _ ih =>
    refine .keep c (ih ?_)
    rwa [byteLength_cons, ← Nat.add_assoc] at h'
  | @replace position text result edits old new _ ih =>
    rw [List.append_assoc, List.append_assoc, List.cons_append]
    refine .replace old new (ih ?_)
    rwa [byteLength_append, ← Nat.add_assoc] at h'

/-- A slice of text replaced as a whole. -/
theorem single (position : Nat) (old : List Char) (new : String) :
    Spliced position old [⟨⟨position, position + byteLength old⟩, new⟩] new.toList := by
  have h := Spliced.replace old new (.nil (position + byteLength old))
  simpa using h

/-- Every edit lies in the text. -/
theorem bounds (h : Spliced position text edits result) {edit : Edit} (mem : edit ∈ edits) :
    position ≤ edit.span.start ∧ edit.span.start ≤ edit.span.stop ∧
      edit.span.stop ≤ position + byteLength text := by
  induction h with
  | nil => simp at mem
  | keep c _ ih =>
    have := ih mem
    simp only [byteLength_cons]
    omega
  | replace old new _ ih =>
    rw [byteLength_append]
    rcases List.mem_cons.mp mem with rfl | mem
    · exact ⟨Nat.le_refl _, Nat.le_add_right _ _, by dsimp only; omega⟩
    · have := ih mem
      omega

/-- The edits do not overlap. -/
theorem ordered (h : Spliced position text edits result) :
    edits.Pairwise fun a b => a.span.stop ≤ b.span.start := by
  induction h with
  | nil => exact .nil
  | keep c _ ih => exact ih
  | replace old new h ih =>
    refine .cons ?_ ih
    intro edit mem
    exact (h.bounds mem).1

/-- **A splice is what `applyEditsFrom` computes**, so it is determined by its edits. -/
theorem applyEditsFrom_eq (h : Spliced position text edits result) :
    applyEditsFrom position text edits = result := by
  induction h with
  | nil => rfl
  | @keep position text result edits c h ih =>
    cases edits with
    | nil => rw [← ih, applyEditsFrom_nil, applyEditsFrom_nil]
    | cons edit rest =>
      -- the first edit begins behind `c`, so cutting there takes `c` along
      have start := (h.bounds List.mem_cons_self).1
      have stop := (h.bounds List.mem_cons_self).2.1
      have split (n : Nat) (hn : position + c.utf8Size ≤ n) :
          n - position = byteLength [c] + (n - (position + c.utf8Size)) := by
        simp only [byteLength_cons, byteLength_nil]
        omega
      rw [← ih]
      simp only [applyEditsFrom]
      rw [split _ start, split _ (Nat.le_trans start stop)]
      have front : c :: text = [c] ++ text := rfl
      rw [front, takeBytes_byteLength_add, dropBytes_byteLength_add]
      simp only [List.append_assoc, List.cons_append, List.nil_append]
  | @replace position text result edits old new _ ih =>
    simp [applyEditsFrom, ih]

/-- Two splices of a text by the same edits have the same result. -/
theorem unique {other : List Char} (h : Spliced position text edits result)
    (h' : Spliced position text edits other) : result = other := by
  rw [← h.applyEditsFrom_eq, h'.applyEditsFrom_eq]

/-- The same text elsewhere can be turned into the same result. -/
theorem exists_move (h : Spliced position text edits result) (other : Nat) :
    ∃ moved, Spliced other text moved result := by
  induction h generalizing other with
  | nil => exact ⟨[], .nil other⟩
  | keep c _ ih =>
    obtain ⟨moved, behind⟩ := ih (other + c.utf8Size)
    exact ⟨moved, .keep c behind⟩
  | replace old new _ ih =>
    obtain ⟨moved, behind⟩ := ih (other + byteLength old)
    exact ⟨_, .replace old new behind⟩

end Spliced

/-! ## Putting the old slices back -/

/-- The text of a span in text that begins at byte `position`. -/
def sliceFrom (position : Nat) (text : List Char) (span : Span) : List Char :=
  takeBytes (span.stop - span.start) (dropBytes (span.start - position) text)

/-- A slice behind the front of the text. -/
theorem sliceFrom_append (position : Nat) (front text : List Char) (span : Span)
    (h : position + byteLength front ≤ span.start) :
    sliceFrom position (front ++ text) span =
      sliceFrom (position + byteLength front) text span := by
  have split : span.start - position =
      byteLength front + (span.start - (position + byteLength front)) := by omega
  rw [sliceFrom, split, dropBytes_byteLength_add, sliceFrom]

/-- The slice at the front of the text. -/
theorem sliceFrom_front (position : Nat) (front text : List Char) :
    sliceFrom position (front ++ text) ⟨position, position + byteLength front⟩ = front := by
  simp [sliceFrom]

/-- One edit takes back what another one does: it finds the new text and puts the old slice in its
place. The texts that the edits apply to begin at bytes `position` and `newPosition`. -/
structure Restores (position newPosition : Nat) (text result : List Char) (edit back : Edit) :
    Prop where
  start : position ≤ edit.span.start
  newStart : newPosition ≤ back.span.start
  old : back.replacement.toList = sliceFrom position text edit.span
  new : sliceFrom newPosition result back.span = edit.replacement.toList

/-- An edit that takes back another one does so behind further text, too. -/
theorem Restores.behind {position newPosition : Nat} {text result : List Char} {edit back : Edit}
    (front newFront : List Char)
    (h : Restores (position + byteLength front) (newPosition + byteLength newFront) text result
      edit back) :
    Restores position newPosition (front ++ text) (newFront ++ result) edit back where
  start := by have := h.start; omega
  newStart := by have := h.newStart; omega
  old := by rw [sliceFrom_append _ _ _ _ h.start, h.old]
  new := by rw [sliceFrom_append _ _ _ _ h.newStart, h.new]

/-- **Putting each old slice back in place of its replacement restores the text.** -/
theorem Spliced.exists_restore {position : Nat} {text result : List Char} {edits : List Edit}
    (h : Spliced position text edits result) (newPosition : Nat) :
    ∃ backs, Spliced newPosition result backs text ∧
      List.Forall₂ (Restores position newPosition text result) edits backs := by
  induction h generalizing newPosition with
  | nil => exact ⟨[], .nil _, .nil⟩
  | @keep position text result edits c h ih =>
    obtain ⟨backs, back, restores⟩ := ih (newPosition + c.utf8Size)
    refine ⟨backs, .keep c back, restores.imp ?_⟩
    intro edit undo hundo
    exact Restores.behind [c] [c] (by simpa using hundo)
  | @replace position text result edits old new h ih =>
    obtain ⟨backs, back, restores⟩ := ih (newPosition + byteLength new.toList)
    have here := Spliced.replace new.toList (String.ofList old) back
    rw [String.toList_ofList] at here
    refine ⟨_, here, .cons ?_ (restores.imp ?_)⟩
    · exact ⟨Nat.le_refl _, Nat.le_refl _, by rw [sliceFrom_front, String.toList_ofList],
        sliceFrom_front _ _ _⟩
    · intro edit undo hundo
      exact hundo.behind old new.toList

/-! ## Edits in any order -/

/-- Sorting by a number makes a sorted list. -/
theorem sorted_mergeSort {α : Type} (start : α → Nat) (xs : List α) :
    (xs.mergeSort fun a b => start a ≤ start b).Pairwise fun a b => start a ≤ start b := by
  have sorted := @List.pairwise_mergeSort α (fun a b => decide (start a ≤ start b)) ?_ ?_ xs
  · simpa only [decide_eq_true_eq] using sorted
  · intro a b c hab hbc
    simp only [decide_eq_true_eq] at *
    omega
  · intro a b
    simp only [Bool.or_eq_true, decide_eq_true_eq]
    omega

/-- What is sorted by a number that no two entries share is determined by its entries. -/
theorem eq_of_sorted {α : Type} (start : α → Nat) {xs ys : List α} (perm : xs.Perm ys)
    (sorted : xs.Pairwise fun a b => start a ≤ start b)
    (strict : ys.Pairwise fun a b => start a < start b) : xs = ys := by
  refine List.Perm.eq_of_pairwise ?_ sorted (strict.imp Nat.le_of_lt) perm
  intro a b ha hb hab hba
  by_contra hne
  have symm : Std.Symm fun a b : α => start a ≠ start b := ⟨fun _ _ => Ne.symm⟩
  have distinct : ys.Pairwise fun a b => start a ≠ start b := strict.imp fun h => Nat.ne_of_lt h
  have := distinct.forall (perm.subset ha) hb hne
  omega

/-- **Edits given in any order do what they do in order**, if they begin at distinct bytes. -/
theorem Rewrites.applyEdits_eq {text result : List Char} {edits : List Edit}
    (h : Rewrites text edits result)
    (distinct : edits.Pairwise fun a b => a.span.start ≠ b.span.start) :
    applyEdits text edits = result := by
  obtain ⟨ordered, perm, spliced⟩ := h
  have distinct : ordered.Pairwise fun a b => a.span.start ≠ b.span.start :=
    perm.symm.pairwise distinct Ne.symm
  have strict : ordered.Pairwise fun a b => a.span.start < b.span.start := by
    refine (spliced.ordered.and distinct).imp_of_mem ?_
    rintro a b ha - ⟨apart, ne⟩
    have := (spliced.bounds ha).2.1
    omega
  have sorted : inOrder edits = ordered :=
    eq_of_sorted (fun edit => edit.span.start) ((List.mergeSort_perm edits _).trans perm.symm)
      (sorted_mergeSort (fun edit => edit.span.start) edits) strict
  rw [applyEdits, sorted, spliced.applyEditsFrom_eq]

end TemplateCompiler.Text
