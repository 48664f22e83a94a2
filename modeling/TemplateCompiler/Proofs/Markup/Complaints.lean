import TemplateCompiler.Markup.LoopClause
import TemplateCompiler.Proofs.Markup.Tiling
import TemplateCompiler.Proofs.Text.Trim

/-!
# Complaints point into their clause

The reader of a loop clause keeps its places as ends of the text, and a reader that goes on gets
what the one before has left. So each of them notes places in the text that it got, and leaves an
end of that text. The complaint about a clause is one of the notes, with its place. In bytes it
therefore begins and ends between two characters of the clause.

## Main definitions

* `Markup.Note.place` — where a note points
* `Markup.Attempt.Within` — a reader keeps to a text

## Main statements

* `Markup.within_readClause` — the reader of clauses keeps to the clause
* `Markup.Complaint.covers_diagnostic` — the span of a complaint covers what is at fault
* `Markup.exists_covers_of_read` — the problem with a clause lies in the clause
-/
namespace TemplateCompiler.Markup

open Text

variable {α β : Type} {text rest : List Char}

/-! ## Keeping to a text -/

/-- Where a note points. -/
def Note.place : Note → List Char
  | missing here _ => here
  | refused complaint => complaint.here

/-- The places of the notes lie in the text, and what is left of it is its end. -/
structure Attempt.Within (text : List Char) (attempt : Attempt α) : Prop where
  notes : ∀ note ∈ attempt.notes, note.place <:+ text
  left : ∀ value rest, attempt.outcome = some (value, rest) → rest <:+ text

namespace Attempt.Within

variable {first other : Attempt α}

/-- A reader that keeps to the end of a text keeps to the text. -/
theorem widen (h : first.Within rest) (suffix : rest <:+ text) : first.Within text :=
  ⟨fun note mem => (h.notes note mem).trans suffix,
    fun value left outcome => (h.left value left outcome).trans suffix⟩

theorem done {value : α} {notes : List Note} (suffix : rest <:+ text)
    (places : ∀ note ∈ notes, note.place <:+ text) :
    (Attempt.done value rest notes).Within text := by
  refine ⟨places, fun value' rest' outcome => ?_⟩
  obtain ⟨-, rfl⟩ := Prod.mk.inj (Option.some.inj outcome)
  exact suffix

theorem failed {notes : List Note} (places : ∀ note ∈ notes, note.place <:+ text) :
    (Attempt.failed notes : Attempt α).Within text :=
  ⟨places, fun _ _ outcome => nomatch outcome⟩

/-- Going on with what is left keeps to the text. -/
theorem andThen {next : α → List Char → Attempt β} (h : first.Within text)
    (hnext : ∀ value rest, rest <:+ text → (next value rest).Within text) :
    (first.andThen next).Within text := by
  rw [Attempt.andThen]
  split
  case h_1 value rest outcome =>
    have within := hnext value rest (h.left value rest outcome)
    refine ⟨fun note mem => ?_, within.left⟩
    rcases List.mem_append.mp mem with mem | mem
    · exact h.notes note mem
    · exact within.notes note mem
  case h_2 => exact ⟨h.notes, fun _ _ outcome => nomatch outcome⟩

theorem orElse (h : first.Within text) (hother : other.Within text) :
    (first.orElse other).Within text := by
  rw [Attempt.orElse]
  split
  · exact h
  · refine ⟨fun note mem => ?_, hother.left⟩
    rcases List.mem_append.mp mem with mem | mem
    · exact h.notes note mem
    · exact hother.notes note mem

theorem optional (h : first.Within text) (suffix : rest <:+ text) :
    (first.optional rest).Within text := by
  rw [Attempt.optional]
  split
  case h_1 value left outcome => exact done (h.left value left outcome) h.notes
  case h_2 => exact done suffix h.notes

theorem map (h : first.Within text) (f : α → β) : (first.map f).Within text := by
  refine ⟨h.notes, fun value rest outcome => ?_⟩
  obtain ⟨⟨value', rest'⟩, outcome', same⟩ := Option.map_eq_some_iff.mp outcome
  obtain ⟨-, rfl⟩ := Prod.mk.inj same
  exact h.left value' rest' outcome'

end Attempt.Within

open Attempt.Within

/-! ## Words and marks -/

theorem place_stopNote (here : List Char) (class_ : String) :
    (stopNote here class_).place = here := by
  cases here <;> rfl

theorem within_readWord (cs : List Char) : (readWord cs).Within cs := by
  have stops (here : List Char) (suffix : here <:+ cs) :
      ∀ note ∈ [stopNote here "identifier"], note.place <:+ cs := by
    intro note mem
    rwa [List.mem_singleton.mp mem, place_stopNote]
  cases cs with
  | nil => exact failed (stops [] List.suffix_rfl)
  | cons c cs =>
    rw [readWord]
    split
    · have suffix : cs.dropWhile isIdentifierContinue <:+ c :: cs :=
        (List.dropWhile_suffix _).trans (List.suffix_cons c cs)
      exact done suffix (stops _ suffix)
    · exact failed (stops _ List.suffix_rfl)

/-- A word is refused at its beginning, which is the only reason why a reader looks back. -/
theorem within_refuseWord {cs : List Char} (word : String) (expected : List String)
    (wording : Option String) :
    (Attempt.failed [refuseWord cs word expected wording] : Attempt α).Within cs :=
  failed fun _ mem => List.mem_singleton.mp mem ▸ List.suffix_rfl

theorem within_readName (cs : List Char) : (readName cs).Within cs := by
  refine (within_readWord cs).andThen fun word rest suffix => ?_
  split
  · exact within_refuseWord word _ _
  · exact done suffix (List.forall_mem_nil _)

theorem within_readKeyword (keyword : String) (cs : List Char) :
    (readKeyword keyword cs).Within cs := by
  refine (within_readWord cs).andThen fun word rest suffix => ?_
  split
  · exact done suffix (List.forall_mem_nil _)
  · exact within_refuseWord word _ _

theorem within_readMark (mark : Char) (cs : List Char) : (readMark mark cs).Within cs := by
  have missing : ∀ note ∈ [Note.missing cs ("''" ++ String.singleton mark ++ "''")],
      note.place <:+ cs := by
    intro note mem
    rw [List.mem_singleton.mp mem]
    exact List.suffix_rfl
  cases cs with
  | nil => exact failed missing
  | cons c cs =>
    rw [readMark]
    split
    · exact done (List.suffix_cons c cs) (List.forall_mem_nil _)
    · exact failed missing

theorem within_readPaddedMark (mark : Char) (cs : List Char) :
    (readPaddedMark mark cs).Within cs :=
  ((within_readMark mark _).widen (trimStart_suffix cs)).andThen fun _ rest suffix =>
    done ((trimStart_suffix rest).trans suffix) (List.forall_mem_nil _)

theorem within_readBlanks (cs : List Char) : (readBlanks cs).Within cs := by
  have suffix : cs.dropWhile isBlank <:+ cs := List.dropWhile_suffix _
  refine done suffix fun note mem => ?_
  rwa [List.mem_singleton.mp mem, place_stopNote]

/-! ## Variables -/

section Repeated

variable {separator : List Char → Attempt Unit} {item : List Char → Attempt α}

/-- Whatever the fuel, items after separators keep to the text. -/
theorem within_readMore (hseparator : ∀ cs, (separator cs).Within cs)
    (hitem : ∀ cs, (item cs).Within cs) (fuel : Nat) (cs : List Char) :
    (readMore separator item fuel cs).Within cs := by
  induction fuel generalizing cs with
  | zero => exact done List.suffix_rfl (List.forall_mem_nil _)
  | succ fuel ih =>
    have next : ((separator cs).andThen fun _ rest => item rest).Within cs :=
      (hseparator cs).andThen fun _ rest suffix => (hitem rest).widen suffix
    rw [readMore]
    dsimp only
    split
    case h_1 value rest outcome =>
      -- one more item with what follows it
      have more := ((ih rest).widen (next.left value rest outcome)).map (value :: ·)
      refine ⟨fun note mem => ?_, more.left⟩
      rcases List.mem_append.mp mem with mem | mem
      · exact next.notes note mem
      · exact more.notes note mem
    case h_2 => exact done List.suffix_rfl next.notes

theorem within_readSeparated (hseparator : ∀ cs, (separator cs).Within cs)
    (hitem : ∀ cs, (item cs).Within cs) (cs : List Char) :
    (readSeparated separator item cs).Within cs :=
  (hitem cs).andThen fun value rest suffix =>
    ((within_readMore hseparator hitem _ rest).widen suffix).map (value :: ·)

end Repeated

theorem within_readTypePath (cs : List Char) : (readTypePath cs).Within cs :=
  (within_readSeparated (within_readMark '.') within_readName cs).map _

theorem within_readDeclaredName (cs : List Char) : (readDeclaredName cs).Within cs := by
  refine (within_readBlanks cs).andThen fun blanks rest suffix => ?_
  split
  · exact failed (List.forall_mem_nil _)
  · exact (within_readName rest).widen suffix

theorem within_readVariable (cs : List Char) : (readVariable cs).Within cs :=
  (within_readTypePath cs).andThen fun _ rest suffix =>
    (((within_readDeclaredName rest).widen suffix).optional suffix).map _

theorem within_readVariableList (cs : List Char) : (readVariableList cs).Within cs :=
  (within_readPaddedMark '(' cs).andThen fun _ rest suffix =>
    ((within_readSeparated (within_readPaddedMark ',') within_readVariable rest).widen
      suffix).andThen fun _ rest suffix =>
        ((within_readPaddedMark ')' rest).widen suffix).map _

theorem within_readVariables (cs : List Char) : (readVariables cs).Within cs :=
  (within_readVariableList cs).orElse ((within_readVariable cs).map _)

/-! ## The whole clause -/

theorem within_readCollection (cs : List Char) : (readCollection cs).Within cs := by
  have missing : ∀ note ∈ [Note.missing [] "any"], note.place <:+ cs := by
    intro note mem
    rw [List.mem_singleton.mp mem]
    exact List.nil_suffix
  rw [readCollection]
  split
  · exact failed missing
  · exact done List.nil_suffix missing

/-- **The reader of clauses keeps to the clause.** -/
theorem within_readClause (cs : List Char) : (readClause cs).Within cs := by
  refine ((within_readVariables _).widen (trimStart_suffix cs)).andThen
    fun bindings rest suffix => ?_
  have here := (trimStart_suffix rest).trans suffix
  refine (((within_readKeyword "in" _).orElse (within_readKeyword "of" _)).widen here).andThen
    fun _ rest suffix => ?_
  refine ((within_readBlanks rest).widen suffix).andThen fun _ rest suffix => ?_
  exact ((within_readCollection rest).widen suffix).map _

/-! ## The complaint -/

/-- One more missing thing leaves the complaint at its place or takes it to the new one. -/
theorem Complaint.here_meet (here : List Char) (expected : String) (old : Complaint) :
    (old.meet here expected).here = here ∨ (old.meet here expected).here = old.here := by
  rw [Complaint.meet]
  split
  · exact .inl rfl
  · split <;> exact .inr rfl

/-- What the notes amount to is at the place of one of them. -/
theorem suffix_of_foldl_follow {notes : List Note} (places : ∀ note ∈ notes, note.place <:+ text)
    {current : Option Complaint} (here : ∀ complaint ∈ current, complaint.here <:+ text) :
    ∀ complaint ∈ notes.foldl Note.follow current, complaint.here <:+ text := by
  induction notes generalizing current with
  | nil => exact here
  | cons note notes ih =>
    refine ih (fun other mem => places other (List.mem_cons_of_mem _ mem)) fun complaint next => ?_
    have place := places note List.mem_cons_self
    cases note with
    | refused complaint' =>
      obtain rfl := Option.some.inj next
      exact place
    | missing missingAt expected =>
      cases current with
      | none =>
        obtain rfl := Option.some.inj next
        exact place
      | some old =>
        obtain rfl := Option.some.inj next
        rcases Complaint.here_meet missingAt expected old with same | same
        · rw [same]
          exact place
        · rw [same]
          exact here old rfl

/-- **The span of a complaint covers the characters that are at fault.** -/
theorem Complaint.covers_diagnostic {complaint : Complaint} (suffix : complaint.here <:+ text) :
    Covers 0 text (complaint.diagnostic text).span (complaint.here.take complaint.width) := by
  obtain ⟨before, rfl⟩ := suffix
  refine ⟨before, complaint.here.drop complaint.width, by rw [List.take_append_drop], ?_⟩
  simp [Complaint.diagnostic]

/-- **The problem with a clause lies in the clause**, between two of its characters. -/
theorem exists_covers_of_read {clause : String} {problem : Diagnostic}
    (h : LoopClause.read clause = .error problem) :
    ∃ stretch, Covers 0 clause.toList problem.span stretch := by
  rw [LoopClause.read] at h
  split at h
  · cases h
  · obtain rfl := Except.error.inj h
    refine ⟨_, Complaint.covers_diagnostic ?_⟩
    have nothing : ∀ complaint ∈ (none : Option Complaint), complaint.here <:+ clause.toList := by
      simp
    have within := suffix_of_foldl_follow (within_readClause clause.toList).notes nothing
    cases blamed : blame (readClause clause.toList).notes with
    | none => exact List.suffix_rfl
    | some complaint => exact within complaint blamed

end TemplateCompiler.Markup
