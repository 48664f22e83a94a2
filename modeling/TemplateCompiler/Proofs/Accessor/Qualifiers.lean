import Mathlib
import TemplateCompiler.Accessor.Recovery
import TemplateCompiler.Proofs.Text.Splice
import TemplateCompiler.Text.Identifier

/-!
# Which qualifiers are dropped

Dropping qualifiers is meant to delete every `this.` that does not end a longer name. The scan looks
at the character in front of a qualifier and takes it along, so the point that ends a qualifier that
has been dropped cannot stand in front of the next one: of qualifiers in a row every other one
stays. It also takes the percent sign for a part of names, and letters outside ASCII for none.

## Main definitions

* `Accessor.isDropped` — whether a qualifier behind a given text is dropped
* `Accessor.deletion` — the edit that drops it
* `Accessor.Drops` — which edits drop a qualifier of a text

## Main statements

* `Accessor.spliced_resume` — the scan drops exactly these qualifiers
* `Accessor.resume_resume_iff` — when a second scan finds nothing more
* `Accessor.stripQualifiers_drops` — what is dropped, when that is what the rule says, and when
  dropping again changes nothing
-/
namespace TemplateCompiler.Accessor

open Text

/-! ## Qualifiers in a text -/

/-- Whether a qualifier behind `front` is dropped: no name ends there, and the qualifier right in
front of it, if there is one, stays. -/
def isDropped (front : List Char) : Bool :=
  front.getLast?.all endsName &&
    match _found : before? qualifier front with
    | some further => !isDropped further
    | none => true
termination_by front.length
decreasing_by
  rw [before?_eq_some_iff.mp _found, List.length_append]
  exact Nat.lt_add_of_pos_right (by decide)

/-- The edit that drops the qualifier behind `front`. -/
def deletion (front : List Char) : Edit :=
  ⟨⟨byteLength front, byteLength front + byteLength qualifier⟩, ""⟩

theorem isDropped_nil : isDropped [] = true := by
  rw [isDropped]
  rfl

/-- **Of qualifiers in a row every other one is dropped.** -/
theorem isDropped_append_qualifier (front : List Char) :
    isDropped (front ++ qualifier) = !isDropped front := by
  have last : (front ++ qualifier).getLast? = some '.' := by simp [qualifier]
  have found : before? qualifier (front ++ qualifier) = some front := before?_eq_some_iff.mpr rfl
  have point : endsName '.' = true := by decide
  rw [isDropped, last, Option.all_some, point, Bool.true_and]
  split
  · next further same =>
    rw [found] at same
    rw [Option.some.inj same]
  · next absent =>
    rw [found] at absent
    cases absent

/-- Behind a character that ends no dropped qualifier, the character decides. -/
theorem isDropped_concat {front : List Char} {c : Char}
    (apart : ∀ further, front ++ [c] = further ++ qualifier → isDropped further = false) :
    isDropped (front ++ [c]) = endsName c := by
  rw [isDropped, List.getLast?_concat, Option.all_some]
  split
  · next further found => simp [apart further (before?_eq_some_iff.mp found)]
  · exact Bool.and_true _

/-- Qualifiers do not overlap. -/
theorem length_le_of_qualifier {rest more behind : List Char}
    (same : qualifier ++ rest = more ++ (qualifier ++ behind)) :
    more = [] ∨ qualifier.length ≤ more.length := by
  rcases more with _ | ⟨a, _ | ⟨b, _ | ⟨c, _ | ⟨d, _ | ⟨e, more⟩⟩⟩⟩⟩ <;> simp_all [qualifier]

/-- A qualifier that is not at the front of a text that begins with one stands behind that. -/
theorem exists_of_qualifier {rest more behind : List Char}
    (same : qualifier ++ rest = more ++ (qualifier ++ behind)) (later : more ≠ []) :
    ∃ further, more = qualifier ++ further ∧ rest = further ++ (qualifier ++ behind) := by
  have long := (length_le_of_qualifier same).resolve_left later
  rcases List.append_eq_append_iff.mp same with ⟨further, hmore, hrest⟩ | ⟨further, hq, hrest⟩
  · exact ⟨further, hmore, hrest⟩
  · have none : further = [] := by
      have length := congrArg List.length hq
      rw [List.length_append] at length
      exact List.length_eq_zero_iff.mp (by omega)
    rw [none, List.append_nil] at hq
    rw [none, List.nil_append] at hrest
    exact ⟨[], by rw [hq, List.append_nil], hrest.symm⟩

/-! ## The scan -/

/-- The scan of what follows a text, behind which a qualifier is dropped or not. -/
def resume (drops : Bool) (cs : List Char) : List Char :=
  match drops, after? qualifier cs with
  | true, some rest => stripFrom false 0 rest
  | _, _ => stripFrom false 0 cs

theorem resume_false (cs : List Char) : resume false cs = stripFrom false 0 cs := rfl

theorem resume_qualifier (rest : List Char) :
    resume true (qualifier ++ rest) = resume false rest := by
  have begins : after? qualifier (qualifier ++ rest) = some rest := after?_eq_some_iff.mpr rfl
  simp [resume, begins]

/-- Nothing is dropped where no qualifier begins. -/
theorem resume_of_none {drops : Bool} {cs : List Char}
    (kept : drops = true → after? qualifier cs = none) : resume drops cs = resume false cs := by
  cases drops with
  | false => rfl
  | true => simp [resume, kept rfl]

theorem stripFrom_start (cs : List Char) : stripFrom true 0 cs = resume true cs := by
  cases begins : after? qualifier cs with
  | some rest =>
    rw [after?_eq_some_iff.mp begins, resume_qualifier]
    rfl
  | none =>
    rw [resume_of_none fun _ => begins, resume_false]
    cases cs with
    | nil => rfl
    | cons c cs => simp [stripFrom, begins]

/-- A character that is kept decides about what follows it. -/
theorem resume_false_cons (c : Char) (cs : List Char) :
    resume false (c :: cs) = c :: resume (endsName c) cs := by
  rw [resume_false, stripFrom, Bool.false_and, if_neg Bool.false_ne_true]
  cases border : endsName c with
  | false => rfl
  | true =>
    cases begins : after? qualifier cs with
    | none => simp [resume, begins]
    | some rest =>
      rw [after?_eq_some_iff.mp begins, resume_qualifier]
      rfl

/-- A qualifier that stays is kept as a whole, and the next one is dropped. -/
theorem resume_false_qualifier (rest : List Char) :
    resume false (qualifier ++ rest) = qualifier ++ resume true rest := by
  simp [qualifier, resume_false_cons, endsName]

theorem length_lt_qualifier (rest : List Char) : rest.length < (qualifier ++ rest).length := by
  rw [List.length_append]
  exact Nat.lt_add_of_pos_left (by decide)

/-- A step of the scan: a qualifier is dropped, a character is kept, or the text is at its end. -/
theorem step_cases (drops : Bool) (cs : List Char) :
    cs = [] ∨ (drops = true ∧ ∃ rest, cs = qualifier ++ rest) ∨
      (drops = true → after? qualifier cs = none) ∧ ∃ c rest, cs = c :: rest := by
  cases cs with
  | nil => exact .inl rfl
  | cons c rest =>
    by_cases dropped : drops = true ∧ after? qualifier (c :: rest) ≠ none
    · obtain ⟨more, begins⟩ := Option.ne_none_iff_exists'.mp dropped.2
      exact .inr (.inl ⟨dropped.1, more, after?_eq_some_iff.mp begins⟩)
    · refine .inr (.inr ⟨fun drop => ?_, c, rest, rfl⟩)
      exact of_not_not fun begins => dropped ⟨drop, begins⟩

/-- Induction along the scan. -/
theorem scan_induction {motive : Bool → List Char → Prop} (nil : ∀ drops, motive drops [])
    (drop : ∀ rest, motive false rest → motive true (qualifier ++ rest))
    (keep : ∀ drops c rest, (drops = true → after? qualifier (c :: rest) = none) →
      motive (endsName c) rest → motive drops (c :: rest)) (drops : Bool) (cs : List Char) :
    motive drops cs := by
  induction size : cs.length using Nat.strong_induction_on generalizing drops cs with
  | _ n ih =>
    subst size
    rcases step_cases drops cs with rfl | ⟨rfl, rest, rfl⟩ | ⟨kept, c, rest, rfl⟩
    · exact nil drops
    · exact drop rest (ih _ (length_lt_qualifier rest) false rest rfl)
    · exact keep drops c rest kept (ih _ (Nat.lt_succ_self _) (endsName c) rest rfl)

/-- The scan adds nothing. -/
theorem length_resume_le (drops : Bool) (cs : List Char) :
    (resume drops cs).length ≤ cs.length := by
  induction drops, cs using scan_induction with
  | nil drops => cases drops <;> exact Nat.le_refl 0
  | drop rest ih =>
    rw [resume_qualifier]
    exact ih.trans (length_lt_qualifier rest).le
  | keep drops c rest kept ih =>
    rw [resume_of_none kept, resume_false_cons, List.length_cons, List.length_cons]
    exact Nat.succ_le_succ ih

/-- What the scan leaves begins with a word of one name only if the text does, because nothing is
dropped inside a name. -/
theorem prefix_of_prefix_resume {word cs : List Char}
    (inside : ∀ c ∈ word.dropLast, endsName c = false) (begins : word <+: resume false cs) :
    word <+: cs := by
  induction word generalizing cs with
  | nil => exact List.nil_prefix
  | cons l word ih =>
    cases cs with
    | nil => exact begins
    | cons c cs =>
      rw [resume_false_cons, List.cons_prefix_cons] at begins
      obtain ⟨rfl, begins⟩ := begins
      refine List.cons_prefix_cons.mpr ⟨rfl, ?_⟩
      cases word with
      | nil => exact List.nil_prefix
      | cons m word =>
        rw [List.dropLast_cons_cons, List.forall_mem_cons] at inside
        rw [inside.1] at begins
        exact ih inside.2 begins

/-- No qualifier comes about at the front of what the scan leaves. -/
theorem after?_resume {cs : List Char} (absent : after? qualifier cs = none) :
    after? qualifier (resume false cs) = none := by
  by_contra begins
  obtain ⟨rest, begins⟩ := Option.ne_none_iff_exists'.mp begins
  have front : qualifier <+: cs := by
    refine prefix_of_prefix_resume (by simp [qualifier, endsName]) ?_
    rw [after?_eq_some_iff.mp begins]
    exact List.prefix_append _ _
  obtain ⟨more, rfl⟩ := front
  rw [after?_eq_some_iff.mpr rfl] at absent
  cases absent

/-! ## What the scan drops -/

/-- No qualifier that is dropped reaches from `front` into `cs`. -/
def Clear (front cs : List Char) : Prop :=
  ∀ further behind, front ++ cs = further ++ (qualifier ++ behind) → isDropped further = true →
    further.length < front.length → further.length + qualifier.length ≤ front.length

theorem clear_nil (cs : List Char) : Clear [] cs :=
  fun _ _ _ _ lt => absurd lt (Nat.not_lt_zero _)

/-- A dropped qualifier is left behind as a whole. -/
theorem Clear.drop {front rest : List Char} (clear : Clear front (qualifier ++ rest)) :
    Clear (front ++ qualifier) rest := by
  intro further behind same dropped lt
  rw [List.append_assoc] at same
  rw [List.length_append] at lt ⊢
  by_cases before : further.length < front.length
  · have := clear further behind same dropped before
    omega
  · rcases List.append_eq_append_iff.mp same with ⟨more, rfl, later⟩ | ⟨more, rfl, -⟩
    · rcases length_le_of_qualifier later with rfl | long
      · simp
      · rw [List.length_append] at lt
        omega
    · have none : more = [] := by
        rw [List.length_append] at before
        exact List.length_eq_zero_iff.mp (by omega)
      rw [none, List.append_nil]

/-- A character that is kept does not belong to a dropped qualifier. -/
theorem Clear.keep {front cs : List Char} {c : Char} (clear : Clear front (c :: cs))
    (kept : isDropped front = true → after? qualifier (c :: cs) = none) :
    Clear (front ++ [c]) cs := by
  intro further behind same dropped lt
  rw [List.append_assoc, List.singleton_append] at same
  rw [List.length_append, List.length_singleton] at lt ⊢
  by_cases before : further.length < front.length
  · have := clear further behind same dropped before
    omega
  · obtain ⟨rfl, here⟩ := List.append_inj same (by omega)
    rw [after?_eq_some_iff.mpr here] at kept
    cases kept dropped

/-- Behind a character that is kept, the character decides. -/
theorem Clear.isDropped_concat {front cs : List Char} {c : Char}
    (clear : Clear front (c :: cs)) : isDropped (front ++ [c]) = endsName c := by
  refine Accessor.isDropped_concat fun further same => ?_
  by_contra dropped
  rw [Bool.not_eq_false] at dropped
  have length := congrArg List.length same
  rw [List.length_append, List.length_append, List.length_singleton] at length
  have five : qualifier.length = 5 := rfl
  have := clear further cs (by rw [← List.append_assoc, ← same]; simp) dropped (by omega)
  omega

/-- The edit drops a qualifier of `cs`, where `front` stands in front of that. -/
def Drops (front cs : List Char) (edit : Edit) : Prop :=
  ∃ more behind, cs = more ++ (qualifier ++ behind) ∧ isDropped (front ++ more) = true ∧
    edit = deletion (front ++ more)

theorem not_drops_nil (front : List Char) (edit : Edit) : ¬ Drops front [] edit := by
  rintro ⟨more, behind, same, -⟩
  simp [qualifier] at same

theorem drops_qualifier_iff {front rest : List Char} (dropped : isDropped front = true)
    {edit : Edit} :
    Drops front (qualifier ++ rest) edit ↔
      edit = deletion front ∨ Drops (front ++ qualifier) rest edit := by
  constructor
  · rintro ⟨more, behind, same, later, rfl⟩
    by_cases here : more = []
    · rw [here, List.append_nil]
      exact .inl rfl
    · obtain ⟨further, rfl, rfl⟩ := exists_of_qualifier same here
      rw [← List.append_assoc] at later ⊢
      exact .inr ⟨further, behind, rfl, later, rfl⟩
  · rintro (rfl | ⟨more, behind, rfl, later, rfl⟩)
    · exact ⟨[], rest, rfl, by rwa [List.append_nil], by rw [List.append_nil]⟩
    · rw [List.append_assoc] at later ⊢
      exact ⟨qualifier ++ more, behind, by rw [List.append_assoc], later, rfl⟩

theorem drops_cons_iff {front rest : List Char} {c : Char}
    (kept : isDropped front = true → after? qualifier (c :: rest) = none) {edit : Edit} :
    Drops front (c :: rest) edit ↔ Drops (front ++ [c]) rest edit := by
  constructor
  · rintro ⟨more, behind, same, later, rfl⟩
    cases more with
    | nil =>
      rw [List.append_nil] at later
      have absent := kept later
      rw [same, List.nil_append, after?_eq_some_iff.mpr rfl] at absent
      cases absent
    | cons d more =>
      obtain ⟨rfl, rfl⟩ := List.cons.inj same
      rw [List.append_cons front c more] at later ⊢
      exact ⟨more, behind, rfl, later, rfl⟩
  · rintro ⟨more, behind, rfl, later, rfl⟩
    rw [List.append_assoc, List.singleton_append] at later ⊢
    exact ⟨c :: more, behind, rfl, later, rfl⟩

/-- **The scan drops the qualifiers that are to be dropped**, all of them and nothing else. -/
theorem spliced_resume {front cs : List Char} (clear : Clear front cs) :
    ∃ edits, Spliced (byteLength front) cs edits (resume (isDropped front) cs) ∧
      ∀ edit, edit ∈ edits ↔ Drops front cs edit := by
  induction size : cs.length using Nat.strong_induction_on generalizing front cs with
  | _ n ih =>
    subst size
    rcases step_cases (isDropped front) cs with rfl | ⟨dropped, rest, rfl⟩ | ⟨kept, c, rest, rfl⟩
    · refine ⟨[], ?_, fun edit => iff_of_false List.not_mem_nil (not_drops_nil front edit)⟩
      cases isDropped front <;> exact .nil _
    · obtain ⟨edits, spliced, mem_iff⟩ := ih _ (length_lt_qualifier rest) clear.drop rfl
      rw [isDropped_append_qualifier, dropped, Bool.not_true, byteLength_append] at spliced
      refine ⟨deletion front :: edits, ?_, fun edit => ?_⟩
      · rw [dropped, resume_qualifier]
        exact .replace qualifier "" spliced
      · rw [List.mem_cons, mem_iff, drops_qualifier_iff dropped]
    · obtain ⟨edits, spliced, mem_iff⟩ := ih _ (Nat.lt_succ_self _) (clear.keep kept) rfl
      rw [clear.isDropped_concat, byteLength_append] at spliced
      refine ⟨edits, ?_, fun edit => ?_⟩
      · rw [resume_of_none kept, resume_false_cons]
        exact .keep c spliced
      · rw [mem_iff, drops_cons_iff kept]

/-! ## Dropping again -/

/-- No qualifier of `cs` that is dropped behind `front` has another one right behind it. -/
def Single (front cs : List Char) : Prop :=
  ∀ more behind, cs = more ++ (qualifier ++ (qualifier ++ behind)) →
    isDropped (front ++ more) = false

theorem single_drop_iff {front rest : List Char} (absent : after? qualifier rest = none) :
    Single front (qualifier ++ rest) ↔ Single (front ++ qualifier) rest := by
  constructor
  · intro single more behind same
    rw [List.append_assoc]
    refine single (qualifier ++ more) behind ?_
    rw [same, List.append_assoc]
  · intro single more behind same
    by_cases here : more = []
    · rw [here, List.nil_append, List.append_cancel_left_eq] at same
      rw [same, after?_eq_some_iff.mpr rfl] at absent
      cases absent
    · obtain ⟨further, rfl, later⟩ := exists_of_qualifier same here
      rw [← List.append_assoc]
      exact single further behind later

theorem single_keep_iff {front rest : List Char} {c : Char}
    (kept : isDropped front = true → after? qualifier (c :: rest) = none) :
    Single front (c :: rest) ↔ Single (front ++ [c]) rest := by
  constructor
  · intro single more behind same
    rw [List.append_assoc]
    refine single (c :: more) behind ?_
    rw [same, List.cons_append]
  · intro single more behind same
    cases more with
    | nil =>
      rw [List.append_nil]
      by_contra dropped
      rw [Bool.not_eq_false] at dropped
      have absent := kept dropped
      rw [same, List.nil_append, after?_eq_some_iff.mpr rfl] at absent
      cases absent
    | cons d more =>
      obtain ⟨rfl, rfl⟩ := List.cons.inj same
      rw [List.append_cons]
      exact single more behind rfl

/-- **A second scan finds nothing more** if and only if no dropped qualifier had another one right
behind it. -/
theorem resume_resume_iff {front cs : List Char} (clear : Clear front cs) :
    resume (isDropped front) (resume (isDropped front) cs) = resume (isDropped front) cs ↔
      Single front cs := by
  induction size : cs.length using Nat.strong_induction_on generalizing front cs with
  | _ n ih =>
    subst size
    rcases step_cases (isDropped front) cs with rfl | ⟨dropped, rest, rfl⟩ | ⟨kept, c, rest, rfl⟩
    · refine iff_of_true (by cases isDropped front <;> rfl) ?_
      intro more behind same
      simp [qualifier] at same
    · rw [dropped, resume_qualifier]
      cases row : after? qualifier rest with
      | some further =>
        obtain rfl := after?_eq_some_iff.mp row
        -- the second one stays and is dropped by the second scan
        rw [resume_false_qualifier, resume_qualifier]
        refine iff_of_false (fun same => ?_) fun single => ?_
        · have le := length_resume_le false (resume true further)
          rw [same] at le
          exact absurd le (length_lt_qualifier _).not_ge
        · have := single [] further rfl
          rw [List.append_nil, dropped] at this
          cases this
      | none =>
        have again := ih _ (length_lt_qualifier rest) clear.drop rfl
        rw [isDropped_append_qualifier, dropped, Bool.not_true] at again
        rw [resume_of_none fun _ => after?_resume row, again, single_drop_iff row]
    · have again := ih _ (Nat.lt_succ_self _) (clear.keep kept) rfl
      rw [clear.isDropped_concat] at again
      have left : resume (isDropped front) (c :: rest) = c :: resume (endsName c) rest := by
        rw [resume_of_none kept, resume_false_cons]
      have absent : isDropped front = true →
          after? qualifier (c :: resume (endsName c) rest) = none := by
        intro drop
        rw [← resume_false_cons]
        exact after?_resume (kept drop)
      rw [left, resume_of_none absent, resume_false_cons, List.cons_inj_right, again,
        single_keep_iff kept]

/-! ## Stripping qualifiers -/

/-- What is dropped is what stands behind no name if and only if the scan knows which characters
names are made of and no qualifier follows one that is dropped. -/
theorem isDropped_iff {cs : List Char} {isName : Char → Bool} (point : isName '.' = false) :
    (∀ front behind, cs = front ++ (qualifier ++ behind) →
        isDropped front = front.getLast?.all fun c => !isName c) ↔
      (∀ front behind, cs = front ++ (qualifier ++ behind) →
        ∀ c ∈ front.getLast?, endsName c = !isName c) ∧ Single [] cs := by
  have decides (single : Single [] cs) (further : List Char) (c : Char) (behind : List Char)
      (here : cs = further ++ [c] ++ (qualifier ++ behind)) :
      isDropped (further ++ [c]) = endsName c := by
    refine isDropped_concat fun before same => single before behind ?_
    rw [here, same, List.append_assoc]
  constructor
  · intro agree
    have single : Single [] cs := by
      intro front behind same
      have second := agree (front ++ qualifier) behind (by rw [same, List.append_assoc])
      have last : (front ++ qualifier).getLast? = some '.' := by simp [qualifier]
      rw [isDropped_append_qualifier, last, Option.all_some, point] at second
      simpa using second
    refine ⟨fun front behind here c last => ?_, single⟩
    obtain ⟨further, rfl⟩ := List.getLast?_eq_some_iff.mp last
    rw [← decides single further c behind here, agree _ behind here, last, Option.all_some]
  · rintro ⟨known, single⟩ front behind here
    rcases List.eq_nil_or_concat' front with rfl | ⟨further, c, rfl⟩
    · exact isDropped_nil
    · rw [decides single further c behind here, List.getLast?_concat, Option.all_some]
      exact known _ behind here c List.getLast?_concat

/-- **Stripping deletes exactly the qualifiers that are dropped.** For any reading of which
characters belong to names, these are the ones behind no name if and only if the scan agrees about
the characters in front of qualifiers and no qualifier follows one that is dropped; and the latter
alone says whether stripping the result again changes nothing. -/
theorem stripQualifiers_drops (expression : String) (isName : Char → Bool)
    (point : isName '.' = false) :
    (∃ edits, Spliced 0 expression.toList edits (stripQualifiers expression).toList ∧
      ∀ edit, edit ∈ edits ↔ ∃ front behind,
        expression.toList = front ++ (qualifier ++ behind) ∧ isDropped front = true ∧
          edit = deletion front) ∧
    ((∀ front behind, expression.toList = front ++ (qualifier ++ behind) →
        isDropped front = front.getLast?.all fun c => !isName c) ↔
      (∀ front behind, expression.toList = front ++ (qualifier ++ behind) →
        ∀ c ∈ front.getLast?, endsName c = !isName c) ∧
      ∀ front behind, expression.toList = front ++ (qualifier ++ (qualifier ++ behind)) →
        isDropped front = false) ∧
    (stripQualifiers (stripQualifiers expression) = stripQualifiers expression ↔
      ∀ front behind, expression.toList = front ++ (qualifier ++ (qualifier ++ behind)) →
        isDropped front = false) := by
  have toList_strip (e : String) :
      (stripQualifiers e).toList = resume (isDropped []) e.toList := by
    rw [stripQualifiers, String.toList_ofList, stripFrom_start, isDropped_nil]
  refine ⟨?_, isDropped_iff point, ?_⟩
  · rw [toList_strip]
    exact spliced_resume (clear_nil _)
  · rw [← String.toList_inj, toList_strip, toList_strip]
    exact resume_resume_iff (clear_nil _)

/-- Qualifiers in front of arguments are dropped and one inside a longer name is not. -/
theorem qualifiers_of_arguments :
    stripQualifiers "this.a + f(this.b, $this.c)" = "a + f(b, $this.c)" ∧
    (∃ edits, Spliced 0 "this.a + f(this.b, $this.c)".toList edits "a + f(b, $this.c)".toList ∧
      ∀ edit, edit ∈ edits ↔ ∃ front behind,
        "this.a + f(this.b, $this.c)".toList = front ++ (qualifier ++ behind) ∧
          isDropped front = true ∧ edit = deletion front) ∧
    ∀ front behind,
      "this.a + f(this.b, $this.c)".toList = front ++ (qualifier ++ (qualifier ++ behind)) →
        isDropped front = false := by
  have stripped : stripQualifiers "this.a + f(this.b, $this.c)" = "a + f(b, $this.c)" := by cbv
  have again : stripQualifiers "a + f(b, $this.c)" = "a + f(b, $this.c)" := by cbv
  obtain ⟨drops, -, settled⟩ := stripQualifiers_drops "this.a + f(this.b, $this.c)"
    (fun c => isIdentifierContinue c || c == '$') (by decide)
  rw [stripped] at drops settled
  exact ⟨stripped, drops, settled.mp again⟩

/-- A qualifier behind a remainder operator stays, of two in a row the second one does, which
stripping again deletes, and one that ends a name with a letter outside ASCII is deleted. -/
theorem remainder_keeps_qualifier :
    stripQualifiers "n%this.size" = "n%this.size" ∧
    stripQualifiers "this.this.a" = "this.a" ∧
    stripQualifiers (stripQualifiers "this.this.a") = "a" ∧
    stripQualifiers "éthis.a" = "éa" := by
  have row : stripQualifiers "this.this.a" = "this.a" := by cbv
  refine ⟨by cbv, row, ?_, by cbv⟩
  rw [row]
  cbv

end TemplateCompiler.Accessor
