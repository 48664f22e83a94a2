import Mathlib.Data.List.Infix
import TemplateCompiler.Proofs.Text.Run

/-!
# Patterns

A pattern reads text from a place on, and there may be several ways to do so. They are put in an
order of preference: of two alternatives the first one is tried first, a greedy repetition tries
many characters before few ones and a lazy one few before many. The match is the first way from the
first place from which there is one.

Which ways there are is said without the order, one lemma for each pattern. The order only matters
where the ways lead to different results; for that there are the lemmas on what is found first.

## Main definitions

* `Text.Progress` — how far the text has been read, and what the groups have taken
* `Text.Pattern`, `Text.Pattern.ways` — patterns, and their ways in the order of preference
* `Text.Pattern.find?` — the match
* `Text.Pattern.Accepts` — which texts a pattern reads, in one way or another

## Main statements

* `Text.Pattern.mem_ways_many`, `Text.Pattern.mem_ways_literal` and others — the ways of a pattern
* `Text.Pattern.findSome?_many` — what is found first behind a greedy repetition
* `Text.Pattern.findSome?_few` — what is found first behind a lazy one
-/
namespace TemplateCompiler.Text

/-- How far text has been read: what has been read, what is left, and what each group has taken,
the last one first. -/
structure Progress where
  front : List Char
  rest : List Char
  groups : List (Nat × List Char)

namespace Progress

/-- Where reading begins. -/
def start (text : List Char) : Progress := ⟨[], text, []⟩

/-- Go on by a run of characters from what is left. -/
def past (s : Progress) (run : List Char) : Progress :=
  ⟨s.front ++ run, s.rest.drop run.length, s.groups⟩

/-- Keep what has been read since `from_` as what a group has taken. -/
def keep (s : Progress) (index : Nat) (from_ : Progress) : Progress :=
  { s with groups := (index, s.front.drop from_.front.length) :: s.groups }

/-- What a group has taken. -/
def group? (s : Progress) (index : Nat) : Option (List Char) := s.groups.lookup index

end Progress

/-- A pattern. Only single characters are repeated. -/
inductive Pattern where
  /-- Nothing. -/
  | nothing
  /-- The beginning of the text. -/
  | beginning
  /-- The end of the text. -/
  | ending
  /-- One character of a class. -/
  | one (p : Char → Bool)
  /-- Characters of a class, as many as possible. -/
  | many (p : Char → Bool)
  /-- Characters of a class, as few as possible. -/
  | few (p : Char → Bool)
  /-- One pattern and then another. -/
  | both (first second : Pattern)
  /-- One pattern or else another. -/
  | either (first second : Pattern)
  /-- A pattern whose text is kept. -/
  | group (index : Nat) (inner : Pattern)

namespace Pattern

/-- Several patterns, one after the other. -/
def sequence (patterns : List Pattern) : Pattern := patterns.foldr both nothing

/-- The given characters. -/
def literal (text : List Char) : Pattern := sequence (text.map fun c => one (· == c))

/-- A pattern, if it can be read. -/
def optional (inner : Pattern) : Pattern := either inner nothing

/-- The ways to read a pattern, in the order of preference. -/
def ways : Pattern → Progress → List Progress
  | nothing, s => [s]
  | beginning, s => if s.front = [] then [s] else []
  | ending, s => if s.rest = [] then [s] else []
  | one p, s =>
    match s.rest with
    | c :: _ => if p c then [s.past [c]] else []
    | [] => []
  | many p, s => (s.rest.takeWhile p).inits.reverse.map s.past
  | few p, s => (s.rest.takeWhile p).inits.map s.past
  | both first second, s => (first.ways s).flatMap second.ways
  | either first second, s => first.ways s ++ second.ways s
  | group index inner, s => (inner.ways s).map fun after => after.keep index s

/-- The match of a pattern in a text: the preferred way from the first place from which there is
one. -/
def find? (pattern : Pattern) (text : List Char) : Option Progress :=
  (List.range (text.length + 1)).findSome? fun n =>
    (pattern.ways ⟨text.take n, text.drop n, []⟩).head?

/-! ## Going on -/

variable {p : Char → Bool} {first second inner : Pattern} {s after : Progress}
variable {run rest : List Char}

@[simp] theorem past_nil (s : Progress) : s.past [] = s := by
  simp [Progress.past]

@[simp] theorem past_past (s : Progress) (run more : List Char) :
    (s.past run).past more = s.past (run ++ more) := by
  simp [Progress.past]

theorem rest_past (split : s.rest = run ++ rest) : (s.past run).rest = rest := by
  simp [Progress.past, split]

theorem rest_past_singleton {c : Char} (split : s.rest = c :: rest) :
    (s.past [c]).rest = rest := by
  simp [Progress.past, split]

/-! ## Which ways there are -/

@[simp] theorem mem_ways_nothing : after ∈ nothing.ways s ↔ after = s := List.mem_singleton

@[simp] theorem mem_ways_ending : after ∈ ending.ways s ↔ s.rest = [] ∧ after = s := by
  rw [ways]
  split <;> simp [*]

@[simp] theorem mem_ways_both :
    after ∈ (both first second).ways s ↔ ∃ between ∈ first.ways s, after ∈ second.ways between :=
  List.mem_flatMap

@[simp] theorem mem_ways_either :
    after ∈ (either first second).ways s ↔ after ∈ first.ways s ∨ after ∈ second.ways s :=
  List.mem_append

@[simp] theorem mem_ways_group {index : Nat} :
    after ∈ (group index inner).ways s ↔ ∃ m ∈ inner.ways s, m.keep index s = after :=
  List.mem_map

theorem mem_ways_one :
    after ∈ (one p).ways s ↔ ∃ c rest, s.rest = c :: rest ∧ p c = true ∧ after = s.past [c] := by
  rw [ways]
  cases s.rest with
  | nil => simp
  | cons c rest =>
    dsimp only
    split <;> simp [*]

/-- The runs of a class at the front of a text. -/
theorem isPrefix_takeWhile_iff {cs : List Char} :
    run <+: cs.takeWhile p ↔ ∃ rest, cs = run ++ rest ∧ run.all p = true := by
  constructor
  · intro h
    obtain ⟨rest, split⟩ := h.trans (List.takeWhile_prefix p)
    exact ⟨rest, split.symm, List.all_eq_true.mpr fun c mem =>
      List.all_eq_true.mp List.all_takeWhile c (h.subset mem)⟩
  · rintro ⟨rest, rfl, inside⟩
    rw [List.takeWhile_append_of_pos (List.all_eq_true.mp inside)]
    exact List.prefix_append _ _

theorem mem_ways_many :
    after ∈ (many p).ways s ↔
      ∃ run rest, s.rest = run ++ rest ∧ run.all p = true ∧ after = s.past run := by
  simp only [ways, List.mem_map, List.mem_reverse, List.mem_inits, isPrefix_takeWhile_iff]
  grind

theorem mem_ways_few :
    after ∈ (few p).ways s ↔
      ∃ run rest, s.rest = run ++ rest ∧ run.all p = true ∧ after = s.past run := by
  simp only [ways, List.mem_map, List.mem_inits, isPrefix_takeWhile_iff]
  grind

theorem mem_ways_sequence_cons {patterns : List Pattern} :
    after ∈ (sequence (first :: patterns)).ways s ↔
      ∃ between ∈ first.ways s, after ∈ (sequence patterns).ways between :=
  mem_ways_both

@[simp] theorem mem_ways_sequence_nil : after ∈ (sequence []).ways s ↔ after = s :=
  mem_ways_nothing

theorem mem_ways_literal {text : List Char} :
    after ∈ (literal text).ways s ↔ ∃ rest, s.rest = text ++ rest ∧ after = s.past text := by
  induction text generalizing s with
  | nil => simp [literal]
  | cons c text ih =>
    rw [literal, List.map_cons, mem_ways_sequence_cons]
    change (∃ between ∈ _, after ∈ (literal text).ways between) ↔ _
    simp only [ih, mem_ways_one, beq_iff_eq]
    constructor
    · rintro ⟨_, ⟨d, rest, split, rfl, rfl⟩, behind, more, rfl⟩
      rw [rest_past_singleton split] at more
      exact ⟨behind, by rw [split, more, List.cons_append], by simp⟩
    · rintro ⟨rest, split, rfl⟩
      exact ⟨_, ⟨c, _, split, rfl, rfl⟩, rest, rest_past_singleton split, by simp⟩

theorem mem_ways_optional :
    after ∈ (optional inner).ways s ↔ after ∈ inner.ways s ∨ after = s := by
  rw [optional, mem_ways_either, mem_ways_nothing]

/-! ## What is accepted -/

/-- The texts that a pattern takes off the front of what is left, in one way or another. -/
def Accepts (pattern : Pattern) (language : List Char → Prop) : Prop :=
  ∀ s rest, (∃ after ∈ pattern.ways s, after.rest = rest) ↔
    ∃ run, s.rest = run ++ rest ∧ language run

namespace Accepts

variable {language language' : List Char → Prop}

theorem many (p : Char → Bool) : (Pattern.many p).Accepts fun run => run.all p = true := by
  intro s rest
  simp only [mem_ways_many]
  constructor
  · rintro ⟨_, ⟨run, rest', split, inside, rfl⟩, rfl⟩
    exact ⟨run, by rw [rest_past split, split], inside⟩
  · rintro ⟨run, split, inside⟩
    exact ⟨_, ⟨run, rest, split, inside, rfl⟩, rest_past split⟩

theorem literal (text : List Char) : (Pattern.literal text).Accepts fun run => run = text := by
  intro s rest
  simp only [mem_ways_literal]
  constructor
  · rintro ⟨_, ⟨rest', split, rfl⟩, rfl⟩
    exact ⟨text, by rw [rest_past split, split], rfl⟩
  · rintro ⟨run, split, rfl⟩
    exact ⟨_, ⟨rest, split, rfl⟩, rest_past split⟩

/-- One pattern and then another accept one text and then another. -/
theorem both (h : first.Accepts language) (h' : second.Accepts language') :
    (Pattern.both first second).Accepts fun run =>
      ∃ front back, run = front ++ back ∧ language front ∧ language' back := by
  intro s rest
  simp only [mem_ways_both]
  constructor
  · rintro ⟨after, ⟨between, mem, mem'⟩, rfl⟩
    obtain ⟨back, split', inside'⟩ := (h' between after.rest).mp ⟨after, mem', rfl⟩
    obtain ⟨front, split, inside⟩ := (h s between.rest).mp ⟨between, mem, rfl⟩
    exact ⟨front ++ back, by rw [split, split', List.append_assoc], front, back, rfl, inside,
      inside'⟩
  · rintro ⟨_, split, front, back, rfl, inside, inside'⟩
    rw [List.append_assoc] at split
    obtain ⟨between, mem, left⟩ := (h s (back ++ rest)).mpr ⟨front, split, inside⟩
    obtain ⟨after, mem', left'⟩ := (h' between rest).mpr ⟨back, left, inside'⟩
    exact ⟨after, ⟨between, mem, mem'⟩, left'⟩

/-- An optional pattern accepts the empty text, too. -/
theorem optional (h : inner.Accepts language) :
    (Pattern.optional inner).Accepts fun run => run = [] ∨ language run := by
  intro s rest
  simp only [mem_ways_optional]
  constructor
  · rintro ⟨after, mem | rfl, rfl⟩
    · obtain ⟨run, split, inside⟩ := (h s after.rest).mp ⟨after, mem, rfl⟩
      exact ⟨run, split, .inr inside⟩
    · exact ⟨[], rfl, .inl rfl⟩
  · rintro ⟨run, split, rfl | inside⟩
    · exact ⟨s, .inr rfl, split⟩
    · obtain ⟨after, mem, left⟩ := (h s rest).mpr ⟨run, split, inside⟩
      exact ⟨after, .inl mem, left⟩

/-- A group accepts what is in it. -/
theorem group (index : Nat) (h : inner.Accepts language) :
    (Pattern.group index inner).Accepts language := by
  intro s rest
  rw [← h s rest]
  simp only [mem_ways_group]
  constructor
  · rintro ⟨_, ⟨m, mem, rfl⟩, left⟩
    exact ⟨m, mem, left⟩
  · rintro ⟨m, mem, left⟩
    exact ⟨_, ⟨m, mem, rfl⟩, left⟩

theorem nothing : Pattern.nothing.Accepts fun run => run = [] := by
  intro s rest
  simp [eq_comm]

end Accepts

/-- Whether a pattern has no group. -/
def groupless : Pattern → Bool
  | both first second | either first second => first.groupless && second.groupless
  | group _ _ => false
  | _ => true

/-- A pattern without a group leaves the groups as they are. -/
theorem groups_of_mem_ways {pattern : Pattern} (h : pattern.groupless = true)
    (mem : after ∈ pattern.ways s) : after.groups = s.groups := by
  induction pattern generalizing s after with
  | nothing => rw [mem_ways_nothing.mp mem]
  | beginning =>
    rw [ways] at mem
    split at mem <;> simp_all
  | ending => rw [(mem_ways_ending.mp mem).2]
  | one p =>
    obtain ⟨c, rest, -, -, rfl⟩ := mem_ways_one.mp mem
    rfl
  | many p | few p =>
    obtain ⟨run, -, rfl⟩ := List.mem_map.mp mem
    rfl
  | both first second ih ih' =>
    rw [groupless, Bool.and_eq_true] at h
    obtain ⟨between, mem, mem'⟩ := mem_ways_both.mp mem
    rw [ih' h.2 mem', ih h.1 mem]
  | either first second ih ih' =>
    rw [groupless, Bool.and_eq_true] at h
    exact (mem_ways_either.mp mem).elim (ih h.1) (ih' h.2)
  | group index inner => cases h

/-! ## What is found first -/

section First

variable {β : Type} {k : Progress → Option β}

theorem findSome?_both :
    ((both first second).ways s).findSome? k =
      (first.ways s).findSome? fun between => (second.ways between).findSome? k := by
  rw [ways]
  induction first.ways s with
  | nil => rfl
  | cons between ways ih =>
    rw [List.flatMap_cons, List.findSome?_append, ih, List.findSome?_cons]
    cases (second.ways between).findSome? k <;> rfl

theorem findSome?_sequence_cons {patterns : List Pattern} :
    ((sequence (first :: patterns)).ways s).findSome? k =
      (first.ways s).findSome? fun between => ((sequence patterns).ways between).findSome? k :=
  findSome?_both

@[simp] theorem findSome?_sequence_nil : ((sequence []).ways s).findSome? k = k s := by
  rw [sequence, List.foldr_nil, ways, List.findSome?_cons]
  cases k s <;> rfl

theorem findSome?_group {index : Nat} :
    ((group index inner).ways s).findSome? k =
      (inner.ways s).findSome? fun after => k (after.keep index s) :=
  List.findSome?_map ..

theorem findSome?_optional :
    ((optional inner).ways s).findSome? k = ((inner.ways s).findSome? k).or (k s) := by
  rw [optional, ways, List.findSome?_append, ways, List.findSome?_cons]
  cases k s <;> rfl

/-- If all ways lead to the same result, it does not matter which one is first. -/
theorem findSome?_of_forall_eq {ways : List Progress} {found : Option β} (nonempty : ways ≠ [])
    (h : ∀ after ∈ ways, k after = found) : ways.findSome? k = found := by
  obtain ⟨after, ways, rfl⟩ := List.exists_cons_of_ne_nil nonempty
  rw [List.findSome?_cons, h after List.mem_cons_self]
  cases found with
  | some found => rfl
  | none =>
    exact List.findSome?_eq_none_iff.mpr fun other mem => h other (List.mem_cons_of_mem _ mem)

theorem findSome?_literal {text : List Char} (split : s.rest = text ++ rest) :
    ((literal text).ways s).findSome? k = k (s.past text) := by
  refine findSome?_of_forall_eq (List.ne_nil_of_mem (mem_ways_literal.mpr ⟨rest, split, rfl⟩)) ?_
  intro after mem
  obtain ⟨-, -, rfl⟩ := mem_ways_literal.mp mem
  rfl

theorem findSome?_one {c : Char} (split : s.rest = c :: rest) (inside : p c = true) :
    ((one p).ways s).findSome? k = k (s.past [c]) := by
  rw [ways, split]
  simp [inside]

/-- What is first is found, if it leads anywhere. -/
theorem head?_bind_eq_findSome? {ways : List Progress}
    (h : ∀ after ∈ ways, (k after).isSome = true) : ways.head?.bind k = ways.findSome? k := by
  cases ways with
  | nil => rfl
  | cons after ways =>
    obtain ⟨found, leads⟩ := Option.isSome_iff_exists.mp (h after List.mem_cons_self)
    rw [List.head?_cons, Option.bind_some, List.findSome?_cons, leads]

/-- The text itself is the longest one of the texts at its front. -/
theorem exists_inits (run : List Char) :
    ∃ shorter, run.inits = shorter ++ [run] ∧ ∀ part ∈ shorter, part <+: run ∧ part ≠ run := by
  induction run with
  | nil => exact ⟨[], rfl, by simp⟩
  | cons c run ih =>
    obtain ⟨shorter, all, parts⟩ := ih
    refine ⟨[] :: shorter.map (c :: ·), by simp [all], ?_⟩
    intro part mem
    rcases List.mem_cons.mp mem with rfl | mem
    · exact ⟨List.nil_prefix, (List.cons_ne_nil c run).symm⟩
    · obtain ⟨part, inShorter, rfl⟩ := List.mem_map.mp mem
      obtain ⟨isPrefix, ne⟩ := parts part inShorter
      exact ⟨List.cons_prefix_cons.mpr ⟨rfl, isPrefix⟩, fun same => ne (List.cons.inj same).2⟩

/-- Behind a greedy repetition the longest run is what is found first, if it leads anywhere
whenever a shorter one does. -/
theorem findSome?_many (split : s.rest = run ++ rest) (inside : run.all p = true)
    (border : rest.head?.any p = false)
    (h : ∀ shorter, shorter <+: run → (k (s.past shorter)).isSome → (k (s.past run)).isSome) :
    ((many p).ways s).findSome? k = k (s.past run) := by
  obtain ⟨shorter, all, parts⟩ := exists_inits run
  rw [ways, split, takeWhile_run inside border, all, List.reverse_concat, List.map_cons,
    List.findSome?_cons]
  cases leads : k (s.past run) with
  | some found => rfl
  | none =>
    refine List.findSome?_eq_none_iff.mpr fun after mem => ?_
    obtain ⟨part, inShorter, rfl⟩ := List.mem_map.mp mem
    by_contra found
    have := h part (parts part (List.mem_reverse.mp inShorter)).1
      (Option.isSome_iff_ne_none.mpr found)
    rw [leads] at this
    cases this

/-- Behind a lazy repetition the first run that leads anywhere is found. -/
theorem findSome?_few {found : β} (split : s.rest = run ++ rest) (inside : run.all p = true)
    (leads : k (s.past run) = some found)
    (h : ∀ shorter, shorter <+: run → shorter ≠ run → k (s.past shorter) = none) :
    ((few p).ways s).findSome? k = some found := by
  obtain ⟨shorter, all, parts⟩ := exists_inits run
  rw [ways, split, List.takeWhile_append_of_pos (List.all_eq_true.mp inside), List.inits_append,
    all, List.map_append, List.map_append, List.findSome?_append, List.findSome?_append]
  have nothing : (shorter.map s.past).findSome? k = none := by
    refine List.findSome?_eq_none_iff.mpr fun after mem => ?_
    obtain ⟨part, inShorter, rfl⟩ := List.mem_map.mp mem
    exact h part (parts part inShorter).1 (parts part inShorter).2
  simp [nothing, leads]

end First

/-- A pattern that begins with the beginning of the text can only be read from there. -/
theorem find?_beginning (patterns : List Pattern) (text : List Char) :
    (sequence (beginning :: patterns)).find? text =
      ((sequence patterns).ways (.start text)).head? := by
  change (both beginning (sequence patterns)).find? text = _
  generalize sequence patterns = second
  have later : (List.range text.length).findSome? (fun n =>
      ((both beginning second).ways ⟨text.take (n + 1), text.drop (n + 1), []⟩).head?) = none := by
    refine List.findSome?_eq_none_iff.mpr fun n mem => ?_
    have front : text.take (n + 1) ≠ [] := by
      have := List.mem_range.mp mem
      rw [← List.length_pos_iff, List.length_take]
      omega
    simp [ways, front]
  have here : ((both beginning second).ways ⟨text.take 0, text.drop 0, []⟩).head? =
      (second.ways (.start text)).head? := by
    simp [ways, Progress.start]
  rw [find?, List.range_succ_eq_map, List.findSome?_cons, List.findSome?_map, here]
  cases (second.ways (.start text)).head? with
  | some found => rfl
  | none => exact later

end Pattern

end TemplateCompiler.Text
