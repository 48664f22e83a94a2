import Mathlib
import TemplateCompiler.Proofs.Registry.Advance

/-!
# Lookups from beginning to end

`Registry.get` bounds the nesting of lookups by a number of levels. Here it is shown that the bound
is never met: the recursion without a bound comes to the same end. In a registry at rest that end
is known in full. The lookup succeeds if and only if all types that it comes to are registered,
circles or not, and then all of them are ensured.

## Main definitions

* `Registry.Answers` — the recursion of a lookup, without a bound on its levels
* `Registry.Resolves` — what an answer means for the registry
* `Registry.Settled` — what a lookup in a registry at rest answers and leaves behind

## Main statements

* `Registry.Answers.unique` — a lookup has one outcome at most
* `Registry.getWith_spec` — enough levels give an answer, and what it means
* `Registry.get_settled` — lookups in a registry at rest
-/
namespace TemplateCompiler.Registry

/-! ## The recursion without a bound -/

/-- What a lookup gives: an answer and the registry afterwards. -/
abbrev Outcome (α : Type) := Except RegistryError α × Registry

/-- Lookups one after the other, up to the first that fails. -/
inductive AnswersEach (answers : Registry → String → Outcome ComponentDefinition → Prop) :
    Registry → List String → Outcome Unit → Prop
  | nil (r : Registry) : AnswersEach answers r [] (.ok (), r)
  | next {r mid : Registry} {name : String} {rest : List String} {d : ComponentDefinition}
      {outcome : Outcome Unit} (first : answers r name (.ok d, mid))
      (others : AnswersEach answers mid rest outcome) :
      AnswersEach answers r (name :: rest) outcome
  | stop {r after : Registry} {name : String} {rest : List String} {e : RegistryError}
      (first : answers r name (.error e, after)) :
      AnswersEach answers r (name :: rest) (.error e, after)

/-- A lookup by the thread `me` comes to an end, with this outcome. No rule lets it wait. -/
inductive Answers (me : ThreadId) : Registry → String → Outcome ComponentDefinition → Prop
  | missing {r after : Registry} {name : String} (found : r.inspect me name = (.missing, after)) :
      Answers me r name (.error (.notRegistered name), after)
  | ready {r after : Registry} {name : String} {d : ComponentDefinition}
      (found : r.inspect me name = (.ready d, after)) : Answers me r name (.ok d, after)
  | resolved {r claimed after : Registry} {name : String} {d : ComponentDefinition}
      (found : r.inspect me name = (.started d, claimed))
      (nested : AnswersEach (Answers me) claimed d.dependencies (.ok (), after)) :
      Answers me r name (.ok d, (after.runHook d.typeName).finish name true)
  | failed {r claimed after : Registry} {name : String} {d : ComponentDefinition}
      {e : RegistryError} (found : r.inspect me name = (.started d, claimed))
      (nested : AnswersEach (Answers me) claimed d.dependencies (.error e, after)) :
      Answers me r name (.error e, after.finish name false)

/-- **A lookup has one outcome at most.** -/
theorem Answers.unique {me : ThreadId} {r : Registry} {name : String}
    {a b : Outcome ComponentDefinition} (ha : Answers me r name a) (hb : Answers me r name b) :
    a = b := by
  -- induction on the tree of nested lookups, together with the lists of lookups in it
  refine @Answers.rec me (fun r name a _ => ∀ b, Answers me r name b → a = b)
    (fun r names a _ => ∀ b, AnswersEach (Answers me) r names b → a = b)
    ?missing ?ready ?resolved ?failed ?nil ?next ?stop r name a ha b hb
  case missing =>
    intro r after name found b hb
    cases hb <;> grind
  case ready =>
    intro r after name d found b hb
    cases hb <;> grind
  case resolved =>
    intro r claimed after name d found nested ih b hb
    cases hb <;> grind
  case failed =>
    intro r claimed after name d e found nested ih b hb
    cases hb <;> grind
  case nil =>
    intro r b hb
    cases hb
    rfl
  case next =>
    intro r mid name rest d outcome first others ihFirst ihOthers b hb
    cases hb <;> grind
  case stop =>
    intro r after name rest e first ih b hb
    cases hb <;> grind

/-! ## What answers mean -/

/-- What a lookup by name means for the registry that it begins in. -/
def Resolves (r : Registry) (name : String) : Outcome ComponentDefinition → Prop
  | (.ok d, after) => r.definition? name = some d ∧ ∃ fresh, Completed r [name] after fresh
  | (.error e, after) =>
    ∃ missing fresh, e = .notRegistered missing ∧ Failed r [name] missing after fresh ∧
      name ∉ fresh

/-- The same for lookups one after the other. -/
def ResolvesEach (r : Registry) (names : List String) : Outcome Unit → Prop
  | (.ok (), after) => ∃ fresh, Completed r names after fresh
  | (.error e, after) =>
    ∃ missing fresh, e = .notRegistered missing ∧ Failed r names missing after fresh

/-! ## Every lookup has an answer -/

/-- Lookups one after the other, where each has an answer. -/
theorem getEach_spec {me : ThreadId} {bound : Nat}
    {get : Registry → String → Outcome ComponentDefinition}
    (spec : ∀ r name, Ready r me [name] → r.unstarted.card < bound →
      Answers me r name (get r name) ∧ Resolves r name (get r name))
    (r : Registry) (names : List String) (ready : Ready r me names)
    (enough : r.unstarted.card < bound) :
    AnswersEach (Answers me) r names (getEach get r names) ∧
      ResolvesEach r names (getEach get r names) := by
  induction names generalizing r with
  | nil => exact ⟨.nil r, [], .nil r⟩
  | cons name rest ih =>
    obtain ⟨answers, resolves⟩ := spec r name (ready.mono (by simp)) enough
    unfold getEach
    split
    · next d mid found =>
      rw [found] at answers resolves
      obtain ⟨-, fresh, completed⟩ := resolves
      have left : mid.unstarted.card < bound :=
        (Finset.card_le_card (unstarted_subset completed.toAdvance)).trans_lt enough
      have next := (ready.mono (List.subset_cons_self name rest)).advance completed.toAdvance
      obtain ⟨others, resolvesOthers⟩ := ih mid next left
      refine ⟨.next answers others, ?_⟩
      cases outcome : getEach get mid rest with
      | mk answer after =>
        rw [outcome] at resolvesOthers
        cases answer with
        | ok =>
          obtain ⟨later, rest⟩ := resolvesOthers
          exact ⟨_, completed.cons rest⟩
        | error e =>
          obtain ⟨missing, later, cause, rest⟩ := resolvesOthers
          exact ⟨missing, _, cause, completed.cons_failed rest⟩
    · next e after found =>
      rw [found] at answers resolves
      obtain ⟨missing, fresh, cause, failed, -⟩ := resolves
      exact ⟨.stop answers, missing, fresh, cause, failed.cons rest⟩

/-- **Enough levels give an answer.** Each level takes a type up that no other has taken up, so it
is enough to have more levels than there are such types. -/
theorem getWith_spec {me : ThreadId} (fuel : Nat) (r : Registry) (name : String)
    (ready : Ready r me [name]) (enough : r.unstarted.card < fuel) :
    Answers me r name (getWith me fuel r name) ∧ Resolves r name (getWith me fuel r name) := by
  induction fuel generalizing r name with
  | zero => exact absurd enough (Nat.not_lt_zero _)
  | succ fuel ih =>
    unfold getWith
    have inspects := r.inspects me name
    generalize found : r.inspect me name = inspected at inspects
    cases inspects with
    | missing absent =>
      exact ⟨.missing found, name, [], rfl, failed_of_absent absent, by simp⟩
    | ready d known stage =>
      refine ⟨.ready found, known, [], completed_of_visited (visited_iff.mpr ?_)⟩
      exact stage.imp isEnsured_iff.mpr fun own => ⟨me, own⟩
    | started d known stage free =>
      have left : (r.claim me name).unstarted.card < fuel :=
        (card_unstarted_claim stage).trans_le (Nat.lt_succ_iff.mp enough)
      have nested := getEach_spec ih (r.claim me name) d.dependencies (ready.claim known) left
      dsimp only
      split
      · next after eq =>
        rw [eq] at nested
        obtain ⟨answers, fresh, completed⟩ := nested
        have resolved := Answers.resolved found answers
        rw [typeName_of_definition? known] at resolved ⊢
        exact ⟨resolved, known, _, completed.finish ready known stage⟩
      · next e after eq =>
        rw [eq] at nested
        obtain ⟨answers, missing, fresh, cause, failed⟩ := nested
        exact ⟨.failed found answers, missing, fresh, cause, failed.finish ready known stage,
          not_mem_of_claim stage failed.toAdvance⟩
    | wait busy =>
      rcases busy with ⟨thread, other, stage⟩ | ⟨-, owned⟩
      · exact absurd (ready.path name thread stage).1 other
      · exact absurd owned ready.not_ownedByOther

/-! ## A registry at rest -/

section AtRest

variable {r after : Registry} {name missing : String} {fresh : List String}

theorem AtRest.ready (rest : r.AtRest) (me : ThreadId) (names : List String) :
    Ready r me names where
  path n thread stage := absurd stage (rest.2 n thread)
  owner o owned := by simp [rest.1] at owned

/-- A lookup in a registry at rest has an answer. -/
theorem get_spec (rest : r.AtRest) (name : String) :
    Answers mainThread r name (r.get name) ∧ Resolves r name (r.get name) :=
  getWith_spec _ r name (rest.ready mainThread [name]) (Nat.lt_succ_of_le r.card_unstarted_le)

/-- Lookups leave a registry at rest. -/
theorem AtRest.advance (rest : r.AtRest) {names : List String}
    (adv : Advance r names after fresh) : after.AtRest := by
  refine ⟨adv.owner.trans rest.1, ?_⟩
  intro n thread
  rw [adv.stages]
  split
  · simp
  · exact rest.2 n thread

theorem AtRest.isEnsured_of_visited (rest : r.AtRest) {n : String} (visited : r.Visited n) :
    r.isEnsured n := by
  rcases visited_iff.mp visited with ensured | ⟨thread, stage⟩
  · exact ensured
  · exact absurd stage (rest.2 n thread)

/-- **A lookup that was completed has ensured all that it needed.** -/
theorem Completed.isEnsured_of_needs (rest : r.AtRest) (h : Completed r [name] after fresh)
    {n : String} (needs : r.Needs name n) : after.isEnsured n := by
  have still := rest.advance h.toAdvance
  induction needs with
  | refl => exact still.isEnsured_of_visited (h.visited name List.mem_cons_self)
  | tail _ opens ih =>
    rcases h.isEnsured_iff.mp ih with old | new
    · exact absurd old opens.2
    · exact still.isEnsured_of_visited (h.closed _ new _ opens.1)

theorem Advance.needs_of_mem (h : Advance r [name] after fresh) {n : String} (mem : n ∈ fresh) :
    r.Needs name n := by
  obtain ⟨x, own, needs⟩ := h.needed n mem
  exact List.mem_singleton.mp own ▸ needs

theorem Failed.needs_missing (h : Failed r [name] missing after fresh) :
    r.Needs name missing := by
  obtain ⟨x, own, needs⟩ := h.cause
  exact List.mem_singleton.mp own ▸ needs

/-- All types that a lookup of `name` comes to are registered. -/
def Complete (r : Registry) (name : String) : Prop := ∀ n, r.Needs name n → r.contains n

theorem Completed.complete (rest : r.AtRest) (h : Completed r [name] after fresh) :
    r.Complete name := by
  intro n needs
  have now := isEnsured_iff.mp (h.isEnsured_of_needs rest needs)
  rw [contains_iff, ne_eq, stage?_eq_none_iff, ← h.definitions, ← stage?_eq_none_iff, now]
  simp

theorem Failed.not_complete (h : Failed r [name] missing after fresh) : ¬ r.Complete name :=
  fun complete => contains_iff.mp (complete missing h.needs_missing) h.absent

end AtRest

/-- What a lookup of `name` in a registry at rest answers and leaves behind. -/
structure Settled (r : Registry) (name : String) (answer : Except RegistryError ComponentDefinition)
    (after : Registry) : Prop where
  /-- The lookup comes to an end, and to no other. -/
  terminates : ∀ outcome, Answers mainThread r name outcome ↔ outcome = (answer, after)
  /-- Nothing is missing: the answer is the type's own definition, and all that the lookup comes to
  is ensured. -/
  complete : r.Complete name →
    (∃ d, r.definition? name = some d ∧ answer = .ok d) ∧
      ∀ n, after.isEnsured n ↔ r.isEnsured n ∨ r.Needs name n
  /-- Something is missing: the answer names a type that is. -/
  incomplete : ¬ r.Complete name →
    (∃ missing, answer = .error (.notRegistered missing) ∧ r.Needs name missing ∧
      ¬ r.contains missing) ∧
    ¬ after.isEnsured name ∧ ∀ n, after.isEnsured n → r.isEnsured n ∨ r.Needs name n
  kept : ∀ n, r.isEnsured n → after.isEnsured n
  /-- The hook has run once for each type that was ensured, and for no other. -/
  hook : ∃ fresh, after.log = r.log ++ fresh ∧ fresh.Nodup ∧
    ∀ n, n ∈ fresh ↔ after.isEnsured n ∧ ¬ r.isEnsured n
  atRest : after.AtRest
  definitions : ∀ n, after.definition? n = r.definition? n
  directives : after.directives = r.directives

/-- The hook runs for the types that a stretch of lookups ensures. -/
theorem Advance.mem_iff {r after : Registry} {names fresh : List String}
    (h : Advance r names after fresh) (n : String) :
    n ∈ fresh ↔ after.isEnsured n ∧ ¬ r.isEnsured n := by
  rw [h.isEnsured_iff]
  constructor
  · intro mem
    exact ⟨.inr mem, h.not_isEnsured mem⟩
  · rintro ⟨old | new, not⟩
    · exact absurd old not
    · exact new

/-- **A lookup finds a type's definition if and only if all it comes to is registered.** -/
theorem get_settled {r : Registry} (rest : r.AtRest) (name : String) :
    Settled r name (r.get name).1 (r.get name).2 := by
  obtain ⟨answers, resolves⟩ := get_spec rest name
  generalize r.get name = outcome at answers resolves
  obtain ⟨answer, after⟩ := outcome
  have terminates : ∀ outcome, Answers mainThread r name outcome ↔ outcome = (answer, after) := by
    intro outcome
    constructor
    · intro other
      exact other.unique answers
    · rintro rfl
      exact answers
  cases answer with
  | ok d =>
    obtain ⟨known, fresh, completed⟩ := resolves
    have ensured : ∀ n, after.isEnsured n ↔ r.isEnsured n ∨ r.Needs name n := by
      intro n
      constructor
      · intro now
        exact (completed.isEnsured_iff.mp now).imp_right completed.toAdvance.needs_of_mem
      · rintro (old | needs)
        · exact completed.isEnsured_iff.mpr (.inl old)
        · exact completed.isEnsured_of_needs rest needs
    exact
      { terminates := terminates
        complete := fun _ => ⟨⟨d, known, rfl⟩, ensured⟩
        incomplete := fun not => absurd (completed.complete rest) not
        kept := fun n old => completed.isEnsured_iff.mpr (.inl old)
        hook := ⟨fresh, completed.log, completed.nodup, completed.toAdvance.mem_iff⟩
        atRest := rest.advance completed.toAdvance
        definitions := completed.definitions
        directives := completed.directives }
  | error e =>
    obtain ⟨missing, fresh, rfl, failed, notFresh⟩ := resolves
    have absent : ¬ r.contains missing := by simp [contains_iff, failed.absent]
    have needs := failed.needs_missing
    have notEnsured : ¬ after.isEnsured name := by
      intro now
      rcases failed.isEnsured_iff.mp now with old | new
      · -- an ensured type comes to nothing but itself, and it is registered
        obtain rfl := eq_of_needs_of_isEnsured needs old
        rw [isEnsured_iff, failed.absent] at old
        cases old
      · exact notFresh new
    exact
      { terminates := terminates
        complete := fun complete => absurd complete failed.not_complete
        incomplete := fun _ =>
          ⟨⟨missing, rfl, needs, absent⟩, notEnsured, fun n now =>
            (failed.isEnsured_iff.mp now).imp_right failed.toAdvance.needs_of_mem⟩
        kept := fun n old => failed.isEnsured_iff.mpr (.inl old)
        hook := ⟨fresh, failed.log, failed.nodup, failed.toAdvance.mem_iff⟩
        atRest := rest.advance failed.toAdvance
        definitions := failed.definitions
        directives := failed.directives }

/-- Two types that nest each other, of which one nests a type that is not registered: the other is
ensured all the same. -/
theorem circle_settled :
    let r := ofDefinitions [.of { name := "A", components := ["B", "C"] } none,
      .of { name := "B", components := ["A"] } none]
    r.AtRest ∧ (r.get "A").1 = .error (.notRegistered "C") ∧ (r.get "A").2.log = ["B"] ∧
      Settled r "A" (r.get "A").1 (r.get "A").2 :=
  ⟨atRest_ofDefinitions _, by decide, by decide, get_settled (atRest_ofDefinitions _) "A"⟩

end TemplateCompiler.Registry
