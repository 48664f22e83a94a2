import Mathlib
import TemplateCompiler.Proofs.Registry.Nesting

/-!
# What lookups change

A lookup walks the graph of nested types depth first. Types on the way are marked as being
ensured, so a walk that comes back to one of them goes on without it, and the marks are taken off
again where a nested type turns out not to be registered. Between beginning and end a lookup only
ensures types: whatever else it changes it changes back.

## Main definitions

* `Registry.Advance` — what a stretch of lookups by one thread may change
* `Registry.Completed`, `Registry.Failed` — how it ends
* `Registry.Ready` — the states in which a thread may look types up

## Main statements

* `Registry.Advance.trans` — stretches of lookups follow each other
* `Registry.Advance.rollBack` — a type that is given up leaves no trace but what was ensured for it
* `Registry.Completed.finish`, `Registry.Failed.finish` — from the nested types to the type itself
-/
namespace TemplateCompiler.Registry

open scoped List

/-! ## What lookups change -/

/-- What a stretch of lookups of `names` by one thread may change: it ensures the types `fresh`, one
after the other, and leaves everything else as it was. -/
structure Advance (r : Registry) (names : List String) (after : Registry) (fresh : List String) :
    Prop where
  definitions : ∀ n, after.definition? n = r.definition? n
  directives : after.directives = r.directives
  owner : after.owner = r.owner
  stages : ∀ n, after.stage? n = if n ∈ fresh then some .ensured else r.stage? n
  registered : ∀ n ∈ fresh, r.stage? n = some .registered
  log : after.log = r.log ++ fresh
  nodup : fresh.Nodup
  needed : ∀ n ∈ fresh, ∃ x ∈ names, r.Needs x n
  /-- A nested type is ensured before the type that nests it, unless one comes back from it. -/
  order : ∀ x ∈ fresh, ∀ y, r.Nests x y → r.isEnsured y ∨ [y, x] <+ fresh ∨ r.Reaches y x

/-- A type that lookups have come to: it is ensured, or being ensured. -/
def Visited (r : Registry) (n : String) : Prop :=
  r.stage? n ≠ none ∧ r.stage? n ≠ some .registered

theorem visited_iff {r : Registry} {n : String} :
    r.Visited n ↔ r.isEnsured n ∨ ∃ thread, r.stage? n = some (.ensuring thread) := by
  rw [Visited, isEnsured_iff]
  cases r.stage? n with
  | none => simp
  | some stage => cases stage <;> simp

/-- All names were found. Whatever is nested in a type that was ensured was visited. -/
structure Completed (r : Registry) (names : List String) (after : Registry)
    (fresh : List String) : Prop extends Advance r names after fresh where
  visited : ∀ n ∈ names, after.Visited n
  closed : ∀ x ∈ fresh, ∀ y, r.Nests x y → after.Visited y

/-- The lookups came to a type that is not registered. -/
structure Failed (r : Registry) (names : List String) (missing : String) (after : Registry)
    (fresh : List String) : Prop extends Advance r names after fresh where
  absent : r.stage? missing = none
  cause : ∃ x ∈ names, r.Needs x missing

namespace Advance

variable {r mid after : Registry} {names more fresh later : List String} {n x y : String}

/-- Nothing has changed. -/
theorem refl (r : Registry) (names : List String) : Advance r names r [] where
  definitions _ := rfl
  directives := rfl
  owner := rfl
  stages _ := by simp
  registered _ := nofun
  log := by simp
  nodup := List.nodup_nil
  needed _ := nofun
  order _ := nofun

theorem isEnsured_iff (h : Advance r names after fresh) :
    after.isEnsured n ↔ r.isEnsured n ∨ n ∈ fresh := by
  rw [Registry.isEnsured_iff, Registry.isEnsured_iff, h.stages]
  split
  · next mem => simp [mem]
  · next absent => simp [absent]

/-- The types that were ensured were not so before. -/
theorem not_isEnsured (h : Advance r names after fresh) (mem : n ∈ fresh) : ¬ r.isEnsured n := by
  rw [Registry.isEnsured_iff, h.registered n mem]
  simp

theorem visited (h : Advance r names after fresh) (visited : r.Visited n) : after.Visited n := by
  unfold Visited
  rw [h.stages]
  split
  · simp
  · exact visited

theorem needs (h : Advance r names after fresh) (needs : after.Needs x y) : r.Needs x y :=
  Needs.anti h.definitions (fun _ ensured => h.isEnsured_iff.mpr (.inl ensured)) needs

theorem mono (h : Advance r names after fresh) (sub : names ⊆ more) :
    Advance r more after fresh where
  __ := h
  needed n mem := by
    obtain ⟨x, mem, needs⟩ := h.needed n mem
    exact ⟨x, sub mem, needs⟩

/-- Two stretches, one after the other. -/
theorem trans (first : Advance r names mid fresh) (second : Advance mid more after later) :
    Advance r (names ++ more) after (fresh ++ later) where
  definitions n := (second.definitions n).trans (first.definitions n)
  directives := second.directives.trans first.directives
  owner := second.owner.trans first.owner
  stages n := by
    rw [second.stages, first.stages]
    simp only [List.mem_append]
    split_ifs <;> simp_all
  registered n mem := by
    rcases List.mem_append.mp mem with early | late
    · exact first.registered n early
    · have stage := second.registered n late
      rw [first.stages] at stage
      split at stage
      · cases stage
      · exact stage
  log := by rw [second.log, first.log, List.append_assoc]
  nodup := by
    rw [List.nodup_append']
    refine ⟨first.nodup, second.nodup, ?_⟩
    intro n early late
    exact second.not_isEnsured late (first.isEnsured_iff.mpr (.inr early))
  needed n mem := by
    rcases List.mem_append.mp mem with early | late
    · obtain ⟨x, mem, needs⟩ := first.needed n early
      exact ⟨x, List.mem_append_left _ mem, needs⟩
    · obtain ⟨x, mem, needs⟩ := second.needed n late
      exact ⟨x, List.mem_append_right _ mem, first.needs needs⟩
  order x mem y nests := by
    rcases List.mem_append.mp mem with early | late
    · rcases first.order x early y nests with ensured | before | back
      · exact .inl ensured
      · exact .inr (.inl (before.trans (List.sublist_append_left _ _)))
      · exact .inr (.inr back)
    · rcases second.order x late y ((nests_congr first.definitions).mpr nests) with
        ensured | before | back
      · rcases first.isEnsured_iff.mp ensured with old | new
        · exact .inl old
        · have before : [y] ++ [x] <+ fresh ++ later :=
            (List.singleton_sublist.mpr new).append (List.singleton_sublist.mpr late)
          exact .inr (.inl before)
      · exact .inr (.inl (before.trans (List.sublist_append_right _ _)))
      · exact .inr (.inr ((reaches_congr first.definitions).mp back))

end Advance

section Ends

variable {r mid after : Registry} {name missing : String} {names rest fresh later : List String}

theorem Completed.nil (r : Registry) : Completed r [] r [] where
  toAdvance := .refl r []
  visited _ := nofun
  closed _ := nofun

theorem Completed.cons (first : Completed r [name] mid fresh)
    (others : Completed mid rest after later) :
    Completed r (name :: rest) after (fresh ++ later) where
  toAdvance := first.toAdvance.trans others.toAdvance
  visited n mem := by
    rcases List.mem_cons.mp mem with rfl | mem
    · exact others.toAdvance.visited (first.visited n List.mem_cons_self)
    · exact others.visited n mem
  closed x mem y nests := by
    rcases List.mem_append.mp mem with early | late
    · exact others.toAdvance.visited (first.closed x early y nests)
    · exact others.closed x late y ((nests_congr first.definitions).mpr nests)

/-- A failure that comes after lookups without one. -/
theorem Completed.cons_failed (first : Completed r [name] mid fresh)
    (others : Failed mid rest missing after later) :
    Failed r (name :: rest) missing after (fresh ++ later) where
  toAdvance := first.toAdvance.trans others.toAdvance
  absent := by
    have absent := others.absent
    rw [first.stages] at absent
    split at absent
    · cases absent
    · exact absent
  cause := by
    obtain ⟨x, mem, needs⟩ := others.cause
    exact ⟨x, List.mem_cons_of_mem _ mem, first.toAdvance.needs needs⟩

theorem Failed.cons (first : Failed r [name] missing after fresh) (rest : List String) :
    Failed r (name :: rest) missing after fresh where
  toAdvance := first.toAdvance.mono (by simp)
  absent := first.absent
  cause := by
    obtain ⟨x, mem, needs⟩ := first.cause
    exact ⟨x, by simp_all, needs⟩

end Ends

/-! ## Levels -/

/-- The thread `me` may look `names` up: nobody else is at work, and one comes to `names` from every
type that is being ensured. -/
structure Ready (r : Registry) (me : ThreadId) (names : List String) : Prop where
  path : ∀ n thread, r.stage? n = some (.ensuring thread) → thread = me ∧ ∀ x ∈ names, r.Reaches n x
  owner : ∀ o, r.owner = some o → o.thread = me ∧ 0 < o.depth

/-- The types that no lookup has taken up yet. -/
def unstarted (r : Registry) : Finset String :=
  r.entries.keys.toFinset.filter fun n => r.stage? n = some .registered

theorem mem_unstarted {r : Registry} {n : String} :
    n ∈ r.unstarted ↔ r.stage? n = some .registered := by
  simp only [unstarted, Finset.mem_filter, List.mem_toFinset, OrderedMap.mem_keys_iff,
    and_iff_right_iff_imp]
  intro stage
  obtain ⟨entry, found, -⟩ := Option.map_eq_some_iff.mp stage
  simp [found]

theorem card_unstarted_le (r : Registry) : r.unstarted.card ≤ r.entries.size := by
  calc r.unstarted.card ≤ r.entries.keys.toFinset.card := Finset.card_filter_le _ _
    _ ≤ r.entries.keys.length := r.entries.keys.toFinset_card_le
    _ = r.entries.size := by simp [OrderedMap.keys, OrderedMap.size, entryKeys]

/-- Lookups take types up and give none back that they had not taken up. -/
theorem unstarted_subset {r after : Registry} {names fresh : List String}
    (adv : Advance r names after fresh) : after.unstarted ⊆ r.unstarted := by
  intro n mem
  rw [mem_unstarted, adv.stages] at mem
  split at mem
  · cases mem
  · exact mem_unstarted.mpr mem

namespace Ready

variable {r after : Registry} {me : ThreadId} {name : String} {names more fresh : List String}
  {d : ComponentDefinition}

theorem mono (h : Ready r me names) (sub : more ⊆ names) : Ready r me more where
  path n thread stage := by
    obtain ⟨own, reaches⟩ := h.path n thread stage
    exact ⟨own, fun x mem => reaches x (sub mem)⟩
  owner := h.owner

/-- Lookups leave no marks. -/
theorem advance (h : Ready r me more) (adv : Advance r names after fresh) :
    Ready after me more where
  path n thread stage := by
    rw [adv.stages] at stage
    split at stage
    · cases stage
    · obtain ⟨own, reaches⟩ := h.path n thread stage
      exact ⟨own, fun x mem => (reaches_congr adv.definitions).mpr (reaches x mem)⟩
  owner o owned := h.owner o (adv.owner ▸ owned)

/-- A thread that is ready never waits. -/
theorem not_ownedByOther (h : Ready r me names) : ¬ r.ownedByOther me := by
  intro busy
  obtain ⟨o, owned, other⟩ := ownedByOther_iff.mp busy
  exact other (h.owner o owned).1

end Ready

/-! ## A type that is taken up -/

section Claim

variable {r after : Registry} {me : ThreadId} {name missing : String} {fresh : List String}
  {d : ComponentDefinition}

/-- Taking a type up changes nothing about what lookups come to. -/
theorem needs_of_needs_claim (stage : r.stage? name = some .registered) {x y : String}
    (needs : (r.claim me name).Needs x y) : r.Needs x y :=
  Needs.anti (definition?_claim r name · me) (fun n => (isEnsured_claim stage n).mpr) needs

/-- A lookup comes to what is nested in its type. -/
theorem needs_of_dependency (known : r.definition? name = some d)
    (stage : r.stage? name = some .registered) {x y : String} (mem : x ∈ d.dependencies)
    (needs : r.Needs x y) : r.Needs name y := by
  refine .head ⟨⟨d, known, mem⟩, ?_⟩ needs
  rw [isEnsured_iff, stage]
  simp

theorem Ready.claim (h : Ready r me [name]) (known : r.definition? name = some d) :
    Ready (r.claim me name) me d.dependencies where
  path n thread stage := by
    have down : ∀ x ∈ d.dependencies, (r.claim me name).Nests name x := by
      intro x mem
      exact ⟨d, by simpa using known, mem⟩
    rw [stage?_claim] at stage
    split at stage
    · next same =>
      obtain ⟨-, -, own⟩ := Option.map_eq_some_iff.mp stage
      cases own
      subst same
      exact ⟨rfl, fun x mem => .of_nests (down x mem)⟩
    · obtain ⟨own, reaches⟩ := h.path n thread stage
      refine ⟨own, fun x mem => ?_⟩
      have up : (r.claim me name).Reaches n name :=
        (reaches_congr (definition?_claim r name · me)).mpr (reaches name List.mem_cons_self)
      exact up.tail (down x mem)
  owner o owned := by
    rw [owner_claim] at owned
    obtain rfl := Option.some.inj owned
    cases before : r.owner with
    | none => simp
    | some o => simp [(h.owner o before).1]

theorem card_unstarted_claim (stage : r.stage? name = some .registered) :
    (r.claim me name).unstarted.card < r.unstarted.card := by
  refine Finset.card_lt_card ⟨?_, ?_⟩
  · intro n mem
    rw [mem_unstarted, stage?_claim] at mem
    split at mem
    · simp [stage] at mem
    · exact mem_unstarted.mpr mem
  · intro sub
    have mem := sub (mem_unstarted.mpr stage)
    simp [mem_unstarted, stage?_claim, stage] at mem

/-- When its lookup is done the owner is as before. -/
theorem owner_finish_of_claim (h : Ready r me [name]) (same : after.owner = (r.claim me name).owner)
    (succeeded : Bool) : (after.finish name succeeded).owner = r.owner := by
  rw [owner_finish, same, owner_claim]
  cases before : r.owner with
  | none => simp
  | some o =>
    have positive := (h.owner o before).2
    simp [positive]

end Claim

/-! ## Ends of lookups -/

section Finish

variable {r after : Registry} {me : ThreadId} {name missing : String}
  {names fresh : List String} {d : ComponentDefinition}

/-- A type that is ensured or being ensured is handed out as it is. -/
theorem completed_of_visited (visited : r.Visited name) : Completed r [name] r [] where
  toAdvance := .refl r [name]
  visited _ mem := List.mem_singleton.mp mem ▸ visited
  closed _ := nofun

theorem failed_of_absent (absent : r.stage? name = none) : Failed r [name] name r [] where
  toAdvance := .refl r [name]
  absent := absent
  cause := ⟨name, List.mem_cons_self, .refl⟩

/-- Nothing of what is nested in a type ensures the type itself. -/
theorem not_mem_of_claim (stage : r.stage? name = some .registered)
    (adv : Advance (r.claim me name) names after fresh) : name ∉ fresh := by
  intro mem
  have registered := adv.registered name mem
  simp [stage?_claim, stage] at registered

/-- The marks that a lookup leaves while its nested types are looked up. -/
theorem stage?_of_claim (stage : r.stage? name = some .registered)
    (adv : Advance (r.claim me name) names after fresh) :
    after.stage? name = some (.ensuring me) := by
  rw [adv.stages, if_neg (not_mem_of_claim stage adv), stage?_claim, if_pos rfl, stage,
    Option.map_some]

/-- **Roll-back.** A type that is given up is registered again, and what was ensured for it stays
so. -/
theorem Advance.rollBack (h : Ready r me [name]) (known : r.definition? name = some d)
    (stage : r.stage? name = some .registered)
    (adv : Advance (r.claim me name) d.dependencies after fresh) :
    Advance r [name] (after.finish name false) fresh := by
  have same : ∀ n, (r.claim me name).definition? n = r.definition? n := fun n => by simp
  have absent := not_mem_of_claim stage adv
  exact
    { definitions := fun n => by simp [adv.definitions]
      directives := by simp [adv.directives]
      owner := owner_finish_of_claim h adv.owner false
      stages := by
        intro n
        rw [stage?_finish]
        split
        · next eq => simp [eq, absent, stage, stage?_of_claim stage adv]
        · next ne => simp [adv.stages, stage?_claim, ne]
      registered := by
        intro n mem
        have ne : n ≠ name := fun eq => absent (eq ▸ mem)
        rw [← adv.registered n mem, stage?_claim, if_neg ne]
      log := by simp [adv.log]
      nodup := adv.nodup
      needed := by
        intro n mem
        obtain ⟨x, dependency, needs⟩ := adv.needed n mem
        exact ⟨name, List.mem_cons_self,
          needs_of_dependency known stage dependency (needs_of_needs_claim stage needs)⟩
      order := by
        intro x mem y nests
        rcases adv.order x mem y ((nests_congr same).mpr nests) with ensured | before | back
        · exact .inl ((isEnsured_claim stage y).mp ensured)
        · exact .inr (.inl before)
        · exact .inr (.inr ((reaches_congr same).mp back)) }

/-- A type is ensured once what it nests has been visited. -/
theorem Advance.ensure (own : after.stage? name = some (.ensuring me))
    (order : ∀ y, after.Nests name y → after.isEnsured y ∨ after.Reaches y name) :
    Advance (after.finish name false) [name] ((after.runHook name).finish name true) [name] := by
  have same : ∀ n, (after.finish name false).definition? n = after.definition? n :=
    fun n => by simp
  exact
    { definitions := fun n => by simp
      directives := by simp
      owner := by simp [owner_finish]
      stages := by
        intro n
        simp only [stage?_finish, stage?_runHook, List.mem_singleton]
        split <;> simp [own]
      registered := by
        intro n mem
        obtain rfl := List.mem_singleton.mp mem
        simp [stage?_finish, own]
      log := by simp
      nodup := List.nodup_singleton name
      needed := by
        intro n mem
        exact ⟨n, mem, .refl⟩
      order := by
        intro x mem y nests
        obtain rfl := List.mem_singleton.mp mem
        rcases order y ((nests_congr same).mp nests) with ensured | back
        · have ne : y ≠ x := by
            rintro rfl
            simp [Registry.isEnsured_iff, own] at ensured
          rw [Registry.isEnsured_iff, stage?_finish, if_neg ne, ← Registry.isEnsured_iff]
          exact .inl ensured
        · exact .inr (.inr ((reaches_congr same).mpr back)) }

/-- The end of a lookup whose nested types were all found. -/
theorem Completed.finish (h : Ready r me [name]) (known : r.definition? name = some d)
    (stage : r.stage? name = some .registered)
    (nested : Completed (r.claim me name) d.dependencies after fresh) :
    Completed r [name] ((after.runHook name).finish name true) (fresh ++ [name]) := by
  have same : ∀ n, (r.claim me name).definition? n = r.definition? n := fun n => by simp
  have kept : ∀ n, after.definition? n = r.definition? n :=
    fun n => (nested.definitions n).trans (same n)
  have visited : ∀ y, r.Nests name y → after.Visited y := by
    rintro y ⟨d', known', dependency⟩
    obtain rfl := Option.some.inj (known.symm.trans known')
    exact nested.visited y dependency
  have order : ∀ y, after.Nests name y → after.isEnsured y ∨ after.Reaches y name := by
    intro y nests
    rcases visited_iff.mp (visited y ((nests_congr kept).mp nests)) with ensured | ⟨thread, mark⟩
    · exact .inl ensured
    · -- the mark was there when the lookup began, or it is the lookup's own
      refine .inr ((reaches_congr kept).mpr ?_)
      rw [nested.stages] at mark
      split at mark
      · cases mark
      · rw [stage?_claim] at mark
        split at mark
        · next eq => exact eq ▸ .refl
        · exact (h.path y thread mark).2 name List.mem_cons_self
  have ensured := Advance.ensure (stage?_of_claim stage nested.toAdvance) order
  have done : ∀ y, after.Visited y → ((after.runHook name).finish name true).Visited y := by
    intro y visited
    rw [Visited, stage?_finish]
    split
    · simp [stage?_of_claim stage nested.toAdvance]
    · exact visited
  refine ⟨((nested.toAdvance.rollBack h known stage).trans ensured).mono (by simp), ?_, ?_⟩
  · intro n mem
    obtain rfl := List.mem_singleton.mp mem
    exact visited_iff.mpr (.inl (ensured.isEnsured_iff.mpr (.inr List.mem_cons_self)))
  · intro x mem y nests
    rcases List.mem_append.mp mem with early | last
    · exact done y (nested.closed x early y ((nests_congr same).mpr nests))
    · obtain rfl := List.mem_singleton.mp last
      exact done y (visited y nests)

/-- The end of a lookup that came to a type which is not registered. -/
theorem Failed.finish (h : Ready r me [name]) (known : r.definition? name = some d)
    (stage : r.stage? name = some .registered)
    (nested : Failed (r.claim me name) d.dependencies missing after fresh) :
    Failed r [name] missing (after.finish name false) fresh where
  toAdvance := nested.toAdvance.rollBack h known stage
  absent := by
    have absent := nested.absent
    rw [stage?_claim] at absent
    split at absent
    · simp [stage] at absent
    · exact absent
  cause := by
    obtain ⟨x, dependency, needs⟩ := nested.cause
    exact ⟨name, List.mem_cons_self,
      needs_of_dependency known stage dependency (needs_of_needs_claim stage needs)⟩

end Finish

end TemplateCompiler.Registry
