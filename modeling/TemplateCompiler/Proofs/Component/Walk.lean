import Mathlib.Data.List.Chain
import TemplateCompiler.Proofs.Component.Ancestry

/-!
# What an ancestry is

An ancestry can be described in two ways without a bound on its length. As a list of types it is
the longest one without repetition that begins at a name and follows superclasses without entering
the root. As a loop it goes round once for each type and stops at the first link that leads nowhere
or back. Superclasses may form a circle, so no order on types makes the loop end. It ends because
a type is never passed twice and there are finitely many.

## Main definitions

* `TypeHierarchy.IsAncestry` — the longest walk along superclasses without repetition
* `TypeHierarchy.Position`, `TypeHierarchy.round?` — the loop that makes the walk
* `TypeHierarchy.Ends` — how the loop ends

## Main statements

* `TypeHierarchy.Passes.round` — what one round of the loop preserves
* `TypeHierarchy.Ends.isAncestry` — where the loop ends it has made the longest walk
* `TypeHierarchy.ancestry_is_longest_walk` — the ancestry is that walk, and the loop ends with it
-/
namespace TemplateCompiler.TypeHierarchy

/-! ## Longest walks -/

/-- The link behind a walk: the superclass of its last type, or the name where it begins. -/
def linkBehind (name : String) (walk : List ComponentType) : Option String :=
  match walk.getLast? with
  | none => some name
  | some c => c.superclass

@[simp] theorem linkBehind_nil (name : String) : linkBehind name [] = some name := rfl

@[simp] theorem linkBehind_concat (name : String) (walk : List ComponentType) (c : ComponentType) :
    linkBehind name (walk ++ [c]) = c.superclass := by
  rw [linkBehind, List.getLast?_concat]

/-- A walk from the type called `name` along superclasses: declared types other than the root, none
of them twice, each the superclass of the one in front of it. -/
structure IsWalk (h : TypeHierarchy) (name : String) (walk : List ComponentType) : Prop where
  declared : ∀ c ∈ walk, h.get? c.name = some c
  notRoot : ∀ c ∈ walk, c.name ≠ h.root
  distinct : (walk.map ComponentType.name).Nodup
  first : ∀ c ∈ walk.head?, c.name = name
  linked : walk.IsChain fun c next => c.superclass = some next.name

/-- The longest such walk: the link behind it, if there is one, leads to the root, to a type that is
not declared, or to one that is on the walk. -/
structure IsAncestry (h : TypeHierarchy) (name : String) (walk : List ComponentType) : Prop
    extends h.IsWalk name walk where
  longest : ∀ next ∈ linkBehind name walk,
    next = h.root ∨ ¬ h.Declares next ∨ next ∈ walk.map ComponentType.name

/-! ## The loop -/

/-- Where the loop stands: the types that it has passed, and the link to follow. -/
structure Position where
  passed : List ComponentType
  link : Option String

/-- One round of the loop, or `none` where it stops. -/
def round? (h : TypeHierarchy) (p : Position) : Option Position :=
  match h.linked? p.link with
  | none => none
  | some c =>
    if c.name ∈ p.passed.map ComponentType.name then none
    else some ⟨p.passed ++ [c], c.superclass⟩

/-- The loop ends after some more rounds, having passed the types of a walk. -/
inductive Ends (h : TypeHierarchy) : Position → (rounds : Nat) → List ComponentType → Prop where
  | stop {p : Position} : h.round? p = none → Ends h p 0 p.passed
  | go {p next : Position} {rounds : Nat} {walk : List ComponentType} :
    h.round? p = some next → Ends h next rounds walk → Ends h p (rounds + 1) walk

variable {h : TypeHierarchy} {name : String} {walk passed : List ComponentType}
  {p next : Position} {link : Option String} {c : ComponentType}

/-- A link leads somewhere unless it is missing or names the root or a type that is not declared. -/
theorem linked?_eq_none_iff :
    h.linked? link = none ↔ ∀ next ∈ link, next = h.root ∨ ¬ h.Declares next := by
  cases link with
  | none => simp [linked?]
  | some name =>
    simp only [linked?, Option.bind_some, Option.mem_def, Option.some.injEq, forall_eq']
    split
    · next isRoot => simp [isRoot]
    · next notRoot =>
      rw [Option.eq_none_iff_forall_ne_some, ← exists_get?_iff, not_exists]
      simp [notRoot]

/-- The loop stops where no link leads on, and where one leads back. -/
theorem round?_eq_none_iff :
    h.round? p = none ↔ ∀ next ∈ p.link,
      next = h.root ∨ ¬ h.Declares next ∨ next ∈ p.passed.map ComponentType.name := by
  rw [round?]
  cases found : h.linked? p.link with
  | none =>
    have nowhere := linked?_eq_none_iff.mp found
    refine iff_of_true rfl fun next mem => ?_
    rcases nowhere next mem with isRoot | undeclared
    · exact .inl isRoot
    · exact .inr (.inl undeclared)
  | some c =>
    obtain ⟨leads, notRoot, known⟩ := eq_of_linked? found
    have declared : h.Declares c.name := exists_get?_iff.mp ⟨c, known⟩
    simp [leads, notRoot, declared]

/-- A round passes the type that the link leads to. -/
theorem exists_of_round? (round : h.round? p = some next) :
    ∃ c, h.linked? p.link = some c ∧ c.name ∉ p.passed.map ComponentType.name ∧
      next = ⟨p.passed ++ [c], c.superclass⟩ := by
  rw [round?] at round
  split at round
  · cases round
  · next c found =>
    split at round
    · cases round
    · next fresh => exact ⟨c, found, fresh, (Option.some.inj round).symm⟩

/-- What holds wherever the loop stands: it has made a walk, and follows the link behind it. -/
structure Passes (h : TypeHierarchy) (name : String) (p : Position) : Prop where
  isWalk : h.IsWalk name p.passed
  link : p.link = linkBehind name p.passed

theorem Passes.start (h : TypeHierarchy) (name : String) : h.Passes name ⟨[], some name⟩ where
  isWalk := ⟨nofun, nofun, List.nodup_nil, nofun, .nil⟩
  link := rfl

/-- **A round of the loop prolongs the walk.** -/
theorem Passes.round (passes : h.Passes name p) (round : h.round? p = some next) :
    h.Passes name next := by
  obtain ⟨c, found, fresh, rfl⟩ := exists_of_round? round
  obtain ⟨leads, notRoot, known⟩ := eq_of_linked? found
  rw [passes.link] at leads
  have isWalk := passes.isWalk
  refine ⟨⟨?_, ?_, ?_, ?_, ?_⟩, (linkBehind_concat name p.passed c).symm⟩
  · rw [List.forall_mem_append, List.forall_mem_singleton]
    exact ⟨isWalk.declared, known⟩
  · rw [List.forall_mem_append, List.forall_mem_singleton]
    exact ⟨isWalk.notRoot, notRoot⟩
  · rw [List.map_append, List.nodup_append]
    refine ⟨isWalk.distinct, List.nodup_singleton _, ?_⟩
    intro before mem other new same
    rw [List.mem_singleton.mp new] at same
    exact fresh (same ▸ mem)
  · rw [List.head?_append]
    cases first : p.passed.head? with
    | none =>
      rw [List.head?_eq_none_iff.mp first, linkBehind_nil] at leads
      simpa using (Option.some.inj leads).symm
    | some d => exact fun _ => by rintro ⟨⟩; exact isWalk.first d first
  · rw [List.isChain_append]
    refine ⟨isWalk.linked, .singleton c, ?_⟩
    intro last mem other new
    obtain rfl := Option.some.inj new
    rwa [linkBehind, Option.mem_def.mp mem] at leads

namespace Ends

variable {rounds more : Nat} {other : List ComponentType}

/-- **Where the loop ends it has made the longest walk.** -/
theorem isAncestry (ends : h.Ends p rounds walk) (passes : h.Passes name p) :
    h.IsAncestry name walk := by
  induction ends with
  | stop stops => exact ⟨passes.isWalk, passes.link ▸ round?_eq_none_iff.mp stops⟩
  | go round _ ih => exact ih (passes.round round)

/-- The loop ends with one walk only. -/
theorem unique (ends : h.Ends p rounds walk) (ends' : h.Ends p more other) : walk = other := by
  induction ends generalizing more with
  | stop stops =>
    cases ends' with
    | stop => rfl
    | go round => cases stops.symm.trans round
  | go round _ ih =>
    cases ends' with
    | stop stops => cases round.symm.trans stops
    | go round' ends' =>
      obtain rfl := Option.some.inj (round.symm.trans round')
      exact ih ends'

/-- The loop makes the rest of a longest walk that it has begun. -/
theorem of_isAncestry (isAncestry : h.IsAncestry name walk) {rest : List ComponentType}
    (begun : walk = passed ++ rest) :
    h.Ends ⟨passed, linkBehind name passed⟩ rest.length walk := by
  induction rest generalizing passed with
  | nil =>
    rw [List.append_nil] at begun
    subst begun
    exact .stop (round?_eq_none_iff.mpr isAncestry.longest)
  | cons c rest ih =>
    have onWalk : c ∈ walk := begun ▸ List.mem_append_right _ List.mem_cons_self
    -- the link behind what has been passed leads to the next type of the walk
    have leads : linkBehind name passed = some c.name := by
      have linked := isAncestry.linked
      rw [begun, List.isChain_append] at linked
      cases last : passed.getLast? with
      | none =>
        have first := isAncestry.first
        rw [begun, List.getLast?_eq_none_iff.mp last] at first
        rw [linkBehind, last, first c rfl]
      | some d =>
        rw [linkBehind, last]
        exact linked.2.2 d last c rfl
    have found : h.linked? (linkBehind name passed) = some c := by
      rw [leads, linked?, Option.bind_some, if_neg (isAncestry.notRoot c onWalk),
        isAncestry.declared c onWalk]
    have fresh : c.name ∉ passed.map ComponentType.name := by
      have distinct := isAncestry.distinct
      rw [begun, List.map_append, List.nodup_append] at distinct
      exact fun before => distinct.2.2 _ before _ List.mem_cons_self rfl
    have round : h.round? ⟨passed, linkBehind name passed⟩ =
        some ⟨passed ++ [c], c.superclass⟩ := by
      rw [round?, found]
      exact if_neg fresh
    have ends := ih (begun.trans (List.append_cons passed c rest))
    rw [linkBehind_concat] at ends
    exact .go round ends

/-- A walk with enough fuel ends as the loop does. -/
theorem chain {fuel : Nat} {seen : List String} (short : (h.chain fuel seen link).length < fuel)
    (same : ∀ n, n ∈ seen ↔ n ∈ passed.map ComponentType.name) :
    h.Ends ⟨passed, link⟩ (h.chain fuel seen link).length (passed ++ h.chain fuel seen link) := by
  induction fuel generalizing passed seen link with
  | zero => cases short
  | succ fuel ih =>
    cases found : h.linked? link with
    | none =>
      rw [chain_of_none h _ _ found, List.append_nil]
      exact .stop (by rw [round?, found])
    | some c =>
      rw [chain_of_some _ _ found] at short ⊢
      by_cases visited : c.name ∈ seen
      · rw [if_pos visited, List.append_nil]
        refine .stop ?_
        rw [round?, found]
        exact if_pos ((same c.name).mp visited)
      · rw [if_neg visited] at short ⊢
        have same' (n : String) :
            n ∈ c.name :: seen ↔ n ∈ (passed ++ [c]).map ComponentType.name := by
          simp [same, or_comm]
        have ends := ih (Nat.lt_of_succ_lt_succ short) same'
        rw [List.append_assoc, List.singleton_append] at ends
        refine .go ?_ ends
        rw [round?, found]
        exact if_neg fun before => visited ((same c.name).mpr before)

end Ends

/-- The loop ends with the ancestry. -/
theorem ends_ancestry (h : TypeHierarchy) (name : String) :
    h.Ends ⟨[], some name⟩ (h.ancestry name).length (h.ancestry name) := by
  have short : (h.chain (h.types.length + 1) [] (some name)).length < h.types.length + 1 :=
    Nat.lt_succ_of_le (h.length_chain_le _ _ _)
  have same (n : String) : n ∈ [] ↔ n ∈ ([] : List ComponentType).map ComponentType.name := .rfl
  have ends := Ends.chain short same
  rwa [h.chain_eq_ancestry name (Nat.le_succ _), List.nil_append] at ends

/-- **The ancestry of a type is the longest walk along superclasses.** There is one such walk only.
The loop that makes it ends whatever the superclasses are, after one round for each type on the
walk, and these are not more than there are types. -/
theorem ancestry_is_longest_walk (h : TypeHierarchy) (name : String) :
    (∀ walk, h.IsAncestry name walk ↔ walk = h.ancestry name) ∧
      h.Ends ⟨[], some name⟩ (h.ancestry name).length (h.ancestry name) ∧
        (h.ancestry name).length ≤ h.types.length := by
  refine ⟨fun walk => ⟨fun isAncestry => ?_, ?_⟩, h.ends_ancestry name, h.length_chain_le _ _ _⟩
  · exact (Ends.of_isAncestry isAncestry (List.nil_append walk).symm).unique
      (h.ends_ancestry name)
  · rintro rfl
    exact (h.ends_ancestry name).isAncestry (.start h name)

/-- A circle that is entered from outside: the walk goes once around and stops where it entered,
and a type that is its own superclass is an ancestry of its own. -/
example :
    let c (name superclass : String) : ComponentType :=
      { (default : ComponentType) with name, superclass }
    let h : TypeHierarchy := ⟨[c "A" "B", c "B" "C", c "C" "B", c "D" "D"], "Component", by decide⟩
    (h.ancestry "A").map ComponentType.name = ["A", "B", "C"] ∧
      (h.ancestry "D").map ComponentType.name = ["D"] := by
  decide

end TemplateCompiler.TypeHierarchy
