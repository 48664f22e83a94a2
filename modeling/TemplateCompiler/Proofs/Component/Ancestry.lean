import Mathlib.Data.List.Nodup
import Mathlib.Data.List.Perm.Subperm
import TemplateCompiler.Proofs.Component.Inheritance

/-!
# The walk along superclasses

An ancestry is computed with a bound on its length and with the names that have been visited. The
bound never cuts it short, because the types in it are distinct, and a name that the walk does not
come to need not be remembered. So the ancestry of a type is the type itself and then the ancestry
of its superclass, unless the walk comes back to the type.

What is declared nearest can also be said without a bound and without visited names, by following
links from one type to the next. Where links lead in a circle this never ends, and the walk that
ends there misses nothing: what it would come to it has seen.

## Main definitions

* `TypeHierarchy.linked?` — the type that a link leads to
* `TypeHierarchy.FirstGetter` — the first getter that is met by following links

## Main statements

* `TypeHierarchy.chain_eq_ancestry` — more fuel makes no difference
* `TypeHierarchy.ancestry_eq_cons` — the ancestry of a subtype
* `TypeHierarchy.computed_lookups_agree` — all lookups of a computed property agree
-/
namespace TemplateCompiler.TypeHierarchy

/-! ## Links -/

/-- The type that a link leads to. A link to the root leads nowhere. -/
def linked? (h : TypeHierarchy) (link : Option String) : Option ComponentType :=
  link.bind fun name => if name = h.root then none else h.get? name

variable {h : TypeHierarchy} {fuel : Nat} {seen : List String} {link : Option String}
  {c : ComponentType}

/-- A linked type is called what the link says. -/
theorem eq_of_linked? (found : h.linked? link = some c) :
    link = some c.name ∧ c.name ≠ h.root ∧ h.get? c.name = some c := by
  obtain ⟨name, rfl, leads⟩ := Option.bind_eq_some_iff.mp found
  split at leads
  · cases leads
  · next notRoot =>
    obtain rfl := name_of_get? leads
    exact ⟨rfl, notRoot, leads⟩

theorem chain_of_none (h : TypeHierarchy) (fuel : Nat) (seen : List String)
    {link : Option String} (nowhere : h.linked? link = none) : h.chain fuel seen link = [] := by
  cases fuel with
  | zero => rfl
  | succ fuel =>
    cases link with
    | none => rfl
    | some name =>
      rw [linked?, Option.bind_some] at nowhere
      rw [chain]
      split
      · rfl
      · next notRoot =>
        rw [if_neg notRoot] at nowhere
        rw [nowhere]

theorem chain_of_some (fuel : Nat) (seen : List String) (found : h.linked? link = some c) :
    h.chain (fuel + 1) seen link =
      if c.name ∈ seen then [] else c :: h.chain fuel (c.name :: seen) c.superclass := by
  obtain ⟨rfl, notRoot, known⟩ := eq_of_linked? found
  rw [chain, if_neg notRoot, known]

/-! ## What is on the walk -/

/-- A walk with less fuel is an initial part of one with more. -/
theorem take_chain (h : TypeHierarchy) (fuel more : Nat) (seen : List String)
    (link : Option String) :
    (h.chain (fuel + more) seen link).take fuel = h.chain fuel seen link := by
  induction fuel generalizing seen link with
  | zero => rfl
  | succ fuel ih =>
    rw [Nat.succ_add]
    cases found : h.linked? link with
    | none => rw [chain_of_none h _ _ found, chain_of_none h _ _ found, List.take_nil]
    | some c =>
      rw [chain_of_some _ _ found, chain_of_some _ _ found]
      by_cases visited : c.name ∈ seen
      · rw [if_pos visited, if_pos visited, List.take_nil]
      · rw [if_neg visited, if_neg visited, List.take_succ_cons, ih]

/-- **A walk comes to declared types other than the root**, none of them seen before and none of
them twice. -/
theorem distinct_chain (h : TypeHierarchy) (fuel : Nat) (seen : List String)
    (link : Option String) :
    ((h.chain fuel seen link).map ComponentType.name).Nodup ∧
      ∀ c ∈ h.chain fuel seen link,
        c.name ∉ seen ∧ c.name ≠ h.root ∧ h.get? c.name = some c := by
  induction fuel generalizing seen link with
  | zero => simp [chain]
  | succ fuel ih =>
    cases found : h.linked? link with
    | none => simp [chain_of_none h _ _ found]
    | some c =>
      rw [chain_of_some _ _ found]
      by_cases visited : c.name ∈ seen
      · simp [visited]
      · obtain ⟨nodup, each⟩ := ih (c.name :: seen) c.superclass
        rw [if_neg visited, List.map_cons, List.nodup_cons, List.forall_mem_cons]
        refine ⟨⟨?_, nodup⟩, ⟨visited, (eq_of_linked? found).2⟩, ?_⟩
        · intro again
          obtain ⟨other, mem, same⟩ := List.mem_map.mp again
          exact (each other mem).1 (same ▸ List.mem_cons_self)
        · intro other mem
          obtain ⟨fresh, known⟩ := each other mem
          exact ⟨fun before => fresh (List.mem_cons_of_mem _ before), known⟩

/-- A walk is not longer than there are types. -/
theorem length_chain_le (h : TypeHierarchy) (fuel : Nat) (seen : List String)
    (link : Option String) : (h.chain fuel seen link).length ≤ h.types.length := by
  obtain ⟨nodup, each⟩ := h.distinct_chain fuel seen link
  have subset : h.chain fuel seen link ⊆ h.types := by
    intro c mem
    exact List.mem_of_find?_eq_some (each c mem).2.2
  exact (nodup.of_map.subperm subset).length_le

/-- **The fuel is enough**: with more of it the walk is the same. -/
theorem chain_eq_ancestry (h : TypeHierarchy) (name : String) {fuel : Nat}
    (enough : h.types.length ≤ fuel) : h.chain fuel [] (some name) = h.ancestry name := by
  obtain ⟨more, rfl⟩ := Nat.exists_eq_add_of_le enough
  rw [ancestry, ← h.take_chain h.types.length more, List.take_of_length_le]
  exact h.length_chain_le _ _ _

/-- Names that the walk does not come to need not be remembered. -/
theorem chain_congr {seen' : List String} (subset : seen ⊆ seen')
    (avoids : ∀ c ∈ h.chain fuel seen link, c.name ∉ seen') :
    h.chain fuel seen' link = h.chain fuel seen link := by
  induction fuel generalizing seen seen' link with
  | zero => rfl
  | succ fuel ih =>
    cases found : h.linked? link with
    | none => rw [chain_of_none h _ _ found, chain_of_none h _ _ found]
    | some c =>
      rw [chain_of_some _ _ found] at avoids ⊢
      rw [chain_of_some _ _ found]
      by_cases visited : c.name ∈ seen
      · rw [if_pos visited, if_pos (subset visited)]
      · rw [if_neg visited, List.forall_mem_cons] at avoids
        rw [if_neg visited, if_neg avoids.1, ih (List.cons_subset_cons _ subset)]
        intro other mem before
        rcases List.mem_cons.mp before with same | before
        · exact ((h.distinct_chain _ _ _).2 other mem).1 (same ▸ List.mem_cons_self)
        · exact avoids.2 other mem before

/-- **The ancestry of a subtype** is the type itself and the ancestry of its superclass, if that
does not come back to the type. -/
theorem ancestry_eq_cons {name superclass : String} (found : h.linked? (some name) = some c)
    (super : c.superclass = some superclass)
    (apart : name ∉ (h.ancestry superclass).map ComponentType.name) :
    h.ancestry name = c :: h.ancestry superclass := by
  obtain ⟨same, -, -⟩ := eq_of_linked? found
  obtain rfl := Option.some.inj same
  rw [← h.chain_eq_ancestry c.name (Nat.le_succ _), chain_of_some _ _ found,
    if_neg List.not_mem_nil, super, List.cons.injEq]
  refine ⟨rfl, chain_congr (List.nil_subset _) ?_⟩
  intro other mem before
  have same : other.name = c.name := List.mem_singleton.mp before
  exact apart (same ▸ List.mem_map_of_mem mem)

/-! ## The first getter on the walk -/

/-- Following links from one type to its superclass, `links` of them, the first getter of the
property that is met has the type `typeName`. -/
inductive FirstGetter (h : TypeHierarchy) (property : String) :
    (links : Nat) → Option String → (typeName : String) → Prop where
  | here {link : Option String} {c : ComponentType} {d : ComputedDeclaration} :
    h.linked? link = some c → c.computed.find? (isGetter property) = some d →
      FirstGetter h property 0 link d.typeName
  | above {links : Nat} {link : Option String} {c : ComponentType} {typeName : String} :
    h.linked? link = some c → c.computed.find? (isGetter property) = none →
      FirstGetter h property links c.superclass typeName →
        FirstGetter h property (links + 1) link typeName

namespace FirstGetter

variable {property typeName other : String} {links more : Nat}

/-- Behind a type without a getter the walk goes on. -/
theorem of_none (first : h.FirstGetter property links link typeName)
    (found : h.linked? link = some c) (none : c.computed.find? (isGetter property) = none) :
    ∃ before, links = before + 1 ∧ h.FirstGetter property before c.superclass typeName := by
  cases first with
  | here found' getter =>
    obtain rfl := Option.some.inj (found.symm.trans found')
    rw [none] at getter
    cases getter
  | above found' _ behind =>
    obtain rfl := Option.some.inj (found.symm.trans found')
    exact ⟨_, rfl, behind⟩

/-- The first getter is met after one number of links only. -/
theorem unique (first : h.FirstGetter property links link typeName)
    (second : h.FirstGetter property more link other) : links = more := by
  induction first generalizing more with
  | here found getter =>
    cases second with
    | here => rfl
    | above found' none =>
      obtain rfl := Option.some.inj (found.symm.trans found')
      rw [none] at getter
      cases getter
  | above found none _ ih =>
    obtain ⟨before, rfl, behind⟩ := second.of_none found none
    rw [ih behind]

/-- What has been seen leads on to where the walk stands now. -/
def LeadsOn (h : TypeHierarchy) (property : String) (seen : List String) (link : Option String) :
    Prop :=
  ∀ name ∈ seen, ∀ links typeName, h.FirstGetter property links (some name) typeName →
    ∃ fewer < links, h.FirstGetter property fewer link typeName

/-- The walk does not come to a name that it has seen before it meets the getter. -/
theorem not_mem_of_leadsOn (first : h.FirstGetter property links link typeName)
    (found : h.linked? link = some c) (leads : LeadsOn h property seen link) : c.name ∉ seen := by
  intro visited
  obtain ⟨rfl, -⟩ := eq_of_linked? found
  obtain ⟨fewer, lt, again⟩ := leads c.name visited links typeName first
  exact absurd (again.unique first) lt.ne

/-- A step behind a type without a getter. -/
theorem LeadsOn.step (leads : LeadsOn h property seen link) (found : h.linked? link = some c)
    (none : c.computed.find? (isGetter property) = none) :
    LeadsOn h property (c.name :: seen) c.superclass := by
  intro name mem links typeName first
  rcases List.mem_cons.mp mem with rfl | before
  · rw [← (eq_of_linked? found).1] at first
    obtain ⟨fewer, rfl, behind⟩ := first.of_none found none
    exact ⟨fewer, Nat.lt_succ_self _, behind⟩
  · obtain ⟨fewer, lt, again⟩ := leads name before links typeName first
    obtain ⟨least, rfl, behind⟩ := again.of_none found none
    exact ⟨least, by omega, behind⟩

/-- The walk with visited names meets the getter as well. -/
theorem findSome?_chain (first : h.FirstGetter property links link typeName)
    (leads : LeadsOn h property seen link) {fuel : Nat} (enough : links < fuel) :
    ((h.chain fuel seen link).findSome? fun c => c.computedType? property) = some typeName := by
  induction first generalizing seen fuel with
  | here found getter =>
    -- from a visited type the getter is more links away than from here
    have fresh := not_mem_of_leadsOn (.here found getter) found leads
    obtain ⟨fuel, rfl⟩ := Nat.exists_eq_add_of_lt enough
    rw [chain_of_some _ _ found, if_neg fresh, List.findSome?_cons, computedType?_eq, getter]
    rfl
  | above found none behind ih =>
    have fresh := not_mem_of_leadsOn (.above found none behind) found leads
    obtain ⟨fuel, rfl⟩ := Nat.exists_eq_add_one_of_ne_zero (Nat.ne_zero_of_lt enough)
    rw [chain_of_some _ _ found, if_neg fresh, List.findSome?_cons, computedType?_eq, none]
    exact ih (leads.step found none) (Nat.lt_of_succ_lt_succ enough)

end FirstGetter

/-- What the walk meets is met by following links. -/
theorem exists_firstGetter {property typeName : String}
    (met : ((h.chain fuel seen link).findSome? fun c => c.computedType? property) =
      some typeName) : ∃ links, h.FirstGetter property links link typeName := by
  induction fuel generalizing seen link with
  | zero => simp [chain] at met
  | succ fuel ih =>
    cases found : h.linked? link with
    | none => simp [chain_of_none h _ _ found] at met
    | some c =>
      rw [chain_of_some _ _ found] at met
      by_cases visited : c.name ∈ seen
      · simp [visited] at met
      · rw [if_neg visited, List.findSome?_cons, computedType?_eq] at met
        cases getter : c.computed.find? (isGetter property) with
        | some d =>
          rw [getter] at met
          obtain rfl := Option.some.inj met
          exact ⟨0, .here found getter⟩
        | none =>
          rw [getter] at met
          obtain ⟨links, behind⟩ := ih met
          exact ⟨links + 1, .above found getter behind⟩

/-- **A search along the ancestry finds the first getter that is met by following links.** -/
theorem computedType?_eq_some_iff {name property typeName : String} :
    h.computedType? name property = some typeName ↔
      ∃ links, h.FirstGetter property links (some name) typeName := by
  constructor
  · exact exists_firstGetter
  · rintro ⟨links, first⟩
    rw [computedType?, ← h.chain_eq_ancestry name (Nat.le_add_right _ (links + 1))]
    exact first.findSome?_chain (fun name seen => absurd seen List.not_mem_nil) (by omega)

/-- **All lookups of an inherited computed property agree**: the search along the ancestry, the
collected map and the first getter of the resolved type. They find the first getter that is met by
following superclasses without entering the root, if there is one. -/
theorem computed_lookups_agree (h : TypeHierarchy) (name property : String) :
    (h.inheritedComputed name).get? property = h.computedType? name property ∧
      ((h.resolved? name).bind fun c => c.computedType? property) =
        h.computedType? name property ∧
      ∀ typeName, h.computedType? name property = some typeName ↔
        ∃ links, h.FirstGetter property links (some name) typeName := by
  refine ⟨h.get?_inheritedComputed name property, ?_, fun typeName => computedType?_eq_some_iff⟩
  cases resolves : h.resolved? name with
  | some c => exact computedType?_resolved resolves property
  | none =>
    have walk : h.ancestry name = [] := by
      rw [resolved?] at resolves
      split at resolves
      · assumption
      · cases resolves
    rw [computedType?, walk]
    rfl

/-- A circle of superclasses: the getter of the second type is met after one link, and a property
without a getter is looked for once around. -/
example :
    let a : ComponentType := { (default : ComponentType) with name := "A", superclass := "B" }
    let b : ComponentType :=
      { (default : ComponentType) with
        name := "B", superclass := "A", computed := [⟨"x", none, "int", .getter⟩] }
    let h : TypeHierarchy := ⟨[a, b], "Component", by decide⟩
    h.computedType? "A" "x" = some "int" ∧ h.computedType? "A" "y" = none := by
  decide

end TemplateCompiler.TypeHierarchy
