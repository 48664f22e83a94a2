import Mathlib.Data.List.Forall2

/-!
# Steps that may fail

What a sequence of steps that succeeds says about its steps.

## Main statements

* `exists_of_bind_ok` — the first step succeeds and the others go on with its value
* `forall₂_of_mapM` — a traversal succeeds at each element
* `observe_foldlM` — what a sequence of updates leaves
-/
namespace TemplateCompiler

variable {ε α β : Type}

/-- What follows a step that succeeds. -/
theorem exists_of_bind_ok {first : Except ε α} {next : α → Except ε β} {value : β}
    (ok : first >>= next = .ok value) : ∃ a, first = .ok a ∧ next a = .ok value := by
  cases first with
  | error e => cases ok
  | ok a => exact ⟨a, rfl, ok⟩

/-- A step whose value is looked at has succeeded. -/
theorem exists_of_map_ok {f : α → β} {step : Except ε α} {value : β}
    (ok : step.map f = .ok value) : ∃ a, step = .ok a ∧ f a = value := by
  cases step with
  | error e => cases ok
  | ok a => exact ⟨a, rfl, Except.ok.inj ok⟩

/-- What comes out of a traversal that succeeds has come out of its steps, one after the other. -/
theorem forall₂_of_mapM {f : α → Except ε β} {xs : List α} {ys : List β}
    (done : xs.mapM f = .ok ys) : List.Forall₂ (fun x y => f x = .ok y) xs ys := by
  induction xs generalizing ys with
  | nil =>
    obtain rfl := Except.ok.inj done
    exact .nil
  | cons x rest ih =>
    rw [List.mapM_cons] at done
    obtain ⟨z, first, done⟩ := exists_of_bind_ok done
    obtain ⟨zs, more, done⟩ := exists_of_bind_ok done
    obtain rfl := Except.ok.inj done
    exact .cons first (ih more)

theorem exists_of_mem_mapM {f : α → Except ε β} {xs : List α} {ys : List β}
    (done : xs.mapM f = .ok ys) {y : β} (mem : y ∈ ys) : ∃ x ∈ xs, f x = .ok y := by
  obtain ⟨index, lt, rfl⟩ := List.mem_iff_getElem.mp mem
  have steps := forall₂_of_mapM done
  have lt' : index < xs.length := steps.length_eq ▸ lt
  exact ⟨xs[index], List.getElem_mem lt', steps.get lt' lt⟩

/-- Steps that succeed from any state succeed together. -/
theorem exists_foldlM {step : β → α → Except ε β} {xs : List α}
    (each : ∀ x ∈ xs, ∀ state, ∃ after, step state x = .ok after) (state : β) :
    ∃ final, xs.foldlM step state = .ok final := by
  induction xs generalizing state with
  | nil => exact ⟨state, rfl⟩
  | cons x rest ih =>
    rw [List.forall_mem_cons] at each
    obtain ⟨after, first⟩ := each.1 state
    obtain ⟨final, more⟩ := ih each.2 after
    refine ⟨final, ?_⟩
    rw [List.foldlM_cons, first]
    exact more

/-- **The last update counts.** Where each step either sets what is observed or leaves it alone, a
sequence of steps leaves what the last one that sets it has set. -/
theorem observe_foldlM {γ : Type} {step : β → α → Except ε β} (observe : β → γ) (sets : α → Bool)
    (value : α → γ)
    (each : ∀ {state x after}, step state x = .ok after →
      observe after = if sets x then value x else observe state)
    {xs : List α} {state final : β} (done : xs.foldlM step state = .ok final) :
    observe final = (xs.reverse.find? sets).elim (observe state) value := by
  induction xs generalizing state with
  | nil =>
    obtain rfl := Except.ok.inj done
    rfl
  | cons x rest ih =>
    rw [List.foldlM_cons] at done
    obtain ⟨after, first, done⟩ := exists_of_bind_ok done
    rw [ih done, each first, List.reverse_cons, List.find?_append]
    cases rest.reverse.find? sets with
    | some later => rfl
    | none => cases here : sets x <;> simp [here]

end TemplateCompiler
