import TemplateCompiler.Text.Cut

/-!
# Runs of characters

A run of characters of one class is cut as a whole where a character of another class, or nothing,
follows it.

## Main statements

* `Text.cutRun_run` — a run and what follows it
-/
namespace TemplateCompiler.Text

/-- The longest run of a class in front of a character that is not in it. -/
theorem takeWhile_run {p : Char → Bool} {run rest : List Char} (inside : run.all p = true)
    (border : rest.head?.any p = false) : (run ++ rest).takeWhile p = run := by
  rw [List.takeWhile_append_of_pos (List.all_eq_true.mp inside)]
  cases rest with
  | nil => simp
  | cons c rest =>
    rw [List.takeWhile_cons_of_neg (by simpa using border), List.append_nil]

/-- What stands behind the longest run of a class. -/
theorem dropWhile_run {p : Char → Bool} {run rest : List Char} (inside : run.all p = true)
    (border : rest.head?.any p = false) : (run ++ rest).dropWhile p = rest := by
  rw [List.dropWhile_append_of_pos (List.all_eq_true.mp inside)]
  cases rest with
  | nil => simp
  | cons c rest => exact List.dropWhile_cons_of_neg (by simpa using border)

/-- The longest run of a class ends in front of a character that is not in it. -/
theorem of_mem_head?_dropWhile {p : Char → Bool} {cs : List Char} {c : Char}
    (h : c ∈ (cs.dropWhile p).head?) : p c = false := by
  have border := List.head?_dropWhile_not p cs
  rwa [Option.mem_def.mp h] at border

theorem cutRun_run {p : Char → Bool} {run rest : List Char} (inside : run.all p = true)
    (border : rest.head?.any p = false) : cutRun p (run ++ rest) = ⟨run, rest⟩ := by
  rw [cutRun, takeWhile_run inside border, dropWhile_run inside border]

/-- What a run takes is of its class. -/
theorem all_cutRun (p : Char → Bool) (cs : List Char) : (cutRun p cs).taken.all p = true :=
  List.all_takeWhile

end TemplateCompiler.Text
