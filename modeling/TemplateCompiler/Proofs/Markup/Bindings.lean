import TemplateCompiler.Proofs.Markup.ClauseReading

/-!
# What the variables of a loop are called

The variables that a loop clause names end up in two texts that are read again later: the clause
of the extracted template, which is searched for placeholders, and the parameters of accessors,
which end at a parenthesis. Their names are identifiers, perhaps with dots between them, so they
can be mistaken for neither.

## Main definitions

* `Markup.isBindingChar`, `Markup.IsBinding` — what names of variables are made of

## Main statements

* `Markup.isBinding_of_read` — the names in a clause are made of it
-/
namespace TemplateCompiler.Markup

open Text

/-- What the name of a loop variable is made of. The dot is there because a name is first read as
a type. -/
def isBindingChar (c : Char) : Bool := isIdentifierStart c || isIdentifierContinue c || c == '.'

/-- A text is made of such characters. -/
def IsBinding (name : String) : Prop := ∀ c ∈ name.toList, isBindingChar c = true

theorem IsBinding.dollar {name : String} (h : IsBinding name) : '$' ∉ name.toList := by
  intro mem
  exact absurd (h '$' mem) (by decide)

theorem IsBinding.parenthesis {name : String} (h : IsBinding name) : ')' ∉ name.toList := by
  intro mem
  exact absurd (h ')' mem) (by decide)

/-- The characters of joined texts. -/
theorem mem_intercalate {separator : String} {parts : List String} {c : Char}
    (mem : c ∈ (String.intercalate separator parts).toList) :
    c ∈ separator.toList ∨ ∃ part ∈ parts, c ∈ part.toList := by
  induction parts with
  | nil => simp at mem
  | cons part rest ih =>
    by_cases hrest : rest = []
    · subst hrest
      rw [String.intercalate_singleton] at mem
      exact .inr ⟨part, List.mem_cons_self, mem⟩
    · rw [String.intercalate_cons_of_ne_nil hrest, String.toList_append, String.toList_append,
        List.mem_append, List.mem_append] at mem
      rcases mem with (inPart | inSeparator) | inRest
      · exact .inr ⟨part, List.mem_cons_self, inPart⟩
      · exact .inl inSeparator
      · rcases ih inRest with inSeparator | ⟨other, hother, inOther⟩
        · exact .inl inSeparator
        · exact .inr ⟨other, List.mem_cons_of_mem part hother, inOther⟩

/-! ## Names -/

theorem IsName.isBinding {name : String} (h : IsName name) : IsBinding name := by
  obtain ⟨c, rest, same, start, continues⟩ := h.word
  intro d mem
  rw [same] at mem
  rcases List.mem_cons.mp mem with rfl | behind
  · simp [isBindingChar, start]
  · simp [isBindingChar, List.all_eq_true.mp continues d behind]

theorem IsPath.isBinding {path : String} (h : IsPath path) : IsBinding path := by
  obtain ⟨first, more, rfl, hfirst, hmore⟩ := h
  intro c mem
  rcases mem_intercalate mem with dot | ⟨name, inPath, inName⟩
  · obtain rfl := List.mem_singleton.mp dot
    decide
  · have isName : IsName name := by
      rcases List.mem_cons.mp inPath with rfl | behind
      · exact hfirst
      · exact hmore name behind
    exact isName.isBinding c inName

/-- **The names in a clause are made of identifiers.** -/
theorem isBinding_of_read {text : String} {clause : LoopClause}
    (h : LoopClause.read text = .ok clause) {v : LoopVariable} (mem : v ∈ clause.bindings) :
    IsBinding v.name :=
  ((isPath_of_read h).2 v mem).isBinding

end TemplateCompiler.Markup
