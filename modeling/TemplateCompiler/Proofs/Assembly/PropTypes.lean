import Mathlib.Data.List.Basic
import TemplateCompiler.Assembly.Options
import TemplateCompiler.Proofs.Text.Run
import TemplateCompiler.Proofs.Text.Trim

/-!
# Types of props as they are declared

A declared type is a dotted name, which may have type arguments, or an array of such a type, to any
depth. Which kind of value the engine checks for should follow from this structure: an array is an
array, and otherwise the last part of the outermost name decides, whatever the package and the type
arguments are.

The kind is found in the text, though. There the type arguments are cut off, with all that is
behind them, before the brackets of an array are looked for. So an array is recognised unless its
items have type arguments, and then it counts as what the name of its items stands for.

## Main definitions

* `PropType.QualifiedName`, `PropType.TypeExpr` — names and types
* `PropType.TypeExpr.text` — a type as it is written
* `PropType.TypeExpr.kind` — the kind that follows from the structure

## Main statements

* `PropType.ofTypeName_text` — which kind is found in the text of a type
* `PropType.kind_found_iff` — when it is the one that follows from the structure
-/
namespace TemplateCompiler.PropType

open Text

/-! ## Types -/

/-- Whether the character can be part of a name: it is no blank and has no meaning in types. -/
def isNameChar (c : Char) : Bool := !isBlank c && !(['.', '<', '>', ',', '[', ']'].contains c)

/-- A part of a dotted name. -/
def IsNamePart (part : String) : Prop := part ≠ "" ∧ part.toList.all isNameChar = true

instance (part : String) : Decidable (IsNamePart part) := inferInstanceAs (Decidable (_ ∧ _))

/-- A dotted name: the parts that make up its package, and the last one. -/
structure QualifiedName where
  package : List String
  simple : String
  isNamePart : ∀ part ∈ simple :: package, IsNamePart part

/-- The name as it is written. -/
def QualifiedName.chars (name : QualifiedName) : List Char :=
  name.package.flatMap (fun part => part.toList ++ ['.']) ++ name.simple.toList

/-- A declared type: a name with type arguments, if it has any, or an array of a type. -/
inductive TypeExpr where
  | named (name : QualifiedName) (arguments : List TypeExpr)
  | array (item : TypeExpr)

namespace TypeExpr

mutual

/-- The type as it is written. The text `comma` stands between type arguments. -/
def chars (comma : List Char) : TypeExpr → List Char
  | .named name [] => name.chars
  | .named name (first :: rest) =>
    name.chars ++ '<' :: (first.chars comma ++ charsBehind comma rest ++ ['>'])
  | .array item => item.chars comma ++ ['[', ']']

/-- The type arguments behind the first one. -/
def charsBehind (comma : List Char) : List TypeExpr → List Char
  | [] => []
  | next :: rest => comma ++ next.chars comma ++ charsBehind comma rest

end

/-- The type as text. -/
def text (t : TypeExpr) (comma : String) : String := String.ofList (t.chars comma.toList)

/-- Whether the type is an array. -/
def isArray : TypeExpr → Bool
  | named _ _ => false
  | array _ => true

/-- The outermost name. -/
def name : TypeExpr → QualifiedName
  | named name _ => name
  | array item => item.name

/-- Whether the outermost name has type arguments. -/
def hasArguments : TypeExpr → Bool
  | named _ arguments => !arguments.isEmpty
  | array item => item.hasArguments

/-- The kind that follows from the structure of the type. -/
def kind (t : TypeExpr) : PropType := if t.isArray then .array else ofTypeName t.name.simple

end TypeExpr

/-! ## The text in front of type arguments -/

section Names

variable {name : QualifiedName}

theorem isNameChar_iff {c : Char} :
    isNameChar c = true ↔ isBlank c = false ∧ c ∉ ['.', '<', '>', ',', '[', ']'] := by
  simp [isNameChar]

/-- A part of a name has no character that means something in types. -/
theorem IsNamePart.ne {part : String} (h : IsNamePart part) {c : Char} (mem : c ∈ part.toList) :
    isBlank c = false ∧ c ∉ ['.', '<', '>', ',', '[', ']'] :=
  isNameChar_iff.mp (List.all_eq_true.mp h.2 c mem)

theorem QualifiedName.mem_chars_iff {c : Char} :
    c ∈ name.chars ↔ (∃ part ∈ name.package, c ∈ part.toList ∨ c = '.') ∨
      c ∈ name.simple.toList := by
  simp [chars]

/-- A name has no character that means something behind it. -/
theorem QualifiedName.ne_of_mem_chars {c : Char} (mem : c ∈ name.chars) :
    isBlank c = false ∧ c ≠ '<' ∧ c ≠ ']' := by
  rcases mem_chars_iff.mp mem with ⟨part, isPart, inside | rfl⟩ | inside
  · have := (name.isNamePart part (List.mem_cons_of_mem _ isPart)).ne inside
    simp_all
  · decide
  · have := (name.isNamePart _ List.mem_cons_self).ne inside
    simp_all

theorem QualifiedName.chars_ne_nil (name : QualifiedName) : name.chars ≠ [] := by
  have := (name.isNamePart _ List.mem_cons_self).1
  simp_all [chars]

/-- The last part of a name is the text behind its last dot. -/
theorem lastPiece_chars (name : QualifiedName) :
    lastPiece (· == '.') name.chars = name.simple.toList := by
  have inside : name.simple.toList.reverse.all (fun c => !(c == '.')) = true := by
    simp only [List.all_reverse, List.all_eq_true]
    intro c mem
    have := ((name.isNamePart _ List.mem_cons_self).ne mem).2
    simp_all
  have border : ((name.package.flatMap fun part => part.toList ++ ['.']).reverse.head?.any
      fun c => !(c == '.')) = false := by
    rw [List.head?_reverse]
    rcases List.eq_nil_or_concat' name.package with none | ⟨front, last, some⟩
    · simp [none]
    · simp [some]
  rw [lastPiece, QualifiedName.chars, List.reverse_append, takeWhile_run inside border,
    List.reverse_reverse]

/-- Text that begins and ends without a blank is as it was when it is trimmed. -/
theorem trim_eq_self {cs : List Char} (nonempty : cs ≠ [])
    (solid : ∀ c ∈ cs, isBlank c = false) : trim cs = cs := by
  refine Trimmed.trim_eq ⟨?_, ?_⟩
  · obtain ⟨c, rest, rfl⟩ := List.exists_cons_of_ne_nil nonempty
    exact ⟨c, rest, rfl, solid c List.mem_cons_self⟩
  · obtain rfl | ⟨front, c, rfl⟩ := List.eq_nil_or_concat' cs
    · exact absurd rfl nonempty
    · exact ⟨front, c, rfl, solid c (by simp)⟩

end Names

/-! ## The kind of a name -/

/-- The kind that a name without a package stands for. -/
def ofSimpleName (simple : String) : PropType :=
  match names.find? fun entry => entry.2.contains simple with
  | some entry => entry.1
  | none => object

/-- Of a text only what is in front of the first type argument counts. -/
theorem ofTypeName_ofList {front : List Char} (rest : List Char) (plain : ∀ c ∈ front, c ≠ '<')
    (cut : ∀ c ∈ rest.head?, c = '<') (trimmed : trim front = front) :
    ofTypeName (String.ofList (front ++ rest)) =
      if (before? ['[', ']'] front).isSome then array
      else ofSimpleName (String.ofList (lastPiece (· == '.') front)) := by
  have border : (rest.head?.any fun c => c != '<') = false := by
    cases rest with
    | nil => rfl
    | cons c rest => simpa using cut c rfl
  have taken : (front ++ rest).takeWhile (· != '<') = front := by
    refine takeWhile_run ?_ border
    simpa using plain
  rw [ofTypeName, String.toList_ofList, taken, trimmed]
  rfl

/-- **Of a name the last part counts**, with type arguments or without. -/
theorem ofTypeName_chars (name : QualifiedName) (rest : List Char)
    (cut : ∀ c ∈ rest.head?, c = '<') :
    ofTypeName (String.ofList (name.chars ++ rest)) = ofSimpleName name.simple := by
  have none : before? ['[', ']'] name.chars = none := by
    rw [Option.eq_none_iff_forall_ne_some]
    intro front same
    have bracket : ']' ∈ name.chars := by
      rw [before?_eq_some_iff.mp same]
      simp
    exact (name.ne_of_mem_chars bracket).2.2 rfl
  have trimmed := trim_eq_self name.chars_ne_nil fun c mem => (name.ne_of_mem_chars mem).1
  rw [ofTypeName_ofList rest (fun c mem => (name.ne_of_mem_chars mem).2.1) cut trimmed, none,
    lastPiece_chars, String.ofList_toList]
  rfl

/-- The last part of a name is a name of its own. -/
theorem ofTypeName_simple (name : QualifiedName) :
    ofTypeName name.simple = ofSimpleName name.simple := by
  have alone : ∀ part ∈ [name.simple], IsNamePart part := by
    intro part mem
    obtain rfl := List.mem_singleton.mp mem
    exact name.isNamePart _ List.mem_cons_self
  have found := ofTypeName_chars ⟨[], name.simple, alone⟩ [] nofun
  simpa [QualifiedName.chars] using found

/-! ## The kind of a type -/

namespace TypeExpr

/-- The text of a type with type arguments is its outermost name up to the first of them. -/
theorem exists_chars_of_hasArguments (comma : List Char) : ∀ t : TypeExpr, t.hasArguments = true →
    ∃ rest, t.chars comma = t.name.chars ++ '<' :: rest
  | .named name [], has => by simp [hasArguments] at has
  | .named name (first :: rest), _ => ⟨_, by rw [chars, TypeExpr.name]⟩
  | .array item, has => by
    obtain ⟨rest, whole⟩ := exists_chars_of_hasArguments comma item has
    exact ⟨rest ++ ['[', ']'], by simp [chars, TypeExpr.name, whole]⟩

/-- Without type arguments there is no character in a type that cuts it short. -/
theorem ne_of_mem_chars (comma : List Char) : ∀ t : TypeExpr, t.hasArguments = false →
    ∀ c ∈ t.chars comma, isBlank c = false ∧ c ≠ '<'
  | .named name [], _, c, mem => by
    rw [chars] at mem
    have := name.ne_of_mem_chars mem
    exact ⟨this.1, this.2.1⟩
  | .named name (first :: rest), plain, _, _ => by simp [hasArguments] at plain
  | .array item, plain, c, mem => by
    rw [chars, List.mem_append] at mem
    rcases mem with inside | bracket
    · exact ne_of_mem_chars comma item plain c inside
    · have : c = '[' ∨ c = ']' := by simpa using bracket
      rcases this with rfl | rfl <;> decide

end TypeExpr

/-- **The kind that is found in the text of a type.** Brackets count if there are no type arguments
in front of them, and otherwise the last part of the outermost name does. -/
theorem ofTypeName_text (t : TypeExpr) (comma : String) :
    ofTypeName (t.text comma) =
      if t.isArray ∧ ¬ t.hasArguments then array else ofTypeName t.name.simple := by
  rw [TypeExpr.text, ofTypeName_simple]
  by_cases has : t.hasArguments = true
  · obtain ⟨rest, whole⟩ := t.exists_chars_of_hasArguments comma.toList has
    rw [whole, ofTypeName_chars t.name _ (by simp)]
    simp [has]
  · cases t with
    | named name arguments =>
      obtain rfl : arguments = [] := by simpa [TypeExpr.hasArguments] using has
      have found := ofTypeName_chars name [] nofun
      simpa [TypeExpr.chars, TypeExpr.isArray, TypeExpr.name] using found
    | array item =>
      have plain := TypeExpr.ne_of_mem_chars comma.toList (.array item) (by simpa using has)
      have trimmed : trim ((TypeExpr.array item).chars comma.toList) = _ :=
        trim_eq_self (by simp [TypeExpr.chars]) fun c mem => (plain c mem).1
      have found := ofTypeName_ofList [] (fun c mem => (plain c mem).2) nofun trimmed
      have brackets : before? ['[', ']'] ((TypeExpr.array item).chars comma.toList) =
          some (item.chars comma.toList) := before?_eq_some_iff.mpr rfl
      rw [List.append_nil, brackets] at found
      rw [found]
      simp [TypeExpr.isArray, has]

/-- **The kind that is found is the one that follows from the structure of the type**, an array for
arrays and otherwise what the last part of the outermost name stands for, unless the type is an
array whose items have type arguments and a name that stands for something else. Type arguments, as
they are spelled, and packages have no influence. -/
theorem kind_found_iff (t : TypeExpr) (comma : String) :
    ofTypeName (t.text comma) =
        (if t.isArray ∧ ¬ t.hasArguments then array else ofTypeName t.name.simple) ∧
      (ofTypeName (t.text comma) = t.kind ↔
        ¬ (t.isArray ∧ t.hasArguments ∧ ofTypeName t.name.simple ≠ array)) := by
  refine ⟨ofTypeName_text t comma, ?_⟩
  rw [ofTypeName_text, TypeExpr.kind]
  cases t.isArray <;> cases t.hasArguments <;> simp

/-- An array of maps from text to integers. -/
def arrayOfMaps : TypeExpr :=
  .array (.named ⟨["java", "util"], "Map", by decide⟩
    [.named ⟨[], "String", by decide⟩ [], .named ⟨["java", "lang"], "Integer", by decide⟩ []])

/-- **Brackets behind type arguments are lost**: an array of maps is not found to be an array. -/
theorem array_of_maps_is_no_array :
    arrayOfMaps.text "," = "java.util.Map<String,java.lang.Integer>[]" ∧
      arrayOfMaps.kind = array ∧ ofTypeName (arrayOfMaps.text ",") = object := by
  decide

end TemplateCompiler.PropType
