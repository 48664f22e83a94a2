import TemplateCompiler.Assembly.Options
import TemplateCompiler.Text.LetterCase

/-!
# Tag names

A component nested in a template is written with a tag. Its name is that of the component's type
in lower case, with a hyphen in front of each word: `todo.TodoItemComponent` becomes `todo-item`.

## Main definitions

* `tagStem` — the type's name without qualifiers and ending
* `tagName` — the name of the tag
-/
namespace TemplateCompiler

/-- The last part of a qualified name, without the ending that component types have, unless the
ending is all there is. -/
def tagStem (typeName : String) : List Char :=
  let simple := PropType.lastPiece (fun c => c == '.' || c == ':') typeName.toList
  match Text.before? "Component".toList simple with
  | some (c :: stem) => c :: stem
  | _ => simple

/-- Whether a capital letter begins a word: after a small letter or a digit, or as the last of
several capitals when a small letter follows. -/
def beginsWord (before next : Option Char) : Bool :=
  before.any fun b =>
    Text.isLowercase b || b.isDigit || (Text.isUppercase b && next.any Text.isLowercase)

/-- Words in lower case with hyphens between them, after the character `before`. -/
def hyphenate (before : Option Char) : List Char → List Char
  | [] => []
  | c :: rest =>
    let hyphen := if Text.isUppercase c && beginsWord before rest.head? then ['-'] else []
    hyphen ++ (Text.toLowercase c ++ hyphenate (some c) rest)

/-- The name of the tag for components of a type. -/
def tagName (typeName : String) : String := String.ofList (hyphenate none (tagStem typeName))

end TemplateCompiler
