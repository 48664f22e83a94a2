import TemplateCompiler.Markup.Directive
import TemplateCompiler.Markup.TagToken

/-!
# Elements

An opening tag as a name and attributes. The span of an attribute's value covers the text
between the quotes, so that replacing the text at the span leaves the quoting as it was.

## Main definitions

* `Markup.Located` — text with the byte span it came from
* `Markup.Attribute`, `Markup.Element`
* `Markup.Element.ofTag` — read an opening tag
* `Markup.Element.opensScope` — whether a closing tag is due
-/
namespace TemplateCompiler.Markup

open Text

/-- Text with the byte span it came from. -/
structure Located where
  text : String
  span : Span
  deriving DecidableEq, Repr, Inhabited

/-- An attribute inside an opening tag. -/
structure Attribute where
  name : Located
  value : Option Located
  deriving DecidableEq, Repr

/-- What the attribute asks for. -/
def Attribute.directive (a : Attribute) : Directive :=
  Directive.classify a.name.text

/-- An opening tag with its attributes. -/
structure Element where
  name : String
  attributes : List Attribute
  /-- The tag ends in a slash and a bracket. -/
  selfClosing : Bool
  span : Span
  deriving DecidableEq, Repr

/-- The attributes among the tokens of a tag: every word that is not itself a value. A value is
the quoted text or word right after an equals sign. -/
def attributesOf : List (TagToken × Span) → List Attribute
  | (.word name, at_) :: (.equals, _) :: (.quoted value, span) :: rest =>
    ⟨⟨name, at_⟩, some ⟨value, ⟨span.start + 1, span.stop - 1⟩⟩⟩ :: attributesOf rest
  | (.word name, at_) :: (.equals, _) :: (.word value, span) :: rest =>
    ⟨⟨name, at_⟩, some ⟨value, span⟩⟩ :: attributesOf rest
  | (.word name, at_) :: (.equals, _) :: rest => ⟨⟨name, at_⟩, none⟩ :: attributesOf rest
  | (.word name, at_) :: rest => ⟨⟨name, at_⟩, none⟩ :: attributesOf rest
  | _ :: rest => attributesOf rest
  | [] => []

/-- The last tag name among the tokens. -/
def tagNameOf (tokens : List (TagToken × Span)) : String :=
  (tokens.filterMap fun token =>
    match token.1 with
    | .tagName name => some name
    | _ => none).getLast?.getD ""

namespace Element

/-- Read the text of an opening tag that begins at byte `offset` of the template. -/
def ofTag (tag : List Char) (offset : Nat) : Element :=
  let tokens := lexTag tag offset
  { name := tagNameOf tokens
    attributes := attributesOf tokens
    selfClosing := tokens.any fun token => token.1 == .selfClose
    span := ⟨offset, offset + byteLength tag⟩ }

/-- The elements that never have a closing tag. -/
def voidNames : List String :=
  ["area", "base", "br", "col", "embed", "hr", "img", "input", "link", "meta", "param",
   "source", "track", "wbr"]

/-- A name with its ASCII letters in lower case; tag names are compared this way. -/
def foldName (name : String) : String := String.ofList (name.toList.map Char.toLower)

/-- Whether the element opens a scope that a closing tag ends. -/
def opensScope (element : Element) : Bool :=
  !element.selfClosing && !voidNames.contains (foldName element.name)

end Element

end TemplateCompiler.Markup
