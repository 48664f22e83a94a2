/-!
# How patterns are matched

The tokens of markup are given by patterns, and the package logos generates the matcher from them.
Its matchers do less than the patterns say: once they have begun a longer token they do not go back
to what a shorter one needs, and how far they get may change with the release. `Matching` lists what
is left to the package; whatever reads markup takes it as a parameter. No theorem depends on the
choice, unless it is about a fixed text.

The program runs with `Matching.committed`, which is what the matchers of logos 0.14 do when they are
run: `<a b />` gives a stray bracket and text. The departures from the patterns as they are written:

* Blanks behind the name of a tag, or behind a value, have to lead to another attribute, and blanks
  behind an attribute without a value to its equals sign. So `<p >`, `<p a />`, `<p a b>` and
  `<p a="b" >` are no tags.
* Where a longer token has been begun and is not completed, an error is reported instead of the
  bracket, the brace or the two braces that it began with.
* Of three braces that end the markup, the last one closing, the first two are a stray token.

Other matchers of the patterns get further. One with `toEnd .bare` takes `<p a >` as a tag, and what
is stated about markup holds of its tokens as well.

## Main definitions

* `Markup.TagPart` — what blanks in an opening tag stand behind
* `Markup.Matching` — what is left to the package
* `Markup.Matching.committed` — the matcher that the program runs with
* `Markup.Matching.written` — a matcher of the patterns as they are written
-/
namespace TemplateCompiler.Markup

/-- A part of an opening tag that blanks may stand behind. -/
inductive TagPart where
  /-- The name of the tag. -/
  | name
  /-- An attribute without a value. -/
  | bare
  /-- The value of an attribute. -/
  | value
  deriving DecidableEq, Repr

/-- What the patterns of tokens leave to the matcher. -/
class Matching where
  /-- Blanks behind the part may lead to another attribute. -/
  toAttribute : TagPart → Bool
  /-- Blanks behind the part may lead to the end of the tag. -/
  toEnd : TagPart → Bool
  /-- Two braces in front of a closing one that ends the markup are a stray token. -/
  strayBraces : Bool
  /-- Markup that begins no longer token is matched by what a longer one would begin with.
  Otherwise an error is reported. -/
  fallsBack : List Char → Bool

namespace Matching

/-- Blanks are matched as the beginning of what the pattern names first behind them. -/
@[reducible] def committed : Matching where
  toAttribute
    | .name | .value => true
    | .bare => false
  toEnd _ := false
  strayBraces := true
  fallsBack
    | '<' :: c :: _ => !(c == '!' || c == '/' || c.isAlpha)
    | '{' :: '{' :: _ :: _ => false
    | _ => true

/-- Everything that a pattern describes is matched, and the longest token is taken. -/
@[reducible] def written : Matching where
  toAttribute _ := true
  toEnd _ := true
  strayBraces := false
  fallsBack _ := true

end Matching

instance : Matching := .committed

end TemplateCompiler.Markup
