import TemplateCompiler.Text.Basic

/-!
# Blank characters

Two classes of blank character are in use. Expressions are trimmed by the Unicode property
`White_Space`; markup separates attributes by four ASCII characters only, so that a no-break
space is part of an attribute's name or value.

## Main definitions

* `Text.isBlank` — the Unicode property
* `Text.isMarkupBlank` — the separators of markup
* `Text.trim`, `Text.trimStart`, `Text.trimEnd` — text without blank ends
-/
namespace TemplateCompiler.Text

/-- The Unicode property `White_Space`. -/
def isBlank (c : Char) : Bool :=
  let n := c.toNat
  (9 ≤ n && n ≤ 13) || n == 32 || n == 0x85 || n == 0xa0 || n == 0x1680 ||
    (0x2000 ≤ n && n ≤ 0x200a) || n == 0x2028 || n == 0x2029 || n == 0x202f || n == 0x205f ||
    n == 0x3000

/-- The characters that separate the parts of a tag. -/
def isMarkupBlank (c : Char) : Bool := c == ' ' || c == '\t' || c == '\r' || c == '\n'

/-- The text without the blank characters it begins with. -/
def trimStart (cs : List Char) : List Char := cs.dropWhile isBlank

/-- The text without the blank characters it ends with. -/
def trimEnd (cs : List Char) : List Char := dropEndWhile isBlank cs

/-- The text without blank characters at either end. -/
def trim (cs : List Char) : List Char := trimEnd (trimStart cs)

end TemplateCompiler.Text
