/-!
# Lines of generated source

Source text is generated line by line. A block's lines are indented by four blanks more than the
line that opens it.

## Main definitions

* `SourceText` — the lines so far and how many blocks are open
* `SourceText.line`, `SourceText.openBlock`, `SourceText.closeBlock` — one more line
* `SourceText.render` — the text of all lines
-/
namespace TemplateCompiler

/-- Source text under construction. -/
structure SourceText where
  lines : Array String
  /-- How many blocks are open. -/
  depth : Nat
  deriving Repr

namespace SourceText

/-- No lines yet. -/
def empty : SourceText := ⟨#[], 0⟩

/-- The blanks in front of a line. -/
def indentation (depth : Nat) : String := String.ofList (List.replicate (4 * depth) ' ')

/-- Add a line. An empty line is not indented. -/
def line (s : SourceText) (text : String) : SourceText :=
  { s with lines := s.lines.push (if text = "" then "" else indentation s.depth ++ text) }

/-- Add the line that opens a block. -/
def openBlock (s : SourceText) (header : String) : SourceText :=
  let opened := s.line (header ++ " \x7b")
  { opened with depth := s.depth + 1 }

/-- Add the line that closes the innermost block. Where none is open the line is added all the
same. -/
def closeBlock (s : SourceText) : SourceText :=
  let outer := { s with depth := s.depth - 1 }
  outer.line "\x7d"

/-- Add several lines. -/
def append (s : SourceText) (texts : List String) : SourceText := texts.foldl line s

/-- The text of all lines. The last one is ended, too. -/
def render (s : SourceText) : String := String.intercalate "\n" s.lines.toList ++ "\n"

@[simp] theorem depth_line (s : SourceText) (text : String) : (s.line text).depth = s.depth := rfl
@[simp] theorem depth_openBlock (s : SourceText) (header : String) :
    (s.openBlock header).depth = s.depth + 1 := rfl
@[simp] theorem depth_closeBlock (s : SourceText) : s.closeBlock.depth = s.depth - 1 := rfl

end SourceText

end TemplateCompiler
