import TemplateCompiler.Diagnostic
import TemplateCompiler.Text.Blank

/-!
# Reports

A report shows a problem to people: the line or lines of the template that it concerns, with an
arrow to the place, in colours of the terminal. Spans count bytes; a report counts characters.

## Main definitions

* `Report.Line`, `Report.splitLines` — the lines of a source
* `Report.Layout` — where the problem lies in the source
* `Report.singleLine`, `Report.multiLine` — the two ways to show it
* `Diagnostic.report` — the report
-/
namespace TemplateCompiler

namespace Report

open Text

/-! ## Colours -/

/-- Colours, by what they are used for. -/
inductive Colour where
  /-- The problem. -/
  | problem
  /-- Frame and line numbers. -/
  | margin
  /-- The frame where it is passed over. -/
  | skipped
  /-- Text that has no problem. -/
  | unimportant

/-- The code that switches a colour on. -/
def Colour.code : Colour → String
  | problem => "31"
  | margin => "38;5;246"
  | skipped => "38;5;240"
  | unimportant => "38;5;249"

/-- Text in a colour. -/
def paint (colour : Colour) (text : String) : String :=
  "\x1b[" ++ colour.code ++ "m" ++ text ++ "\x1b[0m"

/-- Text whose characters are each painted on their own. -/
def paintEach (colour : Colour) (cs : List Char) : String :=
  String.join (cs.map fun c => paint colour (String.singleton c))

/-- A number of blanks. -/
def blanks (n : Nat) : String := String.ofList (List.replicate n ' ')

/-! ## Lines -/

/-- A line of a source. -/
structure Line where
  /-- How many characters precede the line. -/
  offset : Nat
  /-- How many characters it has, its terminator included. -/
  length : Nat
  /-- Its text without the blanks at the end. -/
  text : List Char
  deriving Repr

/-- Whether a character ends a line. A line feed after a carriage return belongs to the same end. -/
def endsLine (c : Char) : Bool :=
  let n := c.toNat
  (10 ≤ n && n ≤ 13) || n == 0x85 || n == 0x2028 || n == 0x2029

/-- The line at `offset` with the given characters, last first. -/
def lineOf (offset : Nat) (reversed : List Char) : Line :=
  ⟨offset, reversed.length, (reversed.dropWhile isBlank).reverse⟩

/-- The lines of the rest of a source. The line under way has the characters `reversed`, last
first. -/
def splitLinesFrom (offset : Nat) (reversed : List Char) : List Char → List Line
  | [] => if reversed.isEmpty then [] else [lineOf offset reversed]
  | c :: rest =>
    let line := c :: reversed
    if endsLine c && !(c == '\r' && rest.head? == some '\n') then
      lineOf offset line :: splitLinesFrom (offset + line.length) [] rest
    else splitLinesFrom offset line rest

/-- The lines of a source. -/
def splitLines (source : List Char) : List Line := splitLinesFrom 0 [] source

/-- The number, from zero, of the last line that does not begin after a character, and the line. -/
def lineAt? (lines : List Line) (char : Nat) : Option (Nat × Line) :=
  (lines.zipIdx.map fun (line, index) => (index, line)).reverse.find? fun numbered =>
    numbered.2.offset ≤ char

/-- The width of a character in a column: a tab reaches to the next multiple of four. -/
def widthAt (line : Line) (column : Nat) : Nat :=
  if line.text[column]? = some '\t' then 4 - column % 4 else 1

/-! ## Layout -/

/-- Where a problem lies: its characters, and the lines on which it begins and ends. -/
structure Layout where
  start : Nat
  stop : Nat
  firstIndex : Nat
  first : Line
  lastIndex : Nat
  last : Line
  /-- The width of line numbers. -/
  width : Nat
  /-- What is written at the arrow. -/
  label : String

/-- Whether the character belongs to the problem. -/
def Layout.covers (l : Layout) (char : Nat) : Bool := l.start ≤ char && char < l.stop

/-- The margin of a numbered line. -/
def Layout.numberMargin (l : Layout) (index : Nat) : String :=
  let number := toString (index + 1)
  " " ++ paint .margin (blanks (l.width - number.length) ++ number ++ " │") ++ " "

/-- The margin of a line without a number. -/
def Layout.emptyMargin (l : Layout) (mark : String) : String :=
  " " ++ paint .skipped (blanks (l.width + 1) ++ mark) ++ " "

/-- A line of the source. Blanks are shown as blanks, a tab as several. -/
def Layout.sourceText (l : Layout) (line : Line) : String :=
  String.join <| line.text.zipIdx.map fun (c, column) =>
    let colour := if l.covers (line.offset + column) then Colour.problem else .unimportant
    if isBlank c then paintEach colour (List.replicate (widthAt line column) ' ')
    else paintEach colour [c]

/-! ## A problem on one line -/

/-- The column of the arrow. -/
def Layout.pivot (l : Layout) : Nat := max ((l.start + l.stop) / 2) l.start - l.first.offset

/-- A mark in the problem's colour, or a plain blank. -/
def glyph (mark : Option Char) : String :=
  match mark with
  | some c => paint .problem (String.singleton c)
  | none => " "

/-- A column of an arrow: the mark at its place and another for the rest of its width. -/
def glyphs (mark tail : Option Char) (width : Nat) : String :=
  glyph mark ++ String.join (List.replicate (width - 1) (glyph tail))

/-- The columns under a line that the arrow takes. -/
def Layout.columns (l : Layout) : List Nat := List.range (l.stop - l.first.offset + 2)

/-- The row that underlines the problem. -/
def Layout.underline (l : Layout) : String :=
  String.join <| l.columns.map fun column =>
    let covered := l.covers (l.first.offset + column)
    let line := if covered then some '─' else none
    if column = l.pivot then
      glyphs (some (if covered then '┬' else '│')) (if covered then some '─' else some ' ')
        (widthAt l.first column)
    else glyphs line line (widthAt l.first column)

/-- The row that leads to the label. -/
def Layout.arrow (l : Layout) : String :=
  String.join <| l.columns.map fun column =>
    let line := if l.pivot ≤ column then some '─' else none
    glyphs (if column = l.pivot then some '╰' else line) line (widthAt l.first column)

/-- The lines that show a problem on one line. -/
def singleLine (l : Layout) : List String :=
  [l.numberMargin l.firstIndex ++ l.sourceText l.first,
   l.emptyMargin "│" ++ l.underline,
   l.emptyMargin "│" ++ l.arrow ++ " " ++ l.label]

/-! ## A problem on several lines -/

/-- How far the label stands to the right: two columns after the last line. -/
def Layout.reach (l : Layout) : Nat :=
  ((List.range (l.last.length + 2)).map (widthAt l.last)).foldr (· + ·) 0

/-- The lines that show a problem on several lines: the first and the last one of them, with a
mark for those between. -/
def multiLine (l : Layout) : List String :=
  let red (text : String) : String := paintEach .problem text.toList
  let between :=
    if l.firstIndex + 1 < l.lastIndex then [l.emptyMargin "┆" ++ red "┆" ++ blanks 3] else []
  [l.numberMargin l.firstIndex ++ red "╭─▶ " ++ l.sourceText l.first] ++ between ++
    [l.numberMargin l.lastIndex ++ red "├─▶ " ++ l.sourceText l.last,
     l.emptyMargin "│" ++ red "│" ++ blanks 3 ++ blanks l.reach,
     l.emptyMargin "│" ++ red "╰───" ++ paintEach .problem (List.replicate l.reach '─') ++ " " ++
       l.label]

/-! ## The report -/

/-- The label of a problem: its message and what was expected instead. -/
def label (d : Diagnostic) : String :=
  d.message ++
    if d.expected.isEmpty then "" else "\nExpected: " ++ String.intercalate ", " d.expected

/-- Where a problem lies in a source that has any lines. A place past the end counts as the end. -/
def layout? (source : List Char) (d : Diagnostic) : Option Layout :=
  let start := (takeBytes d.span.start source).length
  let stop := (takeBytes d.span.stop source).length
  let final := max (stop - 1) start
  let lines := splitLines source
  match lineAt? lines start, lineAt? lines final with
  | some (firstIndex, first), some (lastIndex, last) =>
    some
      { start, stop, firstIndex, first, lastIndex, last
        width := (toString (lastIndex + 1)).length
        label := label d }
  | _, _ => none

/-- The lines of a report after its headline. -/
def body (filename : String) (l : Layout) : List String :=
  let place := filename ++ ":" ++ toString (l.firstIndex + 1) ++ ":" ++
    toString (l.start - l.first.offset + 1)
  let frame := blanks (l.width + 2)
  [frame ++ paintEach .margin ['╭', '─', '['] ++ place ++ paint .margin "]",
   frame ++ paint .margin "│"] ++
    (if l.firstIndex = l.lastIndex then singleLine l else multiLine l) ++
    [paint .margin (String.ofList (List.replicate (l.width + 2) '─') ++ "╯")]

end Report

/-- The report about a problem with a template that comes from a file. -/
def Diagnostic.report (d : Diagnostic) (source filename : String) : String :=
  let headline := Report.paint .problem "Error:" ++ " " ++ d.message
  let rest := match Report.layout? source.toList d with
    | some l => Report.body filename l
    | none => []
  String.join ((headline :: rest).map (· ++ "\n"))

end TemplateCompiler
