import Stencil.Error
import Stencil.Span
import Stencil.Text.Blank
import Stencil.Text.Bytes
import Stencil.Text.Cut
import Stencil.Text.Width

namespace Stencil.Report

/-- A line of a source. -/
structure Line where
  /-- Counted from one. -/
  number : Nat
  /-- The offset of its first byte. -/
  start : Nat
  /-- Without its newline. -/
  text : List Char

def linesFrom (number start : Nat) : List (List Char) → List Line
  | [] => []
  | text :: rest => ⟨number, start, text⟩ :: linesFrom (number + 1) (start + Text.bytes text + 1) rest

def lines (source : List Char) : List Line := linesFrom 1 0 (Text.split '\n' source)

/-- The last line that starts at an offset or before it. -/
def lineAt (offset : Nat) (lines : List Line) : Line :=
  (lines.takeWhile fun line => decide (line.start ≤ offset)).getLast?.getD ⟨1, 0, []⟩

/-- How many characters end within the first bytes of a text. -/
def charsWithin : List Char → Nat → Nat
  | [], _ => 0
  | c :: cs, count => if c.utf8Size ≤ count then charsWithin cs (count - c.utf8Size) + 1 else 0

/-- Counted from one. -/
def Line.column (line : Line) (offset : Nat) : Nat := charsWithin line.text (offset - line.start) + 1

/-- What of a line is shown: not the carriage returns and NULs at its end. -/
def Line.shown (line : Line) : List Char :=
  (line.text.reverse.dropWhile fun c => c == '\r' || c == '\x00').reverse

/-- A character of a line as it is drawn. -/
structure Cell where
  char : Char
  /-- The byte of the line that it starts at. -/
  start : Nat
  size : Nat
  width : Nat

def tabWidth : Nat := 4

/-- Tabs reach to the next multiple of their width. -/
def cells (start column : Nat) : List Char → List Cell
  | [] => []
  | c :: cs =>
    let width := if c = '\t' then tabWidth - column % tabWidth else Text.width c
    ⟨c, start, c.utf8Size, width⟩ :: cells (start + c.utf8Size) (column + width) cs

def draw : List Cell → List Char
  | [] => []
  | cell :: rest =>
    (if cell.char = '\t' then List.replicate cell.width ' ' else [cell.char]) ++ draw rest

/-- Carets under the cells that bytes `start` up to `stop` touch, blanks under those before. -/
def carets (start stop : Nat) : List Cell → List Char
  | [] => []
  | cell :: rest =>
    let mark :=
      if max start cell.start < min stop (cell.start + cell.size) then List.replicate cell.width '^'
      else if cell.start < stop then List.replicate cell.width ' '
      else []
    mark ++ carets start stop rest

/-- A rule as wide as the cells that start before a byte. -/
def rule (before : Nat) : List Cell → List Char
  | [] => []
  | cell :: rest =>
    if cell.start < before then List.replicate cell.width '─' ++ rule before rest else []

/-- Left margin without a number. -/
def margin (pad : Nat) : List Char := List.replicate (pad + 1) ' '

def numberMargin (pad number : Nat) : List Char :=
  let digits := Nat.toDigits 10 number
  List.replicate (pad - digits.length) ' ' ++ digits ++ [' ']

/-- An excerpt of one line with a caret under each column of the span, one at least. -/
def single (pad : Nat) (line : Line) (span : Span) : List (List Char) :=
  let text := cells 0 0 line.shown
  let start := span.start - line.start
  let stop := max (span.stop - line.start) (start + 1)
  -- one further column, for carets at the end of the line
  let last : Cell := ⟨' ', Text.bytes line.shown, 1, 1⟩
  [margin pad ++ ['│'],
    numberMargin pad line.number ++ ['│', ' '] ++ draw text,
    margin pad ++ ['│', ' '] ++ carets start stop (text ++ [last])]

/-- What a line of a longer excerpt is to the span. -/
inductive Mark where
  /-- The span starts at this byte of the line. -/
  | top (start : Nat)
  | inside
  /-- The span ends before this byte of the line. -/
  | bottom (stop : Nat)
  | outside

/-- A span that starts after blanks only needs no line of its own for its start. -/
def startsLine (line : Line) (start : Nat) : Bool :=
  decide (start ≤ Text.bytes (line.shown.takeWhile Text.isBlank))

/-- The two columns between the border and a line. -/
def Mark.gutter (line : Line) : Mark → List Char
  | top start => if startsLine line start then [' ', '╭'] else [' ', ' ']
  | inside => [' ', '│']
  | bottom _ => [' ', '│']
  | outside => [' ', ' ']

/-- A line and what stands below it. -/
def markedLine (pad : Nat) (line : Line) (mark : Mark) : List (List Char) :=
  let text := cells 0 0 line.shown
  let first := numberMargin pad line.number ++ ['│'] ++ mark.gutter line ++ [' '] ++ draw text
  match mark with
  | .top start =>
    if startsLine line start then [first]
    else [first, margin pad ++ ['│', ' ', '╭'] ++ rule (start + 1) text ++ ['^']]
  | .bottom stop => [first, margin pad ++ ['│', ' ', '╰'] ++ rule stop text ++ ['^']]
  | _ => [first]

/-- Stands for lines that are left out after one with this mark. -/
def ellipsis (pad : Nat) : Mark → List Char
  | .inside => margin pad ++ ['·', ' ', '│']
  | .bottom _ => margin pad ++ ['·', ' ', '│']
  | _ => margin pad ++ ['·', ' ', ' ']

/-- Lines of context after the first line of a span, and before the last. -/
def startContext : Nat := 3

def endContext : Nat := 1

def mark (first last : Line) (span : Span) (line : Line) : Mark :=
  if line.number = first.number then .top (span.start - line.start)
  else if line.number = last.number then .bottom (span.stop - line.start)
  else if first.number < line.number ∧ line.number < last.number then .inside
  else .outside

def isShown (first last line : Line) : Bool :=
  line.number == first.number || line.number == last.number ||
    (decide (first.number < line.number ∧ line.number < last.number) &&
      decide (line.number - first.number ≤ startContext ∨ last.number - line.number ≤ endContext))

/-- A line that is left out alone is shown after all; of more a sign is left. -/
def gap (pad : Nat) (before : Mark) : List (Line × Mark) → List (List Char)
  | [] => []
  | [(line, mark)] => markedLine pad line mark
  | _ => [ellipsis pad before]

/-- Draws lines one after another; `hidden` are those that are left out since the last one, which
    had the mark `before`. -/
def excerpt (pad : Nat) (isShown : Line → Bool) (before : Mark) (hidden : List (Line × Mark)) :
    List (Line × Mark) → List (List Char)
  | [] => []
  | (line, mark) :: rest =>
    if isShown line then
      gap pad before hidden ++ markedLine pad line mark ++ excerpt pad isShown mark [] rest
    else excerpt pad isShown before (hidden ++ [(line, mark)]) rest

/-- An excerpt of all lines that a span reaches over, joined by a bracket. -/
def several (pad : Nat) (lines : List Line) (first last : Line) (span : Span) : List (List Char) :=
  let reached := lines.filter fun line =>
    decide (min first.number last.number ≤ line.number ∧ line.number ≤ max first.number last.number)
  (margin pad ++ ['│', ' ', ' ']) ::
    excerpt pad (isShown first last) .outside [] (reached.map fun line => (line, mark first last span line))

/-- The place that a report names: the line and the column of the start of a span. -/
def location (source : List Char) (span : Span) : Nat × Nat :=
  let line := lineAt span.start (lines source)
  (line.number, line.column span.start)

/-- The report on one error: what is wrong, where, and the text there. -/
def ofError (name : String) (source : List Char) (e : Spanned TemplateError) : List (List Char) :=
  let span := e.span.clamp (Text.bytes source)
  let lines := lines source
  let first := lineAt span.start lines
  let last := lineAt span.stop lines
  let pad := (Nat.toDigits 10 (max first.number last.number)).length
  let (number, column) := location source span
  let place := name ++ ":" ++ toString number ++ ":" ++ toString column
  ("error[" ++ e.value.kind ++ "]: " ++ e.value.detail).toList ::
    (margin pad ++ ['┌', '─', ' '] ++ place.toList) ::
    (if first.number = last.number then single pad first span
      else several pad lines first last span) ++ [[]]

/-- Reports on errors, one after another. -/
def ofErrors (name source : String) (es : List (Spanned TemplateError)) : String :=
  String.ofList ((es.flatMap (ofError name source.toList)).flatMap (· ++ ['\n']))

end Stencil.Report
