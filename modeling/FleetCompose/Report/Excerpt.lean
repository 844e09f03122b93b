import FleetCompose.Report.Ink
import FleetCompose.Report.SourceLine

/-!
# Excerpts

An excerpt shows the lines of a source that a range of characters touches, in a frame. The
range is underlined or bracketed, and a message is attached to it. Of several lines only the
first and the last one are shown, and a row with dots stands for the others.
-/

namespace FleetCompose.Report

/-- The range of characters that a message is about. -/
structure Label where
  start : Nat
  stop : Nat
  message : String
  deriving DecidableEq, Repr

namespace Label

/-- The last character of a range, or the place of an empty one. -/
def last (label : Label) : Nat := max (label.stop - 1) label.start

/-- Is a position in the range? -/
def covers (label : Label) (position : Nat) : Bool :=
  label.start ≤ position && position < label.stop

end Label

/-- A text in front of which there are spaces up to some width. -/
def padLeft (width : Nat) (text : String) : String :=
  "".pushn ' ' (width - text.length) ++ text

/-! ## Rows -/

/-- The frame left of a line. -/
def lineFrame (width : Nat) (line : SourceLine) : String :=
  " " ++ Ink.frame.paint (padLeft width (Nat.repr (line.number + 1)) ++ " │") ++ " "

/-- The frame left of a row below a line, or of the row for lines that are not shown. -/
def gapFrame (width : Nat) (bar : String) : String :=
  " " ++ Ink.gap.paint (padLeft (width + 1) "" ++ bar) ++ " "

/-- A line; the characters of the range are marked. -/
def lineText (label : Label) (line : SourceLine) : String :=
  dotsText <| (line.shown.zipIdx).flatMap fun (c, column) =>
    let ink := if label.covers (line.start + column) then Ink.fault else Ink.faint
    let (image, width) := SourceLine.glyph column c
    List.replicate (if image = ' ' then width else 1) ⟨some ink, image⟩

/-- A row of columns below a line: the first character of each column and the one that fills
it up. -/
def columnRow (line : SourceLine) (count : Nat) (column : Nat → Dot × Dot) : String :=
  dotsText <| (List.range count).flatMap fun index =>
    let (first, filler) := column index
    match line.widthAt index with
    | 0 => []
    | width + 1 => first :: List.replicate width filler

/-! ## Ranges of one line -/

/-- The column below which the message is attached. -/
def Label.anchor (label : Label) (line : SourceLine) : Nat :=
  max ((label.start + label.stop) / 2) label.start - line.start

/-- The underline below a line. An empty range has none, only the stem of the message. -/
def underline (label : Label) (line : SourceLine) (index : Nat) : Dot × Dot :=
  let inside := label.covers (line.start + index)
  if index = label.anchor line then
    if inside then (.mark '┬', .mark '─') else (.mark '│', .mark ' ')
  else if inside then (.mark '─', .mark '─')
  else (.blank, .blank)

/-- The arm from the stem to the message. -/
def arm (label : Label) (line : SourceLine) (index : Nat) : Dot × Dot :=
  if index = label.anchor line then (.mark '╰', .mark '─')
  else if label.anchor line < index then (.mark '─', .mark '─')
  else (.blank, .blank)

/-- The rows for a range of one line. A range that goes over the end of the source leaves an
empty row. -/
def inlineRows (width : Nat) (label : Label) (line : SourceLine) : List String :=
  if line.stop < label.stop then [gapFrame width "│"]
  else
    let count := label.stop - line.start + 2
    [lineFrame width line ++ lineText label line,
     gapFrame width "│" ++ columnRow line count (underline label line),
     gapFrame width "│" ++ columnRow line count (arm label line) ++ " " ++ label.message]

/-! ## Ranges of several lines -/

/-- The first line of a range, with the upper corner of a bracket. -/
def openingRow (width : Nat) (label : Label) (line : SourceLine) : String :=
  lineFrame width line ++ dotsText ("╭─▶ ".toList.map Dot.mark) ++ lineText label line

/-- The row for the lines that are not shown. -/
def hiddenRow (width : Nat) : String :=
  gapFrame width "┆" ++ dotsText [.mark '┆', .blank, .blank, .blank]

/-- The last line of a range, and the rest of the bracket with the message. -/
def closingRows (width : Nat) (label : Label) (line : SourceLine) : List String :=
  let count := line.chars.length + 2
  [lineFrame width line ++ dotsText ("├─▶ ".toList.map Dot.mark) ++ lineText label line,
   gapFrame width "│" ++ dotsText [.mark '│', .blank, .blank, .blank] ++
     columnRow line count fun _ => (.blank, .blank),
   gapFrame width "│" ++ dotsText ("╰───".toList.map Dot.mark) ++
     columnRow line count (fun _ => (.mark '─', .mark '─')) ++ " " ++ label.message]

/-- The rows for a range from one line to a later one. A range that goes over the end of the
source is not closed. -/
def multilineRows (width : Nat) (label : Label) (first last : SourceLine) : List String :=
  let closed := label.last < last.stop
  let hidden := last.number - first.number - if closed then 1 else 0
  [openingRow width label first] ++
    (if hidden = 0 then [] else [hiddenRow width]) ++
    (if closed then closingRows width label last else [])

/-! ## Excerpts -/

/-- The excerpt of a range of a source that is called `name`. There is none if the range is
not in the source. -/
def excerpt (name source : String) (label : Label) : List String :=
  let lines := SourceLine.ofSource source
  match SourceLine.at? lines label.start, SourceLine.at? lines label.last with
  | some first, some last =>
      let width := (Nat.repr (last.number + 1)).length
      let indent := padLeft (width + 2) ""
      let place := ":" ++ Nat.repr (first.number + 1) ++ ":" ++
        Nat.repr (label.start - first.start + 1)
      let rows :=
        if first.number = last.number then inlineRows width label first
        else multilineRows width label first last
      [indent ++ Ink.frame.paint "╭" ++ Ink.frame.paint "─" ++ Ink.frame.paint "[" ++ name ++
         place ++ Ink.frame.paint "]",
       indent ++ Ink.frame.paint "│"] ++ rows ++
      [Ink.frame.paint ("".pushn '─' (width + 2) ++ "╯")]
  | _, _ => []

end FleetCompose.Report
