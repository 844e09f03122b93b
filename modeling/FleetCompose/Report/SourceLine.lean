import FleetCompose.Text.Blank
import FleetCompose.Text.Glyph

/-!
# Lines of a source

A report cuts a source into lines at every kind of line end, and it counts characters. A
carriage return and a line feed are one line end.
-/

namespace FleetCompose.Report

/-- A line of a source, with its line end: its number counted from zero, how many characters
are in front of it, and its characters. -/
structure SourceLine where
  number : Nat
  start : Nat
  chars : List Char
  deriving DecidableEq, Repr

/-- Does the character end a line? -/
def endsLine (c : Char) : Bool :=
  c ∈ ['\r', '\n', '\x0B', '\x0C', '\u0085', '\u2028', '\u2029']

namespace SourceLine

/-- How many characters are in front of the next line. -/
def stop (line : SourceLine) : Nat := line.start + line.chars.length

/-- Cut characters into lines; the line that is being read is kept in reverse. -/
def cut (number start : Nat) (reversed : List Char) : List Char → List SourceLine
  | [] => if reversed.isEmpty then [] else [⟨number, start, reversed.reverse⟩]
  | '\r' :: '\n' :: cs =>
      let line : SourceLine := ⟨number, start, ('\n' :: '\r' :: reversed).reverse⟩
      line :: cut (number + 1) line.stop [] cs
  | c :: cs =>
      if endsLine c then
        let line : SourceLine := ⟨number, start, (c :: reversed).reverse⟩
        line :: cut (number + 1) line.stop [] cs
      else cut number start (c :: reversed) cs

/-- The lines of a source. -/
def ofSource (source : String) : List SourceLine := cut 0 0 [] source.toList

/-- The line of a position; the end of the source is on the last line. -/
def at? (lines : List SourceLine) (position : Nat) : Option SourceLine :=
  match lines.getLast? with
  | none => none
  | some last =>
      if last.stop < position then none
      else if last.start ≤ position then some last
      else lines.find? fun line => position < line.stop

/-- The characters of a line that are shown. -/
def shown (line : SourceLine) : List Char := Text.dropEndWhile Text.isBlank line.chars

/-- How a character in some column is shown: blanks as spaces, and a tab as many of them as it
takes to the next column that is a multiple of four. -/
def glyph (column : Nat) (c : Char) : Char × Nat :=
  if c = '\t' then (' ', (column / 4 + 1) * 4 - column)
  else if Text.isBlank c then (' ', 1)
  else (c, Text.glyphWidth c)

/-- How wide a column of a line is. Behind the end of the line each column has a width of
one. -/
def widthAt (line : SourceLine) (column : Nat) : Nat :=
  match line.shown[column]? with
  | some c => (glyph column c).2
  | none => 1

end SourceLine

end FleetCompose.Report
