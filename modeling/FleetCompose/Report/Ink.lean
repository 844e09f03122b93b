/-!
# Ink

Reports are coloured for terminals. A stroke is a text in one ink, or in none.
-/

namespace FleetCompose.Report

/-- The inks of a report: for what went wrong, for the frame, for rows of the frame between
lines, and for the parts of the source that are not marked. -/
inductive Ink where
  | fault
  | frame
  | gap
  | faint
  deriving DecidableEq, Repr

/-- The colour of an ink, as terminals know it. -/
def Ink.code : Ink → String
  | .fault => "31"
  | .frame => "38;5;246"
  | .gap => "38;5;240"
  | .faint => "38;5;249"

/-- A text in an ink, for a terminal. -/
def Ink.paint (ink : Ink) (text : String) : String :=
  "\x1b[" ++ ink.code ++ "m" ++ text ++ "\x1b[0m"

/-- A character, in an ink or in none. -/
structure Dot where
  ink : Option Ink
  char : Char
  deriving DecidableEq, Repr

/-- A character in no ink. -/
def Dot.blank : Dot := ⟨none, ' '⟩

/-- A character that marks what went wrong. -/
def Dot.mark (char : Char) : Dot := ⟨some .fault, char⟩

/-- A character, for a terminal. -/
def Dot.text (dot : Dot) : String :=
  match dot.ink with
  | some ink => ink.paint dot.char.toString
  | none => dot.char.toString

/-- Characters in their order, for a terminal. -/
def dotsText (dots : List Dot) : String := String.join (dots.map Dot.text)

end FleetCompose.Report
