import FleetCompose.Text.Identifier

/-!
# Placeholders

A placeholder is an identifier between double braces, with spaces or tabs just inside the
braces: two opening braces, blanks, the name, blanks, two closing braces. A text is cut
into its placeholders and the literal text between them. Opening braces are taken in pairs
from the left, and those that do not belong to a placeholder are literal text.
-/

namespace FleetCompose.Template

/-- Spaces and tabs may pad a name inside its braces. -/
def isPad (c : Char) : Bool := c == ' ' || c == '\t'

/-- A piece of a text. -/
inductive Segment where
  | literal (text : String)
  | placeholder (name raw : String)
  deriving DecidableEq, Repr

/-- The exact text of a segment. -/
def Segment.text : Segment → String
  | .literal text => text
  | .placeholder _ raw => raw

/-- A placeholder at the front of a list of characters. -/
structure Match where
  name : List Char
  raw : List Char
  rest : List Char
  deriving DecidableEq, Repr

/-- The placeholder at the front of a list of characters, if there is one. -/
def match? : List Char → Option Match
  | '{' :: '{' :: cs =>
      let padding := cs.takeWhile isPad
      let cs := cs.dropWhile isPad
      let name := cs.takeWhile continuesName
      let cs := cs.dropWhile continuesName
      let closing := cs.takeWhile isPad
      match cs.dropWhile isPad with
      | '}' :: '}' :: rest =>
          if Text.isIdentifierChars name then
            some ⟨name, ['{', '{'] ++ padding ++ name ++ closing ++ ['}', '}'], rest⟩
          else none
      | _ => none
  | _ => none
where
  /-- The characters that a name is made of. -/
  continuesName (c : Char) : Bool := Text.continuesIdentifier c

/-- The literal segment for the characters read so far, if there are any; they are kept
in reverse. -/
def literalSegment (reversed : List Char) : List Segment :=
  if reversed.isEmpty then [] else [.literal (String.ofList reversed.reverse)]

/-- Cut a list of characters into segments. `skip` characters belong to a placeholder that
is a segment already, and `reversed` holds the literal text read so far. Two opening braces
that begin no placeholder are literal together, so the second of them begins none either. -/
def segmentsFrom : (skip : Nat) → (reversed : List Char) → List Char → List Segment
  | _, reversed, [] => literalSegment reversed
  | skip + 1, reversed, _ :: cs => segmentsFrom skip reversed cs
  | 0, reversed, '{' :: '{' :: cs =>
      match match? ('{' :: '{' :: cs) with
      | some found =>
          literalSegment reversed ++
            .placeholder (String.ofList found.name) (String.ofList found.raw) ::
              segmentsFrom (found.raw.length - 2) [] cs
      | none => segmentsFrom 0 ('{' :: '{' :: reversed) cs
  | 0, reversed, c :: cs => segmentsFrom 0 (c :: reversed) cs

/-- Cut a text into placeholders and literal text. -/
def segments (text : String) : List Segment := segmentsFrom 0 [] text.toList

end FleetCompose.Template
