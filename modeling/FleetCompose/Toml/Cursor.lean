/-!
# Positions in a settings file

A cursor is what is left of a settings file and the number of bytes in front of it. A span is
a part of the file, in bytes.
-/

namespace FleetCompose.Toml

/-- A part of a source: the bytes from `start` up to `stop`. -/
structure Span where
  start : Nat
  stop : Nat
  deriving DecidableEq, Repr

/-- What is left of a source. -/
structure Cursor where
  rest : List Char
  offset : Nat
  deriving DecidableEq, Repr

/-- How many bytes a list of characters has. -/
def byteLength (cs : List Char) : Nat := cs.foldl (fun n c => n + c.utf8Size) 0

/-- A space or a tab. -/
def isPad (c : Char) : Bool := c == ' ' || c == '\t'

/-- A character that may stand in a comment: everything but control characters, tabs
excepted. -/
def isCommentChar (c : Char) : Bool := c == '\t' || (0x20 ≤ c.toNat && c.toNat != 0x7F)

namespace Cursor

/-- The whole of a source. A byte order mark is passed over. -/
def ofSource (source : String) : Cursor :=
  match source.toList with
  | '\uFEFF' :: cs => ⟨cs, 3⟩
  | cs => ⟨cs, 0⟩

/-- The next character. -/
def next? (cursor : Cursor) : Option Char := cursor.rest.head?

/-- Go over the next `count` characters. -/
def advance (cursor : Cursor) (count : Nat) : Cursor :=
  ⟨cursor.rest.drop count, cursor.offset + byteLength (cursor.rest.take count)⟩

/-- Go over the next characters as long as they satisfy `p`. -/
def span (p : Char → Bool) (cursor : Cursor) : List Char × Cursor :=
  let cs := cursor.rest.takeWhile p
  (cs, ⟨cursor.rest.dropWhile p, cursor.offset + byteLength cs⟩)

/-- Go over the text if the rest starts with it. -/
def over? (text : String) (cursor : Cursor) : Option Cursor :=
  if text.toList.isPrefixOf cursor.rest then some (cursor.advance text.length) else none

/-- Go over spaces and tabs. -/
def skipPads (cursor : Cursor) : Cursor := (cursor.span isPad).2

/-- Go over a line end: a line feed, or a carriage return and a line feed. -/
def overLineEnd? (cursor : Cursor) : Option Cursor :=
  match cursor.rest with
  | '\n' :: cs => some ⟨cs, cursor.offset + 1⟩
  | '\r' :: '\n' :: cs => some ⟨cs, cursor.offset + 2⟩
  | _ => none

/-- Go over a comment, if there is one. -/
def skipComment (cursor : Cursor) : Cursor :=
  if cursor.next? = some '#' then ((cursor.advance 1).span isCommentChar).2 else cursor

/-- The span from one cursor to a later one. -/
def spanTo (cursor after : Cursor) : Span := ⟨cursor.offset, after.offset⟩

end Cursor

end FleetCompose.Toml
