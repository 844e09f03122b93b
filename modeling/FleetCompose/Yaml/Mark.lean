import FleetCompose.Yaml.Character

/-!
# Positions in a document

A mark counts bytes from the start of the document, line ends, and characters from the start
of the line. A cursor is what is left of a document, and the mark where it starts.
-/

namespace FleetCompose.Yaml

/-- A position in a document, counted from zero. -/
structure Mark where
  index : Nat
  line : Nat
  column : Nat
  deriving DecidableEq, Repr

namespace Mark

/-- The start of a document. -/
def start : Mark := ⟨0, 0, 0⟩

/-- Is the mark in the first column of the first line? -/
def isStart (mark : Mark) : Bool := mark.line == 0 && mark.column == 0

/-- Line and column, counted from one. -/
def text (mark : Mark) : String :=
  "line " ++ Nat.repr (mark.line + 1) ++ " column " ++ Nat.repr (mark.column + 1)

/-- The mark behind characters of one line. -/
def advance (mark : Mark) (cs : List Char) : Mark :=
  { mark with
    index := cs.foldl (fun n c => n + c.utf8Size) mark.index
    column := mark.column + cs.length }

/-- The mark behind a line end of the given size. -/
def nextLine (mark : Mark) (size : Nat) : Mark := ⟨mark.index + size, mark.line + 1, 0⟩

end Mark

/-- What is left of a document. -/
structure Cursor where
  rest : List Char
  mark : Mark

namespace Cursor

/-- The whole of a document. -/
def ofSource (source : String) : Cursor := ⟨source.toList, .start⟩

/-- The next character. -/
def next? (cursor : Cursor) : Option Char := cursor.rest.head?

/-- Does the rest start with the text? -/
def startsWith (cursor : Cursor) (text : String) : Bool :=
  text.toList.isPrefixOf cursor.rest

/-- Is there a separator, or the end, behind the next `skip` characters? -/
def separatorAt (cursor : Cursor) (skip : Nat) : Bool :=
  match cursor.rest.drop skip with
  | [] => true
  | c :: _ => isSpaceOrTab c || isBreak c

/-- Is the next character a line end? -/
def atBreak (cursor : Cursor) : Bool := (cursor.next?.map isBreak).getD false

/-- Is the next character a space or a tab? -/
def atBlank (cursor : Cursor) : Bool := (cursor.next?.map isSpaceOrTab).getD false

/-- Is there a document indicator at the start of a line? -/
def atIndicator (cursor : Cursor) : Bool :=
  cursor.mark.column == 0 && (cursor.startsWith "---" || cursor.startsWith "...") &&
    cursor.separatorAt 3

/-- Go over the next `count` characters of the line. -/
def advance (cursor : Cursor) (count : Nat) : Cursor :=
  ⟨cursor.rest.drop count, cursor.mark.advance (cursor.rest.take count)⟩

/-- Go over the next characters of the line as long as they satisfy `p`. -/
def span (p : Char → Bool) (cursor : Cursor) : List Char × Cursor :=
  let cs := cursor.rest.takeWhile p
  (cs, ⟨cursor.rest.dropWhile p, cursor.mark.advance cs⟩)

/-- Go over the spaces and tabs. -/
def skipBlanks (cursor : Cursor) : Cursor := (cursor.span isSpaceOrTab).2

/-- Go to the end of the line. -/
def toLineEnd (cursor : Cursor) : Cursor := (cursor.span fun c => !isBreak c).2

/-- Go over a comment, if there is one. -/
def skipComment (cursor : Cursor) : Cursor :=
  if cursor.next? = some '#' then cursor.toLineEnd else cursor

/-- Go over a line end, if there is one. The text of a line end is a line feed, unless it is
a line or paragraph separator. -/
def lineEnd (cursor : Cursor) : List Char × Cursor :=
  match cursor.rest with
  | '\r' :: '\n' :: cs => (['\n'], ⟨cs, cursor.mark.nextLine 2⟩)
  | c :: cs =>
      if isBreak c then
        (if c = '\u2028' || c = '\u2029' then [c] else ['\n'],
          ⟨cs, cursor.mark.nextLine c.utf8Size⟩)
      else ([], cursor)
  | [] => ([], cursor)

end Cursor

end FleetCompose.Yaml
