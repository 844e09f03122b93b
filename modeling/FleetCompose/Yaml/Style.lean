import FleetCompose.Text.Hexadecimal
import FleetCompose.Yaml.Character
import FleetCompose.Yaml.Plain

/-!
# Written scalars

A text is written plain where it reads back as itself, between single quotes where that is
not so, between double quotes where it has characters that need an escape or blanks that
would get lost, and as a literal block where it has several lines.
-/

namespace FleetCompose.Yaml

/-- How a text is written. -/
inductive Style where
  | plain
  | singleQuoted
  | doubleQuoted
  | literal
  deriving DecidableEq, Repr

namespace Style

/-- Do some neighbours satisfy `p`? -/
def anyNeighbours (p : Char → Char → Bool) : List Char → Bool
  | a :: b :: cs => p a b || anyNeighbours p (b :: cs)
  | _ => false

/-- Does the text start with a character that would be an indicator? -/
def startsWithIndicator : List Char → Bool
  | [] => false
  | c :: cs =>
      "#,[]\x7b\x7d&*!|>'\"%@`".toList.contains c ||
        ("?:-".toList.contains c && (cs.head?.map isSeparator).getD true) ||
        "---".toList.isPrefixOf (c :: cs) || "...".toList.isPrefixOf (c :: cs)

/-- Does the text hold a colon that would end a key, or a hash that would start a comment? -/
def holdsIndicator (cs : List Char) : Bool :=
  anyNeighbours (fun a b => (a == ':' && isSeparator b) || (isSeparator a && b == '#'))
    (cs ++ ['\x00'])

/-- Does an end of the text consist of a space or a line end? -/
def hasOpenEnd (cs : List Char) : Bool :=
  let isOpen (c : Option Char) := (c.map fun c => c == ' ' || isBreak c).getD false
  isOpen cs.head? || isOpen cs.getLast?

/-- Is there a space in front of a line end, or a character that needs an escape? -/
def needsEscapes (cs : List Char) : Bool :=
  anyNeighbours (fun a b => a == ' ' && isBreak b) cs || !cs.all isPrintable

/-- Is there a space at the start of a line other than the first one? -/
def hasIndentedLine (cs : List Char) : Bool :=
  anyNeighbours (fun a b => isBreak a && b == ' ') cs

/-- Can the text be written plain? -/
def plainAllowed (cs : List Char) : Bool :=
  !cs.any isBreak && !needsEscapes cs && !hasOpenEnd cs && !startsWithIndicator cs &&
    !holdsIndicator cs

/-- Can the text be written between single quotes? -/
def singleQuotedAllowed (cs : List Char) : Bool := !needsEscapes cs && !hasIndentedLine cs

/-- Can the text be written as a literal block? -/
def literalAllowed (cs : List Char) : Bool := !needsEscapes cs && cs.getLast? != some ' '

/-- How a text is written. -/
def ofText (text : String) : Style :=
  let cs := text.toList
  if cs.contains '\n' then if literalAllowed cs then .literal else .doubleQuoted
  else if plainAllowed cs && !Plain.isAmbiguous text then .plain
  else if singleQuotedAllowed cs then .singleQuoted
  else .doubleQuoted

end Style

/-! ## Written forms -/

/-- The last `width` hexadecimal digits of a number, in upper case. -/
def upperHex (width n : Nat) : List Char := (Text.hexFixed width n).map Char.toUpper

/-- The written form of a character between double quotes. -/
def escapeChar (c : Char) : List Char :=
  let n := c.toNat
  if c = '"' || c = '\\' then ['\\', c]
  else if isPrintable c && !isBreak c then [c]
  else if n = 0x00 then ['\\', '0']
  else if n = 0x07 then ['\\', 'a']
  else if n = 0x08 then ['\\', 'b']
  else if n = 0x09 then ['\\', 't']
  else if n = 0x0A then ['\\', 'n']
  else if n = 0x0B then ['\\', 'v']
  else if n = 0x0C then ['\\', 'f']
  else if n = 0x0D then ['\\', 'r']
  else if n = 0x1B then ['\\', 'e']
  else if n = 0x85 then ['\\', 'N']
  else if n = 0x2028 then ['\\', 'L']
  else if n = 0x2029 then ['\\', 'P']
  else if n < 0x100 then ['\\', 'x'] ++ upperHex 2 n
  else if n < 0x10000 then ['\\', 'u'] ++ upperHex 4 n
  else ['\\', 'U'] ++ upperHex 8 n

/-- A text between double quotes. -/
def doubleQuoted (cs : List Char) : List Char := ['"'] ++ cs.flatMap escapeChar ++ ['"']

/-- The text between single quotes. A line that follows a line end is indented by `pad`. -/
def singleQuotedFrom (pad : List Char) : (lineStart : Bool) → List Char → List Char
  | lineStart, [] => if lineStart then pad else []
  | lineStart, c :: cs =>
      if isBreak c then c :: singleQuotedFrom pad true cs
      else
        (if lineStart then pad else []) ++ (if c = '\'' then ['\'', '\''] else [c]) ++
          singleQuotedFrom pad false cs

/-- A text between single quotes. -/
def singleQuoted (pad cs : List Char) : List Char :=
  ['\''] ++ singleQuotedFrom pad false cs ++ ['\'']

/-- The lines of a literal block, each indented by `pad` unless it is empty. -/
def literalLines (pad : List Char) : (lineStart : Bool) → List Char → List Char
  | _, [] => []
  | lineStart, c :: cs =>
      if isBreak c then c :: literalLines pad true cs
      else (if lineStart then pad else []) ++ c :: literalLines pad false cs

/-- The indentation indicator of a literal block: needed where the first line starts with a
space or is empty. -/
def indentationIndicator (cs : List Char) : List Char :=
  if (cs.head?.map fun c => c == ' ' || isBreak c).getD false then ['2'] else []

/-- The indicator for the end of a literal block: a minus if there is no line end, a plus if
there is more than one or nothing else, and nothing for a single one. -/
def chompingIndicator (cs : List Char) : List Char :=
  match cs.reverse with
  | [] => ['-']
  | [c] => if isBreak c then ['+'] else ['-']
  | c :: d :: _ => if !isBreak c then ['-'] else if isBreak d then ['+'] else []

/-- A text as a literal block, with the line end after it. -/
def literalBlock (pad cs : List Char) : List Char :=
  ['|'] ++ indentationIndicator cs ++ chompingIndicator cs ++ ['\n'] ++
    literalLines pad true cs ++
    if (cs.getLast?.map isBreak).getD false then [] else ['\n']

/-- A text as a scalar, with the line end after it; further lines are indented by `pad`. -/
def textLine (pad : List Char) (text : String) : List Char :=
  let cs := text.toList
  match Style.ofText text with
  | .plain => cs ++ ['\n']
  | .singleQuoted => singleQuoted pad cs ++ ['\n']
  | .doubleQuoted => doubleQuoted cs ++ ['\n']
  | .literal => literalBlock pad cs

/-- A text as a key that fits on one line. -/
def keyText (text : String) : List Char :=
  let cs := text.toList
  match Style.ofText text with
  | .plain => cs
  | .singleQuoted => singleQuoted [] cs
  | .doubleQuoted | .literal => doubleQuoted cs

end FleetCompose.Yaml
