import FleetCompose.Decimal.Shortest
import FleetCompose.Text.Hexadecimal

/-!
# JSON values and their texts

A JSON text is written either compactly, without any blank, or pretty, with every item and
member on a line of its own and two spaces of indentation per level.
-/

namespace FleetCompose

/-- A JSON value. Members of an object are kept in order; floating point numbers are
finite. -/
inductive Json where
  | null
  | bool (value : Bool)
  | integer (value : Int)
  | decimal (value : Binary64)
  | string (text : String)
  | array (items : List Json)
  | object (members : List (String × Json))
  deriving Inhabited

namespace Json

/-- How floating point numbers are written in JSON. -/
def floatLayout : Decimal.Layout := ⟨-4, 16, true⟩

/-- The written form of one character of a text. -/
def escapeChar (c : Char) : List Char :=
  if c = '"' then ['\\', '"']
  else if c = '\\' then ['\\', '\\']
  else if c = '\x08' then ['\\', 'b']
  else if c = '\x0C' then ['\\', 'f']
  else if c = '\n' then ['\\', 'n']
  else if c = '\r' then ['\\', 'r']
  else if c = '\t' then ['\\', 't']
  else if c.toNat < 0x20 then ['\\', 'u'] ++ Text.hexFixed 4 c.toNat
  else [c]

/-- The written form of a text, between quotes. -/
def quoteChars (cs : List Char) : List Char :=
  '"' :: cs.flatMap escapeChar ++ ['"']

/-- The written form of a text, between quotes. -/
def quote (text : String) : String := String.ofList (quoteChars text.toList)

/-- The written form of a value that is neither an array nor an object. -/
def scalarText : Json → String
  | .null => "null"
  | .bool value => if value then "true" else "false"
  | .integer value => toString value
  | .decimal value => floatLayout.writeFinite value
  | .string text => quote text
  | .array _ | .object _ => ""

mutual

/-- Write a value without blanks. -/
def compact : Json → String
  | .array items => "[" ++ compactItems items ++ "]"
  | .object members => "\x7b" ++ compactMembers members ++ "\x7d"
  | value => value.scalarText

def compactItems : List Json → String
  | [] => ""
  | [item] => compact item
  | item :: items => compact item ++ "," ++ compactItems items

def compactMembers : List (String × Json) → String
  | [] => ""
  | [(name, value)] => quote name ++ ":" ++ compact value
  | (name, value) :: members =>
      quote name ++ ":" ++ compact value ++ "," ++ compactMembers members

end

/-- A line end and the indentation of a level. -/
def newLine (level : Nat) : String :=
  "\n" ++ String.ofList (List.replicate (2 * level) ' ')

mutual

/-- Write a value that stands at a level of indentation. -/
def prettyAt (level : Nat) : Json → String
  | .array [] => "[]"
  | .array items => "[" ++ prettyItems (level + 1) items ++ newLine level ++ "]"
  | .object [] => "\x7b\x7d"
  | .object members =>
      "\x7b" ++ prettyMembers (level + 1) members ++ newLine level ++ "\x7d"
  | value => value.scalarText

def prettyItems (level : Nat) : List Json → String
  | [] => ""
  | [item] => newLine level ++ prettyAt level item
  | item :: items => newLine level ++ prettyAt level item ++ "," ++ prettyItems level items

def prettyMembers (level : Nat) : List (String × Json) → String
  | [] => ""
  | [(name, value)] => newLine level ++ quote name ++ ": " ++ prettyAt level value
  | (name, value) :: members =>
      newLine level ++ quote name ++ ": " ++ prettyAt level value ++ "," ++
        prettyMembers level members

end

/-- Write a value over several lines. -/
def pretty (value : Json) : String := value.prettyAt 0

/-- A text or null. -/
def optional : Option String → Json
  | none => .null
  | some text => .string text

/-- An array of texts. -/
def strings (texts : List String) : Json := .array (texts.map .string)

end Json

end FleetCompose
