import FleetCompose.Yaml.Style
import FleetCompose.Yaml.Value

/-!
# Writing YAML

Values are written in block style, one item or entry a line, with two spaces of indentation
for nested collections. The items of a sequence that is the value of a key are not indented.
A key that does not fit on one line is written after a question mark, and its value after a
colon on a line of its own.
-/

namespace FleetCompose.Yaml

/-- Why a value cannot be written. -/
inductive WriteError where
  | nestedTag
  | misplacedKey
  deriving DecidableEq, Repr

/-- The wording of an error. -/
def WriteError.message : WriteError → String
  | .nestedTag => "serializing nested enums in YAML is not supported yet"
  | .misplacedKey => "expected SCALAR, SEQUENCE-START, MAPPING-START, or ALIAS"

namespace Value

/-! ## Values that cannot be written -/

/-- A key that takes the place of a mapping of one entry: a tagged value, or a mapping of one
entry again. -/
def displacesMapping : Value → Bool
  | .tagged _ _ => true
  | .mapping [_] => true
  | _ => false

/-- Is the mapping one whose only key displaces it? -/
def isDisplaced : List (Value × Value) → Bool
  | [(key, _)] => key.displacesMapping
  | _ => false

mutual

/-- The first reason why a value cannot be written. `tagged` says whether the value stands
directly under a tag: there a further tag is refused, and no mapping is displaced. -/
def writeError? (tagged : Bool) : Value → Option WriteError
  | .sequence items => itemsError? items
  | .mapping entries =>
      (entriesError? entries).or
        (if !tagged && isDisplaced entries then some .misplacedKey else none)
  | .tagged _ value => if tagged then some .nestedTag else writeError? true value
  | .null | .bool _ | .number _ | .string _ => none

def itemsError? : List Value → Option WriteError
  | [] => none
  | item :: items => (writeError? false item).or (itemsError? items)

def entriesError? : List (Value × Value) → Option WriteError
  | [] => none
  | (key, value) :: entries =>
      ((writeError? false key).or (writeError? false value)).or (entriesError? entries)

end

/-! ## Tags -/

/-- A character that a written tag may hold. -/
def isTagChar (c : Char) : Bool :=
  c.isAlphanum || "-_;/?:@&=+$,.~*'()[]".toList.contains c

/-- A character of a written tag; others are given by the bytes of their encoding. -/
def tagChar (c : Char) : List Char :=
  if isTagChar c then [c]
  else (String.singleton c).toUTF8.toList.flatMap fun byte => '%' :: upperHex 2 byte.toNat

/-- The full form of a tag: with an exclamation mark in front. -/
def fullTag (tag : String) : List Char :=
  match tag.toList with
  | '!' :: cs => '!' :: cs
  | cs => '!' :: cs

/-- The written form of a tag. The tag that is one exclamation mark needs angle brackets. -/
def tagText (tag : String) : List Char :=
  match fullTag tag with
  | [c] => ['!', '<'] ++ tagChar c ++ ['>']
  | cs => '!' :: (cs.drop 1).flatMap tagChar

/-! ## Keys -/

/-- The longest key that is written on one line, in bytes with its tag. -/
def longestKey : Nat := 128

/-- The text of a key that takes one line, without its tag, and its length in bytes. -/
def lineKey? : Value → Option (List Char × Nat)
  | .null => some ("null".toList, 4)
  | .bool value => let text := if value then "true" else "false"; some (text.toList, text.length)
  | .number value => some (value.text.toList, value.text.length)
  | .string text =>
      if text.toList.any isBreak then none else some (keyText text, text.utf8ByteSize)
  | .sequence [] => some ("[]".toList, 0)
  | .mapping [] => some ("\x7b\x7d".toList, 0)
  | .sequence _ | .mapping _ | .tagged _ _ => none

/-- A key that takes one line. -/
def shortKey? : Value → Option (List Char)
  | .tagged tag key =>
      match lineKey? key with
      | some (text, size) =>
          if (String.ofList (fullTag tag)).utf8ByteSize + size ≤ longestKey then
            some (tagText tag ++ [' '] ++ text)
          else none
      | none => none
  | key =>
      match lineKey? key with
      | some (text, size) => if size ≤ longestKey then some text else none
      | none => none

/-! ## Lines -/

/-- Where a value stands: after a key or tag on a line that holds something already, or after
an indicator that starts the line. -/
structure Place where
  /-- Is the value the value or key of an entry? -/
  inEntry : Bool
  /-- Does the line hold nothing but indicators so far? -/
  fresh : Bool

/-- After a key and its colon. -/
def Place.afterKey : Place := ⟨true, false⟩

/-- After the dash of an item. -/
def Place.afterDash : Place := ⟨false, true⟩

/-- After the question mark of a long key, or the colon of its value. -/
def Place.afterMark : Place := ⟨true, true⟩

/-- After a tag. -/
def Place.afterTag (place : Place) : Place := { place with fresh := false }

/-- Indentation. -/
def spaces (n : Nat) : List Char := List.replicate n ' '

/-- What stands in front of the first line of a nested collection: on a fresh line the
collection goes on after a space, elsewhere it starts a line. -/
def firstPad (place : Place) (indent : Nat) : List Char :=
  if place.fresh then [' '] else '\n' :: spaces indent

mutual

/-- The lines of a value whose enclosing collection is indented by `indent`, from the place
where it stands to the end of its last line. -/
def nodeLines (place : Place) (indent : Nat) : Value → List Char
  | .null => " null\n".toList
  | .bool value => (if value then " true\n" else " false\n").toList
  | .number value => ' ' :: value.text.toList ++ ['\n']
  | .string text => ' ' :: textLine (spaces (indent + 2)) text
  | .sequence [] => " []\n".toList
  | .sequence items =>
      let indent := if place.inEntry && !place.fresh then indent else indent + 2
      itemLines (firstPad place indent) indent items
  | .mapping [] => " \x7b\x7d\n".toList
  | .mapping entries => entryLines (firstPad place (indent + 2)) (indent + 2) entries
  | .tagged tag value => ' ' :: tagText tag ++ nodeLines place.afterTag indent value

/-- The lines of items at an indentation; `pad` stands in front of the first one. -/
def itemLines (pad : List Char) (indent : Nat) : List Value → List Char
  | [] => []
  | item :: items =>
      pad ++ ['-'] ++ nodeLines .afterDash indent item ++ itemLines (spaces indent) indent items

/-- The lines of entries at an indentation; `pad` stands in front of the first one. -/
def entryLines (pad : List Char) (indent : Nat) : List (Value × Value) → List Char
  | [] => []
  | (key, value) :: entries =>
      pad ++
        (match shortKey? key with
          | some text => text ++ [':'] ++ nodeLines .afterKey indent value
          | none =>
              ['?'] ++ nodeLines .afterMark indent key ++ spaces indent ++ [':'] ++
                nodeLines .afterMark indent value) ++
        entryLines (spaces indent) indent entries

end

/-- A mapping as a document of its own. -/
def documentText (entries : List (Value × Value)) : String :=
  if entries.isEmpty then "\x7b\x7d\n" else String.ofList (entryLines [] 0 entries)

/-- Write a mapping whose keys are texts as a document of its own. -/
def writeDocument (entries : List (String × Value)) : Except WriteError String :=
  let entries := entries.map fun (name, value) => (string name, value)
  match entriesError? entries with
  | some failure => .error failure
  | none => .ok (documentText entries)

end Value

end FleetCompose.Yaml
