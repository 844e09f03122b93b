import FleetCompose.Text.Hexadecimal
import FleetCompose.Yaml.Token

/-!
# Scanning anchors, tags and directives

A tag is written `!<TEXT>`, or as a handle and a suffix. A directive stands on a line of its
own in front of a document: `%YAML` gives a version, and `%TAG` says what a handle stands for.
-/

namespace FleetCompose.Yaml.Token

/-! ## Anchors and aliases -/

/-- Does a character end the name of an anchor? -/
def endsAnchor (cursor : Cursor) : Bool :=
  cursor.separatorAt 0 || (cursor.next?.map fun c => "?:,]\x7d%@`".toList.contains c).getD false

/-- Read the name of an anchor or alias from its indicator on. -/
def anchorName (activity : Activity) (cursor : Cursor) : Except SyntaxError (String × Cursor) :=
  let (name, after) := (cursor.advance 1).span isWordChar
  if name.isEmpty || !endsAnchor after then
    .error (.during activity cursor.mark .anchorName after.mark)
  else .ok (String.ofList name, after)

/-! ## Tags -/

/-- A character of the text of a tag. Some more are allowed inside angle brackets and in
directives. -/
def isTagTextChar (verbatim : Bool) (c : Char) : Bool :=
  isWordChar c || ";/?:@&=+$.%!~*'()".toList.contains c || (verbatim && ",[]".toList.contains c)

/-- The value of two hexadecimal digits behind a percent sign. -/
def octet? (cursor : Cursor) : Option Nat :=
  match cursor.rest with
  | '%' :: a :: b :: _ =>
      match Text.hexValue? a, Text.hexValue? b with
      | some high, some low => some (16 * high + low)
      | _, _ => none
  | _ => none

/-- How many octets the encoding of a character has, given the first one. -/
def octetCount? (octet : Nat) : Option Nat :=
  if octet < 0x80 then some 1
  else if 0xC0 ≤ octet && octet < 0xE0 then some 2
  else if 0xE0 ≤ octet && octet < 0xF0 then some 3
  else if 0xF0 ≤ octet && octet < 0xF8 then some 4
  else none

/-- Read the octets that follow the first one of a character. -/
def trailingOctets (activity : Activity) (since : Mark) : (count : Nat) → List Nat → Cursor →
    Except SyntaxError (List Nat × Cursor)
  | 0, octets, cursor => .ok (octets, cursor)
  | count + 1, octets, cursor =>
      match octet? cursor with
      | none => .error (.during activity since .octetDigits cursor.mark)
      | some octet =>
          if octet / 0x40 != 2 then .error (.during activity since .trailingOctet cursor.mark)
          else trailingOctets activity since count (octets ++ [octet]) (cursor.advance 3)

/-- The text of the octets of one character. -/
def octetsText (octets : List Nat) : List Char :=
  match String.fromUTF8? ⟨(octets.map UInt8.ofNat).toArray⟩ with
  | some text => text.toList
  | none => ['\uFFFD']

/-- Read a character that is given by its octets. -/
def escapedOctets (activity : Activity) (since : Mark) (cursor : Cursor) :
    Except SyntaxError (List Char × Cursor) :=
  match octet? cursor with
  | none => .error (.during activity since .octetDigits cursor.mark)
  | some octet =>
      match octetCount? octet with
      | none => .error (.during activity since .leadingOctet cursor.mark)
      | some count =>
          (trailingOctets activity since (count - 1) [octet] (cursor.advance 3)).map
            fun (octets, after) => (octetsText octets, after)

/-- Read the text of a tag behind the part read so far. -/
def tagTextFrom (verbatim : Bool) (activity : Activity) (since : Mark) :
    (fuel : Nat) → List Char → Cursor → Except SyntaxError (List Char × Cursor)
  | 0, text, cursor => .ok (text, cursor)
  | fuel + 1, text, cursor =>
      match cursor.next? with
      | none => .ok (text, cursor)
      | some c =>
          if !isTagTextChar verbatim c then .ok (text, cursor)
          else if c = '%' then
            match escapedOctets activity since cursor with
            | .error failure => .error failure
            | .ok (image, after) =>
                tagTextFrom verbatim activity since fuel (text ++ image) after
          else tagTextFrom verbatim activity since fuel (text ++ [c]) (cursor.advance 1)

/-- Read the text of a tag. It must not be empty, unless there is something in front of
it. -/
def tagText (verbatim : Bool) (activity : Activity) (since : Mark) (head : List Char)
    (cursor : Cursor) : Except SyntaxError (String × Cursor) :=
  match tagTextFrom verbatim activity since (cursor.rest.length + 1) (head.drop 1) cursor with
  | .error failure => .error failure
  | .ok (text, after) =>
      if head.isEmpty && text.isEmpty then .error (.during activity since .tagText after.mark)
      else .ok (String.ofList text, after)

/-- Read a handle: an exclamation mark, and a word with another one behind it if there is
one. -/
def tagHandle (activity : Activity) (since : Mark) (cursor : Cursor) :
    Except SyntaxError (List Char × Cursor) :=
  if cursor.next? != some '!' then .error (.during activity since .tagMark cursor.mark)
  else
    let (word, after) := (cursor.advance 1).span isWordChar
    if after.next? = some '!' then .ok ('!' :: word ++ ['!'], after.advance 1)
    else .ok ('!' :: word, after)

/-- A handle that stands for something of its own: at least two characters, and an
exclamation mark at the end. -/
def isFullHandle (handle : List Char) : Bool :=
  2 ≤ handle.length && handle.getLast? = some '!'

/-- Read a tag from its exclamation mark on: its handle and its suffix. -/
def tag (inFlow : Bool) (cursor : Cursor) : Except SyntaxError (String × String × Cursor) := do
  let since := cursor.mark
  let (handle, suffix, after) ←
    if (cursor.rest.drop 1).head? = some '<' then
      let (suffix, after) ← tagText true .readingTag since [] (cursor.advance 2)
      if after.next? = some '>' then pure ("", suffix, after.advance 1)
      else throw (.during .scanningTag since .tagClosing after.mark)
    else
      let (handle, after) ← tagHandle .scanningTag since cursor
      if isFullHandle handle then
        let (suffix, after) ← tagText false .readingTag since [] after
        pure (String.ofList handle, suffix, after)
      else
        let (suffix, after) ← tagText false .readingTag since handle after
        pure (if suffix.isEmpty then ("", "!", after) else ("!", suffix, after))
  if after.separatorAt 0 || (inFlow && after.next? = some ',') then
    return (handle, suffix, after)
  else throw (.during .scanningTag since .tagEnd after.mark)

/-! ## Directives -/

/-- Read a number of a version. -/
def versionNumber (since : Mark) (cursor : Cursor) : Except SyntaxError (Nat × Cursor) :=
  let (digits, after) := cursor.span Char.isDigit
  if 9 < digits.length then
    .error (.during .scanningVersionDirective since .versionTooLong (cursor.advance 9).mark)
  else if digits.isEmpty then
    .error (.during .scanningVersionDirective since .versionNumber after.mark)
  else .ok (digits.foldl (fun n c => 10 * n + (c.toNat - 0x30)) 0, after)

/-- Read the value of a version directive. -/
def versionValue (since : Mark) (cursor : Cursor) : Except SyntaxError (TokenKind × Cursor) := do
  let (major, after) ← versionNumber since cursor.skipBlanks
  if after.next? != some '.' then
    throw (.during .scanningVersionDirective since .versionPoint after.mark)
  let (minor, after) ← versionNumber since (after.advance 1)
  return (.version major minor, after)

/-- Read the value of a directive for a handle. -/
def tagHandleValue (since : Mark) (cursor : Cursor) :
    Except SyntaxError (TokenKind × Cursor) := do
  let (handle, after) ← tagHandle .scanningTagHandle since cursor.skipBlanks
  if !isFullHandle handle && handle.length != 1 then
    throw (.during .readingTagHandle since .tagMark after.mark)
  if !after.atBlank then
    throw (.during .scanningTagDirective since .tagDirectiveSpace after.mark)
  let (expansion, after) ← tagText true .readingTagDirective since [] after.skipBlanks
  if !after.separatorAt 0 then
    throw (.during .scanningTagDirective since .tagDirectiveEnd after.mark)
  return (.tagHandle (String.ofList handle) expansion, after)

/-- Read a directive from its percent sign to behind its line end. The last mark is the end
of its value. -/
def directive (cursor : Cursor) : Except SyntaxError (Token × Cursor) := do
  let since := cursor.mark
  let refuse {α : Type} (problem : Problem) (mark : Mark) : Except SyntaxError α :=
    .error (.during .scanningDirective since problem mark)
  let (name, after) := (cursor.advance 1).span isWordChar
  if name.isEmpty then refuse .directiveName after.mark
  if !after.separatorAt 0 then refuse .directiveNameEnd after.mark
  let (kind, after) ←
    if name = "YAML".toList then versionValue since after
    else if name = "TAG".toList then tagHandleValue since after
    else refuse .unknownDirective after.mark
  let lineEnd := after.skipBlanks.skipComment
  if !lineEnd.rest.isEmpty && !lineEnd.atBreak then refuse .directiveEnd lineEnd.mark
  return (⟨kind, since, after.mark⟩, lineEnd.lineEnd.2)

end FleetCompose.Yaml.Token
