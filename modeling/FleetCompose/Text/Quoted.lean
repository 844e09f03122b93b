import FleetCompose.Text.Glyph
import FleetCompose.Text.Hexadecimal

/-!
# Texts in double quotes

Diagnostics show a text between double quotes. Quotes and backslashes are escaped, and so
is every character that would not show as a glyph of its own: control and format
characters, separators other than the space, private use characters and combining marks.
-/

namespace FleetCompose.Text

/-- Characters without a glyph that are no format characters: control characters, separators
other than the space, private use characters and noncharacters. -/
def invisibleRanges : List (Nat × Nat) :=
  [(0x00, 0x1F), (0x7F, 0xA0), (0x1680, 0x1680), (0x2000, 0x200A), (0x2028, 0x2029),
   (0x202F, 0x202F), (0x205F, 0x205F), (0x3000, 0x3000), (0xE000, 0xF8FF), (0xFDD0, 0xFDEF),
   (0xFFF0, 0xFFF8), (0xFFFE, 0xFFFF), (0x1FFFE, 0x1FFFF), (0x2FFFE, 0x2FFFF),
   (0x3FFFE, 0xE00FF), (0xE01F0, 0x10FFFF)]

/-- The written form of one character between double quotes. -/
def quotedChar (c : Char) : List Char :=
  if c = '"' then ['\\', '"']
  else if c = '\\' then ['\\', '\\']
  else if c = '\n' then ['\\', 'n']
  else if c = '\r' then ['\\', 'r']
  else if c = '\t' then ['\\', 't']
  else if c = '\x00' then ['\\', '0']
  else if inRanges invisibleRanges c || isFormat c || isCombining c then
    ['\\', 'u', '{'] ++ hexFixed (hexWidth c.toNat) c.toNat ++ ['}']
  else [c]

/-- A text between double quotes. -/
def quoted (s : String) : String :=
  String.ofList (['"'] ++ s.toList.flatMap quotedChar ++ ['"'])

end FleetCompose.Text
