import FleetCompose.Decimal.Binary64
import FleetCompose.Text.Hexadecimal
import FleetCompose.Toml.Attempt

/-!
# Numbers

Integers have 64 bits and are written in decimal, hexadecimal, octal or binary. Floating
point numbers have a fraction or an exponent. Digits may have single underscores between
them, and a decimal number has no leading zero.
-/

namespace FleetCompose.Toml

/-- Digits with single underscores between them. A run is dangling if it ends with an
underscore; then its length counts that underscore. -/
structure DigitRun where
  digits : List Char
  length : Nat
  dangling : Bool
  deriving DecidableEq, Repr

/-- The digits behind the first one. -/
def digitRun (isDigit : Char → Bool) : List Char → DigitRun
  | '_' :: c :: cs =>
      if isDigit c then
        let run := digitRun isDigit cs
        ⟨c :: run.digits, run.length + 2, run.dangling⟩
      else ⟨[], 1, true⟩
  | ['_'] => ⟨[], 1, true⟩
  | c :: cs =>
      if isDigit c then
        let run := digitRun isDigit cs
        ⟨c :: run.digits, run.length + 1, run.dangling⟩
      else ⟨[], 0, false⟩
  | [] => ⟨[], 0, false⟩

/-- Go over the digits behind a first one that was read already. -/
def moreDigits (isDigit : Char → Bool) (first : Char) (cursor : Cursor) :
    Attempt (List Char × Cursor) :=
  let run := digitRun isDigit cursor.rest
  if run.dangling then brokenAt (cursor.advance run.length) (.expecting ["digit"])
  else .found (first :: run.digits, cursor.advance run.length)

/-- Read digits; there has to be at least one. -/
def digits (isDigit : Char → Bool) (cursor : Cursor) : Attempt (List Char × Cursor) :=
  match cursor.next? with
  | some c =>
      if isDigit c then moreDigits isDigit c (cursor.advance 1) else absentAt cursor .bare
  | none => absentAt cursor .bare

/-- Go over a sign, if there is one. -/
def sign (cursor : Cursor) : Bool × Cursor :=
  match cursor.next? with
  | some '-' => (true, cursor.advance 1)
  | some '+' => (false, cursor.advance 1)
  | _ => (false, cursor)

/-- The value of digits in a base of at most sixteen. -/
def digitsValue (base : Nat) (cs : List Char) : Nat :=
  cs.foldl (fun n c => base * n + (Text.hexValue? c).getD 0) 0

/-- Read a decimal integer: its sign, its digits and the cursor behind it. A zero is not
followed by further digits. -/
def decimalDigits (cursor : Cursor) : Attempt (Bool × List Char × Cursor) :=
  let (isNegative, unsigned) := sign cursor
  Attempt.within .integer <|
    if unsigned.next? = some '0' then .found (isNegative, ['0'], unsigned.advance 1)
    else do
      let (cs, after) ← digits Char.isDigit unsigned
      return (isNegative, cs, after)

/-! ## Integers -/

/-- An integer has to fit into 64 bits. -/
def boundedInteger (cursor : Cursor) (value : Int) (after : Cursor) : Attempt (Int × Cursor) :=
  if (1 <<< 63 : Nat) ≤ value then brokenAt cursor (.refused .integerTooLarge)
  else if value < -(1 <<< 63 : Nat) then brokenAt cursor (.refused .integerTooSmall)
  else .found (value, after)

/-- Read an integer in another base behind its two characters for the base. -/
def basedInteger (form : Form) (base : Nat) (cursor : Cursor) : Attempt (Int × Cursor) := do
  let isDigit (c : Char) : Bool := ((Text.hexValue? c).filter (· < base)).isSome
  let (cs, after) ← ((digits isDigit (cursor.advance 2)).within form).require
  boundedInteger cursor (digitsValue base cs) after

/-- Read an integer. -/
def integer (cursor : Cursor) : Attempt (Int × Cursor) :=
  match cursor.rest with
  | '0' :: 'x' :: _ => basedInteger .hexadecimalInteger 16 cursor
  | '0' :: 'o' :: _ => basedInteger .octalInteger 8 cursor
  | '0' :: 'b' :: _ => basedInteger .binaryInteger 2 cursor
  | _ => do
      let (isNegative, cs, after) ← decimalDigits cursor
      let magnitude : Int := digitsValue 10 cs
      boundedInteger cursor (if isNegative then -magnitude else magnitude) after

/-! ## Floating point numbers -/

/-- Read an exponent, if there is one. -/
def exponent (cursor : Cursor) : Attempt (Int × Cursor) :=
  if cursor.next? = some 'e' || cursor.next? = some 'E' then do
    let (isNegative, unsigned) := sign (cursor.advance 1)
    let (cs, after) ← (digits Char.isDigit unsigned).require
    let magnitude : Int := digitsValue 10 cs
    return (if isNegative then -magnitude else magnitude, after)
  else .found (0, cursor)

/-- Read the digits of a fraction, if there is a point. -/
def fraction (cursor : Cursor) : Attempt (List Char × Cursor) :=
  if cursor.next? = some '.' then
    ((digits Char.isDigit (cursor.advance 1)).expecting ["digit"]).require
  else .found ([], cursor)

/-- Read a finite number with a fraction or an exponent. -/
def decimalFloat (cursor : Cursor) : Attempt (Binary64 × Cursor) := do
  let (isNegative, whole, behindWhole) ← decimalDigits cursor
  let (part, behindPart) ← fraction behindWhole
  let (power, after) ← exponent behindPart
  if after.offset = behindWhole.offset then absentAt after .bare
  else
    let value :=
      Binary64.ofDecimal isNegative (digitsValue 10 (whole ++ part)) (power - part.length)
    if value = .infinity then brokenAt cursor .bare else return (value, after)

/-- Read an infinity or the number that is none. -/
def specialFloat (cursor : Cursor) : Attempt (Binary64 × Cursor) :=
  let (isNegative, unsigned) := sign cursor
  match unsigned.over? "inf", unsigned.over? "nan" with
  | some after, _ => .found (if isNegative then .negativeInfinity else .infinity, after)
  | none, some after => .found (.nan, after)
  | none, none => absentAt unsigned .bare

/-- Read a floating point number. -/
def float (cursor : Cursor) : Attempt (Binary64 × Cursor) :=
  ((decimalFloat cursor).orElse fun _ => specialFloat cursor).within .floatingPoint

end FleetCompose.Toml
