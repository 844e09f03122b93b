import FleetCompose.Decimal.Binary64
import FleetCompose.Text.Hexadecimal

/-!
# Plain scalars

A scalar without quotes stands for null, a boolean or a number if it is written like one,
and for a text otherwise. Digits after a leading zero are a text, and so is a floating
point number that is too large.
-/

namespace FleetCompose.Yaml

/-- What a plain scalar stands for. Integers have at most 128 bits, signed or unsigned. -/
inductive Plain where
  | null
  | bool (value : Bool)
  | integer (value : Int)
  | float (value : Binary64)
  | text
  deriving DecidableEq, Repr

namespace Plain

/-- The value of a digit in a base of at most sixteen. -/
def digitValue? (base : Nat) (c : Char) : Option Nat :=
  (Text.hexValue? c).filter (· < base)

/-- The value of a list of digits, which must not be empty. -/
def digitsValue? (base : Nat) (cs : List Char) : Option Nat :=
  if cs.isEmpty then none
  else cs.foldlM (fun n c => (digitValue? base c).map (base * n + ·)) 0

/-- Is the unsigned part of a scalar a zero with further digits? -/
def hasLeadingZero : List Char → Bool
  | '0' :: c :: cs => (c :: cs).all Char.isDigit
  | _ => false

/-- Cut a sign off. -/
def splitSign : List Char → Bool × List Char
  | '-' :: cs => (true, cs)
  | '+' :: cs => (false, cs)
  | cs => (false, cs)

/-- The magnitude of an integer in base sixteen, eight, two or ten. -/
def magnitude? : List Char → Option Nat
  | '0' :: 'x' :: cs => digitsValue? 16 cs
  | '0' :: 'o' :: cs => digitsValue? 8 cs
  | '0' :: 'b' :: cs => digitsValue? 2 cs
  | cs => if hasLeadingZero cs then none else digitsValue? 10 cs

/-- The value of an integer of at most 128 bits. -/
def integer? (cs : List Char) : Option Int :=
  let (isNegative, unsigned) := splitSign cs
  match magnitude? unsigned with
  | none => none
  | some n =>
      if isNegative then if n ≤ 1 <<< 127 then some (-n) else none
      else if n < 1 <<< 128 then some n
      else none

/-- The exponent at the end of a floating point number; nothing stands for zero. -/
def exponent? : List Char → Option Int
  | [] => some 0
  | e :: cs =>
      if e = 'e' || e = 'E' then
        let (isNegative, digits) := splitSign cs
        (digitsValue? 10 digits).map fun n => if isNegative then -n else n
      else none

/-- A finite floating point number in decimal: digits with or without a point among them,
and perhaps an exponent. -/
def decimal? (cs : List Char) : Option Binary64 :=
  let (isNegative, unsigned) := splitSign cs
  let whole := unsigned.takeWhile Char.isDigit
  let rest := unsigned.dropWhile Char.isDigit
  let (fraction, rest) :=
    match rest with
    | '.' :: rest => (rest.takeWhile Char.isDigit, rest.dropWhile Char.isDigit)
    | rest => ([], rest)
  match digitsValue? 10 (whole ++ fraction), exponent? rest with
  | some digits, some exponent =>
      let value := Binary64.ofDecimal isNegative digits (exponent - fraction.length)
      if value.isFinite then some value else none
  | _, _ => none

/-- The value of a floating point number. -/
def float? (scalar : String) : Option Binary64 :=
  if scalar ∈ [".inf", ".Inf", ".INF", "+.inf", "+.Inf", "+.INF"] then some .infinity
  else if scalar ∈ ["-.inf", "-.Inf", "-.INF"] then some .negativeInfinity
  else if scalar ∈ [".nan", ".NaN", ".NAN"] then some .nan
  else decimal? scalar.toList

/-- Is a scalar one of the written forms of null? -/
def isNull (scalar : String) : Bool :=
  scalar ∈ ["~", "null", "Null", "NULL"]

/-- The value of a boolean. -/
def bool? (scalar : String) : Option Plain :=
  if scalar ∈ ["true", "True", "TRUE"] then some (.bool true)
  else if scalar ∈ ["false", "False", "FALSE"] then some (.bool false)
  else none

/-- What a plain scalar stands for. -/
def resolve (scalar : String) : Plain :=
  if scalar.isEmpty || isNull scalar then .null
  else
    match bool? scalar, integer? scalar.toList with
    | some value, _ => value
    | none, some value => .integer value
    | none, none =>
        if hasLeadingZero (splitSign scalar.toList).2 then .text
        else
          match float? scalar with
          | some value => .float value
          | none => .text

/-- Does the scalar, written without quotes, stand for something other than itself? This
includes digits after a leading zero, which other readers take for a number. -/
def isAmbiguous (scalar : String) : Bool :=
  resolve scalar != .text || hasLeadingZero (splitSign scalar.toList).2

end Plain

end FleetCompose.Yaml
