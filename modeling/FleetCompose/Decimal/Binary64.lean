/-!
# Binary floating point numbers of 64 bits

A `Binary64` is a sign, a mantissa and a power of two packed into a word. Fractions are
rounded to the nearest such number, a tie going to the even mantissa, in exact arithmetic
on natural numbers.
-/

namespace FleetCompose

/-- A binary floating point number of 64 bits, given by its encoding. -/
structure Binary64 where
  bits : UInt64
  deriving DecidableEq, Repr

namespace Binary64

/-- The sign bit. -/
def negative (x : Binary64) : Bool := x.bits.toNat >>> 63 == 1

/-- The eleven bits of the exponent. -/
def exponentField (x : Binary64) : Nat := (x.bits.toNat >>> 52) % 2048

/-- The fifty-two bits of the fraction. -/
def fractionField (x : Binary64) : Nat := x.bits.toNat % (1 <<< 52)

/-- Not a number. -/
def isNaN (x : Binary64) : Bool := x.exponentField == 2047 && x.fractionField != 0

/-- One of the two infinities. -/
def isInfinite (x : Binary64) : Bool := x.exponentField == 2047 && x.fractionField == 0

/-- Neither infinite nor NaN. -/
def isFinite (x : Binary64) : Bool := x.exponentField != 2047

/-- The mantissa `m` of a finite number `m * 2 ^ q`. -/
def mantissa (x : Binary64) : Nat :=
  if x.exponentField = 0 then x.fractionField else (1 <<< 52) + x.fractionField

/-- The power `q` of a finite number `m * 2 ^ q`. -/
def power (x : Binary64) : Int :=
  if x.exponentField = 0 then -1074 else (x.exponentField : Int) - 1075

/-- Positive infinity. -/
def infinity : Binary64 := ⟨0x7FF0000000000000⟩

/-- Negative infinity. -/
def negativeInfinity : Binary64 := ⟨0xFFF0000000000000⟩

/-- The one NaN that texts stand for. -/
def nan : Binary64 := ⟨0x7FF8000000000000⟩

/-- Equality of numbers: the two zeros are equal, and so are all NaNs. -/
def sameNumber (x y : Binary64) : Bool :=
  x == y || (x.isNaN && y.isNaN) ||
    (x.isFinite && y.isFinite && x.mantissa == 0 && y.mantissa == 0)

/-- The number `magnitude * 2 ^ q` for a magnitude of at most `2 ^ 53`, infinite when it is
too large. -/
def ofParts (isNegative : Bool) (magnitude : Nat) (q : Int) : Binary64 :=
  let field := ((q + 1074).toNat <<< 52) + magnitude
  let field := min field (2047 <<< 52)
  ⟨UInt64.ofNat (field + if isNegative then 1 <<< 63 else 0)⟩

/-- The floor of the binary logarithm of a positive fraction. -/
def fractionLog2 (num den : Nat) : Int :=
  let estimate := (num.log2 : Int) - den.log2
  let reached :=
    if 0 ≤ estimate then den <<< estimate.toNat ≤ num
    else den ≤ num <<< (-estimate).toNat
  if reached then estimate else estimate - 1

/-- The number nearest to a fraction; of two that are equally near, the one with the even
mantissa. -/
def ofFraction (isNegative : Bool) (num den : Nat) : Binary64 :=
  if num = 0 then ofParts isNegative 0 (-1074)
  else
    let q := max (fractionLog2 num den - 52) (-1074)
    let n := if 0 ≤ q then num else num <<< (-q).toNat
    let d := if 0 ≤ q then den <<< q.toNat else den
    let m := n / d
    let r := n % d
    let m := if d < 2 * r || (d == 2 * r && m % 2 == 1) then m + 1 else m
    ofParts isNegative m q

/-- The number nearest to `digits * 10 ^ exponent`. -/
def ofDecimal (isNegative : Bool) (digits : Nat) (exponent : Int) : Binary64 :=
  let magnitude : Int := (Nat.repr digits).length + exponent
  if digits = 0 || magnitude < -330 then ofParts isNegative 0 (-1074)
  else if 310 < magnitude then if isNegative then negativeInfinity else infinity
  else if 0 ≤ exponent then ofFraction isNegative (digits * Nat.pow 10 exponent.toNat) 1
  else ofFraction isNegative digits (Nat.pow 10 (-exponent).toNat)

end Binary64

end FleetCompose
