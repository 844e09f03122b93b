import FleetCompose.Decimal.Binary64

/-!
# Shortest decimals

The shortest decimal of a floating point number is the one with the fewest digits among
those that round to it; of two with equally few digits, the nearer one, and at the same
distance the even one. It is found by trying one digit, two digits and so on up to
seventeen, on the decimal grid with that many digits: a grid has a point that rounds to the
number exactly when one of the two grid points around the number does.
-/

namespace FleetCompose

/-- The decimal `digits * 10 ^ exponent`. -/
structure Decimal where
  digits : Nat
  exponent : Int
  deriving DecidableEq, Repr

namespace Decimal

/-- How many decimal digits a number has. -/
def width (n : Nat) : Nat := (Nat.repr n).length

/-- The floor of the decimal logarithm of a positive fraction. -/
def fractionLog10 (num den : Nat) : Int :=
  let estimate := (width num : Int) - width den
  let reached :=
    if 0 ≤ estimate then den * Nat.pow 10 estimate.toNat ≤ num
    else den ≤ num * Nat.pow 10 (-estimate).toNat
  if reached then estimate else estimate - 1

/-- Drop zeros at the end of the digits, `fuel` many at most. -/
def dropZeros : (fuel : Nat) → Decimal → Decimal
  | 0, x => x
  | fuel + 1, x =>
      if x.digits != 0 && x.digits % 10 == 0 then
        dropZeros fuel ⟨x.digits / 10, x.exponent + 1⟩
      else x

/-- The point of the grid `10 ^ k` that rounds to `m * 2 ^ q` and is nearest to it, if the
grid has one. All quantities are multiples of `2 ^ (q - 2) / 10 ^ k`. -/
def onGrid (m : Nat) (q : Int) (k : Int) : Option Nat :=
  let a := (if k < 0 then Nat.pow 10 (-k).toNat else 1) <<< (q - 2).toNat
  let b := (if 0 ≤ k then Nat.pow 10 k.toNat else 1) <<< (2 - q).toNat
  let value := 4 * m * a
  let high := (4 * m + 2) * a
  let low := (4 * m - if m == 1 <<< 52 && -1074 < q then 1 else 2) * a
  let below := value / b
  let inside (n : Nat) : Bool :=
    if m % 2 == 0 then low ≤ n * b && n * b ≤ high else low < n * b && n * b < high
  let down := value - below * b
  let up := (below + 1) * b - value
  if inside below && below != 0 then
    if inside (below + 1) && (up < down || (up == down && below % 2 == 1)) then some (below + 1)
    else some below
  else if inside (below + 1) then some (below + 1)
  else none

/-- Try the grids with `17 - fuel` and more digits for a number whose first digit stands for
`10 ^ top`. -/
def searchGrids (m : Nat) (q : Int) (top : Int) : (fuel : Nat) → Decimal
  | 0 => ⟨m, q⟩
  | fuel + 1 =>
      let k := top - (17 - (fuel + 1 : Int))
      match onGrid m q k with
      | some digits => dropZeros 20 ⟨digits, k⟩
      | none => searchGrids m q top fuel

/-- The shortest decimal of the positive number `m * 2 ^ q`. -/
def shortest (m : Nat) (q : Int) : Decimal :=
  let num := m <<< q.toNat
  let den := 1 <<< (-q).toNat
  searchGrids m q (fractionLog10 num den) 17

/-! ## Written decimals -/

/-- How decimals are laid out. The position of the point is the number of digits in front of
it; positions from `first` to `last` are written without an exponent. -/
structure Layout where
  first : Int
  last : Int
  plus : Bool
  deriving DecidableEq, Repr

/-- Digits and exponent as text, always with a point or an exponent. -/
def Layout.write (layout : Layout) (x : Decimal) : String :=
  let digits := (Nat.repr x.digits).toList
  let count : Int := digits.length
  let point := count + x.exponent
  if layout.first ≤ point && point ≤ layout.last then
    if 0 ≤ x.exponent then
      String.ofList (digits ++ List.replicate x.exponent.toNat '0' ++ ['.', '0'])
    else if 0 < point then
      String.ofList (digits.take point.toNat ++ ['.'] ++ digits.drop point.toNat)
    else
      String.ofList (['0', '.'] ++ List.replicate (-point).toNat '0' ++ digits)
  else
    let fraction := if digits.length ≤ 1 then [] else '.' :: digits.drop 1
    let exponent := point - 1
    let sign := if exponent < 0 then ['-'] else if layout.plus then ['+'] else []
    String.ofList
      (digits.take 1 ++ fraction ++ ['e'] ++ sign ++ (Nat.repr exponent.natAbs).toList)

/-- A finite number as text. -/
def Layout.writeFinite (layout : Layout) (x : Binary64) : String :=
  let magnitude :=
    if x.mantissa = 0 then "0.0" else layout.write (shortest x.mantissa x.power)
  if x.negative then "-" ++ magnitude else magnitude

end Decimal

end FleetCompose
