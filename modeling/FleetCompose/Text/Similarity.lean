/-!
# Similar texts

The Jaro similarity of two texts counts the characters that they have in common at nearly the
same places, and those of them that are in another order. It is a fraction between zero and
one, kept exact.
-/

namespace FleetCompose.Text

/-- A fraction. -/
structure Ratio where
  num : Nat
  den : Nat
  deriving DecidableEq, Repr

/-- Is the first fraction at most the second one? -/
def Ratio.le (a b : Ratio) : Bool := a.num * b.den ≤ b.num * a.den

/-- Is the first fraction less than the second one? -/
def Ratio.lt (a b : Ratio) : Bool := a.num * b.den < b.num * a.den

/-- The first index from `low` on and below `high` at which `c` is that is not taken. -/
def freeIndex? (c : Char) (low high : Nat) (taken : List Nat) (cs : List Char) : Option Nat :=
  (cs.zipIdx.find? fun (d, index) =>
    low ≤ index && index < high && c == d && !taken.contains index).map Prod.snd

/-- The pairs of places with a common character; places must not be further apart than
`reach`. -/
def commonPlaces (reach : Nat) (second : List Char) :
    (index : Nat) → (found : List (Nat × Nat)) → List Char → List (Nat × Nat)
  | _, found, [] => found.reverse
  | index, found, c :: cs =>
      match freeIndex? c (index - reach) (index + reach + 1) (found.map Prod.snd) second with
      | some other => commonPlaces reach second (index + 1) ((index, other) :: found) cs
      | none => commonPlaces reach second (index + 1) found cs

/-- The Jaro similarity of two lists of characters. -/
def jaroChars (first second : List Char) : Ratio :=
  let a := first.length
  let b := second.length
  if a = 0 && b = 0 then ⟨1, 1⟩
  else
    let places := commonPlaces (max a b / 2 - 1) second 0 [] first
    let m := places.length
    if m = 0 then ⟨0, 1⟩
    else
      let inOrder := (List.range b).filter (places.map Prod.snd).contains
      let moved := (places.zip inOrder).countP fun (place, other) =>
        first[place.1]? != second[other]?
      let t := moved / 2
      ⟨m * m * b + m * m * a + (m - t) * a * b, 3 * a * b * m⟩

/-- The Jaro similarity of two texts. -/
def jaro (first second : String) : Ratio := jaroChars first.toList second.toList

end FleetCompose.Text
