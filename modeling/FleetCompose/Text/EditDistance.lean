/-!
# Edit distance

The least number of single character insertions, deletions and substitutions that turn
one text into another, computed row by row: row `i` holds, for every initial segment of
the second text, its distance to the first `i` characters of the first text.
-/

namespace FleetCompose.Text

/-- The rest of the row below a row. `diagonal` is the entry above and to the left of the
next entry, `left` the entry just written, and the list holds the entries above. -/
def editRowRest (a : Char) : (diagonal left : Nat) → List Char → List Nat → List Nat
  | diagonal, left, b :: bs, above :: row =>
      let cost := if a = b then 0 else 1
      let entry := min (min (above + 1) (left + 1)) (diagonal + cost)
      entry :: editRowRest a above entry bs row
  | _, _, _, _ => []

/-- The row below a row, for one more character `a` of the first text. -/
def editRow (a : Char) (bs : List Char) : List Nat → List Nat
  | [] => []
  | first :: row => (first + 1) :: editRowRest a first (first + 1) bs row

/-- The row for an empty first text. -/
def editBaseRow (bs : List Char) : List Nat :=
  List.range (bs.length + 1)

/-- The edit distance of two lists of characters. -/
def editDistanceChars (as bs : List Char) : Nat :=
  (as.foldl (fun row a => editRow a bs row) (editBaseRow bs)).getLastD 0

/-- The edit distance of two texts. -/
def editDistance (a b : String) : Nat :=
  editDistanceChars a.toList b.toList

/-- The names within one or two edits of `target`: nearest first, names at the same
distance in their given order, and three at most. -/
def similarNames (names : List String) (target : String) : List String :=
  let near := names.filterMap fun name =>
    let distance := editDistance name target
    if 0 < distance && distance ≤ 2 then some (name, distance) else none
  ((near.filter (·.2 == 1) ++ near.filter (·.2 == 2)).map (·.1)).take 3

end FleetCompose.Text
