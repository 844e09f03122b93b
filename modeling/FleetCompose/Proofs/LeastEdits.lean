import FleetCompose.Text.EditDistance
import Mathlib.Order.Bounds.Basic
import Mathlib.Order.MinMax

/-!
# Least edits

The edit distance of two texts is computed row by row. It is the least number of edits of single
characters that turn one text into the other, and everything else that is expected of a distance
follows from that: edits can be undone, and they can be put one after the other.
-/

namespace FleetCompose.Text

/-! ## Edits -/

/-- One edit: a character is inserted, deleted or replaced. -/
inductive Edit : List Char → List Char → Prop where
  | insert (front back : List Char) (c : Char) : Edit (front ++ back) (front ++ c :: back)
  | delete (front back : List Char) (c : Char) : Edit (front ++ c :: back) (front ++ back)
  | substitute (front back : List Char) (c d : Char) :
      Edit (front ++ c :: back) (front ++ d :: back)

/-- So many edits, one after the other. -/
inductive Edits : Nat → List Char → List Char → Prop where
  | nil (cs : List Char) : Edits 0 cs cs
  | cons {n : Nat} {as bs cs : List Char} : Edit as bs → Edits n bs cs → Edits (n + 1) as cs

variable {as bs cs front : List Char} {m n : Nat}

theorem Edit.symm (edit : Edit as bs) : Edit bs as := by
  cases edit with
  | insert front back c => exact .delete front back c
  | delete front back c => exact .insert front back c
  | substitute front back c d => exact .substitute front back d c

theorem Edit.reverse (edit : Edit as bs) : Edit as.reverse bs.reverse := by
  cases edit with
  | insert front back c =>
      have edit := Edit.insert back.reverse front.reverse c
      simpa using edit
  | delete front back c =>
      have edit := Edit.delete back.reverse front.reverse c
      simpa using edit
  | substitute front back c d =>
      have edit := Edit.substitute back.reverse front.reverse c d
      simpa using edit

theorem Edit.behind (c : Char) (edit : Edit as bs) : Edit (c :: as) (c :: bs) := by
  cases edit with
  | insert front back d => exact .insert (c :: front) back d
  | delete front back d => exact .delete (c :: front) back d
  | substitute front back d e => exact .substitute (c :: front) back d e

theorem Edits.trans (first : Edits m as bs) (second : Edits n bs cs) : Edits (m + n) as cs := by
  induction first with
  | nil => rwa [Nat.zero_add]
  | cons edit _ ih =>
      rw [Nat.add_right_comm]
      exact .cons edit (ih second)

theorem Edits.symm (edits : Edits n as bs) : Edits n bs as := by
  induction edits with
  | nil cs => exact .nil cs
  | cons edit _ ih => exact ih.trans (.cons edit.symm (.nil _))

theorem Edits.reverse (edits : Edits n as bs) : Edits n as.reverse bs.reverse := by
  induction edits with
  | nil cs => exact .nil _
  | cons edit _ ih => exact .cons edit.reverse ih

theorem Edits.behind (c : Char) (edits : Edits n as bs) : Edits n (c :: as) (c :: bs) := by
  induction edits with
  | nil cs => exact .nil _
  | cons edit _ ih => exact .cons (edit.behind c) ih

theorem Edits.eq_of_zero (edits : Edits 0 as bs) : as = bs := by
  cases edits
  rfl

/-! ## The recursion -/

/-- The number of edits by recursion on both lists: the first character is deleted, or one is
inserted in front of it, or it is kept or replaced. -/
def leastEdits : List Char → List Char → Nat
  | [], bs => bs.length
  | a :: as, [] => (a :: as).length
  | a :: as, b :: bs =>
      min (min (leastEdits as (b :: bs) + 1) (leastEdits (a :: as) bs + 1))
        (leastEdits as bs + if a = b then 0 else 1)

theorem leastEdits_nil_left (bs : List Char) : leastEdits [] bs = bs.length := by
  rw [leastEdits]

theorem leastEdits_nil_right (as : List Char) : leastEdits as [] = as.length := by
  cases as with
  | nil => rw [leastEdits]
  | cons a as => rw [leastEdits]

/-! ## Enough edits -/

theorem edits_insertions (bs : List Char) : Edits bs.length [] bs := by
  induction bs with
  | nil => exact .nil []
  | cons b bs ih => exact .cons (.insert [] [] b) (ih.behind b)

theorem edits_min (first : Edits m as bs) (second : Edits n as bs) : Edits (min m n) as bs := by
  rcases min_choice m n with isFirst | isSecond
  · rwa [isFirst]
  · rwa [isSecond]

/-- So many edits are enough. -/
theorem edits_leastEdits (as bs : List Char) : Edits (leastEdits as bs) as bs := by
  induction as, bs using leastEdits.induct with
  | case1 bs =>
      rw [leastEdits_nil_left]
      exact edits_insertions bs
  | case2 a as =>
      rw [leastEdits_nil_right]
      exact (edits_insertions (a :: as)).symm
  | case3 a as b bs deleted inserted kept =>
      have deletes : Edits (leastEdits as (b :: bs) + 1) (a :: as) (b :: bs) :=
        .cons (.delete [] as a) deleted
      have inserts : Edits (leastEdits (a :: as) bs + 1) (a :: as) (b :: bs) :=
        .cons (.insert [] (a :: as) b) (inserted.behind b)
      have keeps : Edits (leastEdits as bs + if a = b then 0 else 1) (a :: as) (b :: bs) := by
        split
        next same =>
          subst same
          exact kept.behind a
        next => exact .cons (.substitute [] as a b) (kept.behind b)
      rw [leastEdits]
      exact edits_min (edits_min deletes inserts) keeps

/-! ## No fewer edits -/

theorem leastEdits_cons_left_le (a : Char) (as cs : List Char) :
    leastEdits (a :: as) cs ≤ leastEdits as cs + 1 := by
  cases cs with
  | nil => simp [leastEdits_nil_right]
  | cons c cs =>
      rw [leastEdits]
      exact (min_le_left _ _).trans (min_le_left _ _)

theorem leastEdits_cons_right_le (as : List Char) (c : Char) (cs : List Char) :
    leastEdits as (c :: cs) ≤ leastEdits as cs + 1 := by
  cases as with
  | nil => simp [leastEdits_nil_left]
  | cons a as =>
      rw [leastEdits]
      exact (min_le_left _ _).trans (min_le_right _ _)

theorem leastEdits_cons_cons_le (a c : Char) (as cs : List Char) :
    leastEdits (a :: as) (c :: cs) ≤ leastEdits as cs + if a = c then 0 else 1 := by
  rw [leastEdits]
  exact min_le_right _ _

/-- One of the three ways to go on is the shortest. -/
theorem leastEdits_cons_cons_cases (a c : Char) (as cs : List Char) :
    leastEdits (a :: as) (c :: cs) = leastEdits as (c :: cs) + 1 ∨
      leastEdits (a :: as) (c :: cs) = leastEdits (a :: as) cs + 1 ∨
      leastEdits (a :: as) (c :: cs) = leastEdits as cs + if a = c then 0 else 1 := by
  rw [leastEdits]
  rcases min_choice (min (leastEdits as (c :: cs) + 1) (leastEdits (a :: as) cs + 1))
    (leastEdits as cs + if a = c then 0 else 1) with outer | kept
  · rw [outer]
    rcases min_choice (leastEdits as (c :: cs) + 1) (leastEdits (a :: as) cs + 1) with
      deleted | inserted
    · exact .inl deleted
    · exact .inr (.inl inserted)
  · exact .inr (.inr kept)

/-- A character less saves one edit at most. -/
theorem leastEdits_le_cons_left (a : Char) (as cs : List Char) :
    leastEdits as cs ≤ leastEdits (a :: as) cs + 1 := by
  induction cs with
  | nil =>
      rw [leastEdits_nil_right, leastEdits_nil_right, List.length_cons]
      omega
  | cons c cs ih =>
      have inserts := leastEdits_cons_right_le as c cs
      rcases leastEdits_cons_cons_cases a c as cs with deleted | inserted | kept
      · omega
      · omega
      · omega

/-- Another character saves one edit at most. -/
theorem leastEdits_le_replaced (a b : Char) (as cs : List Char) :
    leastEdits (a :: as) cs ≤ leastEdits (b :: as) cs + 1 := by
  induction cs with
  | nil =>
      rw [leastEdits_nil_right, leastEdits_nil_right, List.length_cons, List.length_cons]
      omega
  | cons c cs ih =>
      -- The script for the one text goes on in the same way for the other one.
      rcases leastEdits_cons_cons_cases b c as cs with deleted | inserted | kept
      · have deletes := leastEdits_cons_left_le a as (c :: cs)
        omega
      · have inserts := leastEdits_cons_right_le (a :: as) c cs
        omega
      · have keeps := leastEdits_cons_cons_le a c as cs
        split at keeps <;> omega

/-- What an edit saves at most does not depend on what stands in front of it. -/
theorem leastEdits_le_behind (saves : ∀ cs, leastEdits as cs ≤ leastEdits bs cs + 1) (a : Char)
    (cs : List Char) : leastEdits (a :: as) cs ≤ leastEdits (a :: bs) cs + 1 := by
  induction cs with
  | nil =>
      have lengths := saves []
      rw [leastEdits_nil_right, leastEdits_nil_right] at lengths ⊢
      rw [List.length_cons, List.length_cons]
      omega
  | cons c cs ih =>
      rcases leastEdits_cons_cons_cases a c bs cs with deleted | inserted | kept
      · have deletes := leastEdits_cons_left_le a as (c :: cs)
        have rest := saves (c :: cs)
        omega
      · have inserts := leastEdits_cons_right_le (a :: as) c cs
        omega
      · have keeps := leastEdits_cons_cons_le a c as cs
        have rest := saves cs
        omega

theorem Edit.leastEdits_le (edit : Edit as bs) (cs : List Char) :
    leastEdits as cs ≤ leastEdits bs cs + 1 := by
  have behind {as bs : List Char} (front : List Char)
      (saves : ∀ cs, leastEdits as cs ≤ leastEdits bs cs + 1) :
      ∀ cs, leastEdits (front ++ as) cs ≤ leastEdits (front ++ bs) cs + 1 := by
    induction front with
    | nil => exact saves
    | cons a front ih => exact leastEdits_le_behind ih a
  cases edit with
  | insert front back c => exact behind front (leastEdits_le_cons_left c back) cs
  | delete front back c => exact behind front (leastEdits_cons_left_le c back) cs
  | substitute front back c d => exact behind front (leastEdits_le_replaced c d back) cs

theorem leastEdits_self (cs : List Char) : leastEdits cs cs = 0 := by
  induction cs with
  | nil => exact leastEdits_nil_left []
  | cons c cs ih =>
      have keeps := leastEdits_cons_cons_le c c cs cs
      rw [ih, if_pos rfl] at keeps
      exact Nat.le_zero.mp keeps

/-- No fewer edits are enough. -/
theorem Edits.leastEdits_le (edits : Edits n as bs) : leastEdits as bs ≤ n := by
  induction edits with
  | nil cs => exact (leastEdits_self cs).le
  | cons edit _ ih => exact (edit.leastEdits_le _).trans (Nat.succ_le_succ ih)

theorem isLeast_leastEdits (as bs : List Char) :
    IsLeast {n | Edits n as bs} (leastEdits as bs) :=
  ⟨edits_leastEdits as bs, fun _ edits => edits.leastEdits_le⟩

/-- The number of edits is the same from the other end of the texts. -/
theorem leastEdits_reverse (as bs : List Char) :
    leastEdits as.reverse bs.reverse = leastEdits as bs := by
  apply le_antisymm
  · exact (edits_leastEdits as bs).reverse.leastEdits_le
  · have edits := (edits_leastEdits as.reverse bs.reverse).reverse
    rw [List.reverse_reverse, List.reverse_reverse] at edits
    exact edits.leastEdits_le

/-! ## Rows -/

/-- The entries of a row behind its first one: the distances from `as` to `front` with more and
more characters of the second text. Texts are taken from the end, so that a longer initial segment
of a text is a list with one more element in front. -/
def rowRest (as front : List Char) : List Char → List Nat
  | [] => []
  | b :: bs => leastEdits as (b :: front) :: rowRest as (b :: front) bs

/-- The distances from a text to all initial segments of another one. -/
def distanceRow (as bs : List Char) : List Nat := leastEdits as [] :: rowRest as [] bs

theorem editBaseRow_eq (bs : List Char) : editBaseRow bs = distanceRow [] bs := by
  have rest (bs front : List Char) :
      rowRest [] front bs = List.range' (front.length + 1) bs.length := by
    induction bs generalizing front with
    | nil => rfl
    | cons b bs ih =>
        rw [rowRest, ih, leastEdits_nil_left, List.length_cons, List.length_cons, List.range'_succ]
  rw [distanceRow, rest, leastEdits_nil_left, editBaseRow, List.range_eq_range',
    List.range'_succ]
  rfl

theorem editRowRest_eq (a : Char) (as front bs : List Char) :
    editRowRest a (leastEdits as front) (leastEdits (a :: as) front) bs (rowRest as front bs) =
      rowRest (a :: as) front bs := by
  induction bs generalizing front with
  | nil => rfl
  | cons b bs ih =>
      have entry : min (min (leastEdits as (b :: front) + 1) (leastEdits (a :: as) front + 1))
          (leastEdits as front + if a = b then 0 else 1) = leastEdits (a :: as) (b :: front) := by
        rw [leastEdits.eq_3]
      rw [rowRest, rowRest, editRowRest]
      simp only [entry, ih]

/-- One more character of the first text: the next row. -/
theorem editRow_distanceRow (a : Char) (as bs : List Char) :
    editRow a bs (distanceRow as bs) = distanceRow (a :: as) bs := by
  have first : leastEdits as [] + 1 = leastEdits (a :: as) [] := by
    rw [leastEdits_nil_right, leastEdits_nil_right, List.length_cons]
  rw [distanceRow, distanceRow, editRow, first, editRowRest_eq]

/-- After all characters of the first text. -/
theorem foldl_editRow (as bs front : List Char) :
    as.foldl (fun row a => editRow a bs row) (distanceRow front bs) =
      distanceRow (as.reverse ++ front) bs := by
  induction as generalizing front with
  | nil => rfl
  | cons a as ih =>
      rw [List.foldl_cons, editRow_distanceRow, ih, List.reverse_cons, List.append_assoc]
      rfl

/-- The last entry is the distance to the whole text. -/
theorem getLastD_distanceRow (as bs : List Char) :
    (distanceRow as bs).getLastD 0 = leastEdits as bs.reverse := by
  have last (bs front : List Char) :
      (leastEdits as front :: rowRest as front bs).getLastD 0 =
        leastEdits as (bs.reverse ++ front) := by
    induction bs generalizing front with
    | nil => rfl
    | cons b bs ih =>
        rw [rowRest, List.getLastD_cons, List.getLastD_cons, List.reverse_cons, List.append_assoc]
        have rest := ih (b :: front)
        rw [List.getLastD_cons] at rest
        exact rest
  have whole := last bs []
  rwa [List.append_nil] at whole

/-- The rows compute what the recursion says. -/
theorem editDistanceChars_eq (as bs : List Char) : editDistanceChars as bs = leastEdits as bs := by
  rw [editDistanceChars, editBaseRow_eq, foldl_editRow, List.append_nil, getLastD_distanceRow,
    leastEdits_reverse]

/-! ## The distance -/

/-- A distance of texts that counts edits: it is the least number of them, it follows the standard
recursion on the characters, and it is a metric. -/
structure CountsEdits (distance : String → String → Nat) : Prop where
  least : ∀ a b, IsLeast {n | Edits n a.toList b.toList} (distance a b)
  recursion : ∀ a b, distance a b = leastEdits a.toList b.toList
  symm : ∀ a b, distance a b = distance b a
  eq_zero_iff : ∀ a b, distance a b = 0 ↔ a = b
  triangle : ∀ a b c, distance a c ≤ distance a b + distance b c

theorem leastEdits_comm (as bs : List Char) : leastEdits as bs = leastEdits bs as := by
  apply le_antisymm
  · exact (edits_leastEdits bs as).symm.leastEdits_le
  · exact (edits_leastEdits as bs).symm.leastEdits_le

theorem leastEdits_eq_zero_iff : leastEdits as bs = 0 ↔ as = bs := by
  constructor
  · intro none
    have edits := edits_leastEdits as bs
    rw [none] at edits
    exact edits.eq_of_zero
  · intro same
    rw [same]
    exact leastEdits_self bs

theorem leastEdits_triangle (as bs cs : List Char) :
    leastEdits as cs ≤ leastEdits as bs + leastEdits bs cs :=
  ((edits_leastEdits as bs).trans (edits_leastEdits bs cs)).leastEdits_le

/-- The edit distance counts edits. -/
theorem editDistance_countsEdits : CountsEdits editDistance := by
  have recursion (a b : String) : editDistance a b = leastEdits a.toList b.toList :=
    editDistanceChars_eq a.toList b.toList
  constructor
  case least =>
    intro a b
    rw [recursion]
    exact isLeast_leastEdits a.toList b.toList
  case recursion => exact recursion
  case symm =>
    intro a b
    rw [recursion, recursion, leastEdits_comm]
  case eq_zero_iff =>
    intro a b
    rw [recursion, leastEdits_eq_zero_iff, String.toList_inj]
  case triangle =>
    intro a b c
    rw [recursion, recursion, recursion]
    exact leastEdits_triangle a.toList b.toList c.toList

example : editDistance "carrier" "courier" = 2 := by decide

end FleetCompose.Text
