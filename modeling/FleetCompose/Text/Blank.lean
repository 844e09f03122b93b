/-!
# Blank characters and trimming

A character is blank when it has the Unicode property `White_Space`. Identifiers,
references and most other texts of a configuration document are compared after
blanks at both ends have been removed; that is `trim`.
-/

namespace FleetCompose.Text

/-- The Unicode property `White_Space`. -/
def isBlank (c : Char) : Bool :=
  let n := c.toNat
  (9 ≤ n && n ≤ 13) || n == 0x20 || n == 0x85 || n == 0xA0 || n == 0x1680 ||
    (0x2000 ≤ n && n ≤ 0x200A) || n == 0x2028 || n == 0x2029 || n == 0x202F ||
    n == 0x205F || n == 0x3000

/-- Drop the longest run of elements at the end that satisfy `p`. -/
def dropEndWhile {α : Type} (p : α → Bool) (xs : List α) : List α :=
  (xs.reverse.dropWhile p).reverse

/-- Remove the blanks at both ends. -/
def trimChars (cs : List Char) : List Char :=
  dropEndWhile isBlank (cs.dropWhile isBlank)

/-- Remove the blanks at both ends of a text. -/
def trim (s : String) : String :=
  String.ofList (trimChars s.toList)

/-- A text without any character other than blanks. -/
def isAllBlank (s : String) : Bool :=
  s.toList.all isBlank

/-- Remove every slash at the end of a text. -/
def dropTrailingSlashes (s : String) : String :=
  String.ofList (dropEndWhile (· == '/') s.toList)

theorem dropEndWhile_append_of_all {α : Type} (p : α → Bool) (xs ys : List α)
    (h : ys.all p = true) : dropEndWhile p (xs ++ ys) = dropEndWhile p xs := by
  have all : ∀ a ∈ ys.reverse, p a = true := by simpa using h
  rw [dropEndWhile, dropEndWhile, List.reverse_append, List.dropWhile_append_of_pos all]

@[simp] theorem toList_trim (s : String) : (trim s).toList = trimChars s.toList := by
  simp [trim]

@[simp] theorem toList_dropTrailingSlashes (s : String) :
    (dropTrailingSlashes s).toList = dropEndWhile (· == '/') s.toList := by
  simp [dropTrailingSlashes]

end FleetCompose.Text
