import FleetCompose.Text.Blank
import FleetCompose.Text.Split
import Mathlib.Data.List.DropRight

/-!
# Trimmed texts and the parts of texts

Trimming is idempotent, so a text that was trimmed once is compared as it is. Splitting a
text at its first separator and taking the last component of a path are characterized on
the characters of the text, without the recursions that compute them.
-/

namespace FleetCompose.Text

/-! ## Trimming -/

theorem dropEndWhile_eq_rdropWhile {α : Type} (p : α → Bool) (xs : List α) :
    dropEndWhile p xs = xs.rdropWhile p := rfl

/-- Dropping at the end does not uncover elements at the front that would be dropped. -/
theorem dropWhile_rdropWhile_dropWhile {α : Type} (p : α → Bool) (xs : List α) :
    ((xs.dropWhile p).rdropWhile p).dropWhile p = (xs.dropWhile p).rdropWhile p := by
  rw [List.dropWhile_eq_self_iff]
  intro nonempty
  have kept := List.rdropWhile_prefix p (xs.dropWhile p)
  have longer : 0 < (xs.dropWhile p).length := Nat.lt_of_lt_of_le nonempty kept.length_le
  rw [kept.getElem nonempty]
  exact List.dropWhile_get_zero_not p xs longer

@[simp] theorem trimChars_trimChars (cs : List Char) :
    trimChars (trimChars cs) = trimChars cs := by
  simp only [trimChars, dropEndWhile_eq_rdropWhile]
  rw [dropWhile_rdropWhile_dropWhile, List.rdropWhile_idempotent]

@[simp] theorem trim_trim (text : String) : trim (trim text) = trim text := by
  rw [← String.toList_inj]
  simp

@[simp] theorem trim_empty : trim "" = "" := rfl

theorem mem_of_mem_trim {c : Char} {text : String} (member : c ∈ (trim text).toList) :
    c ∈ text.toList := by
  rw [toList_trim, trimChars, dropEndWhile_eq_rdropWhile] at member
  exact (List.dropWhile_suffix _).subset ((List.rdropWhile_prefix _ _).subset member)

theorem trim_of_not_blank {text : String} (solid : ∀ c ∈ text.toList, isBlank c = false) :
    trim text = text := by
  rw [← String.toList_inj, toList_trim, trimChars, dropEndWhile_eq_rdropWhile]
  have front : text.toList.dropWhile isBlank = text.toList := by
    rw [List.dropWhile_eq_self_iff]
    exact fun nonempty => by simp [solid _ (List.getElem_mem nonempty)]
  rw [front, List.rdropWhile_eq_self_iff]
  exact fun nonempty => by simp [solid _ (List.getLast_mem nonempty)]

/-! ## Splitting at a separator -/

theorem splitFirst_eq_none_iff {sep : Char} {text : String} :
    splitFirst sep text = none ↔ sep ∉ text.toList := by
  simp [splitFirst, splitFirstChars_eq_none_iff]

/-- The parts around the first separator: they and the separator make up the text, and the
first part has no separator. -/
theorem splitFirst_eq_some_iff {sep : Char} {text before after : String} :
    splitFirst sep text = some (before, after) ↔
      text.toList = before.toList ++ sep :: after.toList ∧ sep ∉ before.toList := by
  simp only [splitFirst, Option.map_eq_some_iff, Prod.exists, Prod.mk.injEq,
    splitFirstChars_eq_some_iff]
  constructor
  · intro given
    rcases given with ⟨front, back, ⟨whole, free⟩, rfl, rfl⟩
    simpa using ⟨whole, free⟩
  · intro given
    rcases given with ⟨whole, free⟩
    exact ⟨before.toList, after.toList, ⟨whole, free⟩, by simp, by simp⟩

theorem beforeFirst_of_splitFirst {sep : Char} {text before after : String}
    (parts : splitFirst sep text = some (before, after)) :
    beforeFirst sep text = before := by
  simp [beforeFirst, parts]

theorem notMem_beforeFirst (sep : Char) (text : String) :
    sep ∉ (beforeFirst sep text).toList := by
  cases parts : splitFirst sep text with
  | none =>
      rw [beforeFirst, parts]
      exact splitFirst_eq_none_iff.mp parts
  | some pair =>
      rw [beforeFirst_of_splitFirst parts]
      exact (splitFirst_eq_some_iff.mp parts).2

theorem mem_of_splitFirst {sep : Char} {text before after : String}
    (parts : splitFirst sep text = some (before, after)) : sep ∈ text.toList := by
  have whole := (splitFirst_eq_some_iff.mp parts).1
  simp [whole]

/-- A text has two parts around a separator exactly if it has the separator. -/
theorem exists_splitFirst_of_mem {sep : Char} {text : String} (member : sep ∈ text.toList) :
    ∃ before after, splitFirst sep text = some (before, after) := by
  cases parts : splitFirst sep text with
  | none => exact absurd member (splitFirst_eq_none_iff.mp parts)
  | some pair => exact ⟨pair.1, pair.2, rfl⟩

/-! ## The last component of a path -/

/-- The last component of a path: the text after the last slash once the slashes at the end
are gone. It may be empty. -/
def finalComponent (path : String) : String :=
  String.ofList ((path.toList.rdropWhile (· == '/')).rtakeWhile (· != '/'))

/-- The part after the last separator is the longest part at the end without one. -/
theorem afterLast_eq_rtakeWhile (sep : Char) (text : String) :
    afterLast sep text = String.ofList (text.toList.rtakeWhile (· != sep)) := by
  rw [afterLast, splitLast]
  cases parts : splitLastChars sep text.toList with
  | none =>
      have free := splitLastChars_eq_none_iff.mp parts
      have all : text.toList.rtakeWhile (· != sep) = text.toList := by
        rw [List.rtakeWhile_eq_self_iff]
        intro c member
        simpa using fun equal : c = sep => free (equal ▸ member)
      simp [all]
  | some pair =>
      rcases splitLastChars_eq_some_iff.mp parts with ⟨whole, free⟩
      have back : text.toList.rtakeWhile (· != sep) = pair.2 := by
        rw [whole, List.rtakeWhile, List.reverse_append, List.reverse_cons, List.append_assoc,
          List.takeWhile_append_of_pos]
        · simp
        · intro c member
          simpa using fun equal : c = sep => free (by simpa [equal] using member)
      simp [back]

theorem slash_notMem_finalComponent (path : String) : '/' ∉ (finalComponent path).toList := by
  intro member
  rw [finalComponent, String.toList_ofList] at member
  have apart := List.mem_rtakeWhile_imp member
  simp at apart

theorem afterLast_dropTrailingSlashes (path : String) :
    afterLast '/' (dropTrailingSlashes path) = finalComponent path := by
  simp [afterLast_eq_rtakeWhile, finalComponent, dropEndWhile_eq_rdropWhile]

/-! ## Directories and names -/

/-- The parts around the last separator. -/
theorem splitLast_eq_some_iff {sep : Char} {text before after : String} :
    splitLast sep text = some (before, after) ↔
      text.toList = before.toList ++ sep :: after.toList ∧ sep ∉ after.toList := by
  simp only [splitLast, Option.map_eq_some_iff, Prod.exists, Prod.mk.injEq,
    splitLastChars_eq_some_iff]
  constructor
  · intro given
    rcases given with ⟨front, back, ⟨whole, free⟩, rfl, rfl⟩
    simpa using ⟨whole, free⟩
  · intro given
    rcases given with ⟨whole, free⟩
    exact ⟨before.toList, after.toList, ⟨whole, free⟩, by simp, by simp⟩

theorem splitLast_join {directory name : String} (free : '/' ∉ name.toList) :
    splitLast '/' (directory ++ "/" ++ name) = some (directory, name) :=
  splitLast_eq_some_iff.mpr ⟨by simp, free⟩

/-- A path with a name at its end has one directory and one name. -/
theorem join_inj {directory other name otherName : String} (free : '/' ∉ name.toList)
    (otherFree : '/' ∉ otherName.toList) :
    directory ++ "/" ++ name = other ++ "/" ++ otherName ↔
      directory = other ∧ name = otherName := by
  constructor
  · intro equal
    have parts := congrArg (splitLast '/') equal
    rw [splitLast_join free, splitLast_join otherFree] at parts
    simpa using parts
  · intro equal
    rw [equal.1, equal.2]

@[simp] theorem afterLast_join {directory name : String} (free : '/' ∉ name.toList) :
    afterLast '/' (directory ++ "/" ++ name) = name := by
  rw [afterLast, splitLast_join free]

/-- What has no separator belongs to the part after the last one. -/
theorem afterLast_append {separator : Char} {front back : String}
    (free : separator ∉ back.toList) :
    afterLast separator (front ++ back) = afterLast separator front ++ back := by
  have kept : ∀ c ∈ back.toList.reverse, (c != separator) = true := by
    intro c member
    simpa using fun equal : c = separator => free (by simpa [equal] using member)
  rw [afterLast_eq_rtakeWhile, afterLast_eq_rtakeWhile, ← String.toList_inj, String.toList_append,
    List.rtakeWhile, List.reverse_append, List.takeWhile_append_of_pos kept]
  simp [List.rtakeWhile]

theorem splitLast_colon {text last : String} (free : ':' ∉ last.toList) :
    splitLast ':' (text ++ ":" ++ last) = some (text, last) :=
  splitLast_eq_some_iff.mpr ⟨by simp, free⟩

theorem afterLast_of_free {text : String} (free : '/' ∉ text.toList) :
    afterLast '/' text = text := by
  have none := splitLastChars_eq_none_iff.mpr free
  rw [afterLast, splitLast, none, Option.map_none]

/-! ## Parts between separators -/

/-- A separator ends a part. -/
theorem splitOnChars_append_cons (separator : Char) (front rest : List Char) :
    splitOnChars separator (front ++ separator :: rest) =
      splitOnChars separator front ++ splitOnChars separator rest := by
  induction front with
  | nil => simp [splitOnChars]
  | cons c front ih =>
      rw [List.cons_append, splitOnChars, splitOnChars, ih]
      split
      · rfl
      · cases parts : splitOnChars separator front with
        | nil => exact absurd parts (splitOnChars_ne_nil _ _)
        | cons part parts => rfl

theorem splitOnChars_of_notMem {separator : Char} {cs : List Char} (free : separator ∉ cs) :
    splitOnChars separator cs = [cs] := by
  induction cs with
  | nil => rfl
  | cons c cs ih =>
      rw [List.mem_cons, not_or] at free
      rw [splitOnChars, if_neg (Ne.symm free.1), ih free.2]

theorem notMem_of_mem_splitOnChars {separator : Char} {cs part : List Char}
    (member : part ∈ splitOnChars separator cs) : separator ∉ part := by
  induction cs generalizing part with
  | nil => simp_all [splitOnChars]
  | cons c cs ih =>
      obtain ⟨first, others, parts⟩ := List.exists_cons_of_ne_nil (splitOnChars_ne_nil separator cs)
      rw [splitOnChars, parts] at member
      rw [parts] at ih
      split at member
      next => exact (List.mem_cons.mp member).elim (by simp +contextual) ih
      next apart =>
        rcases List.mem_cons.mp member with rfl | later
        · rw [List.mem_cons, not_or]
          exact ⟨Ne.symm apart, ih List.mem_cons_self⟩
        · exact ih (List.mem_cons_of_mem _ later)

end FleetCompose.Text
