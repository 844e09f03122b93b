/-!
# Splitting texts at a character

`splitFirst` cuts a text at the first occurrence of a separator and `splitLast` at the
last one; the separator belongs to neither part. `lines` cuts a text into its lines.
-/

namespace FleetCompose.Text

/-- Cut a list at the first `sep`; `none` when there is none. -/
def splitFirstChars (sep : Char) : List Char → Option (List Char × List Char)
  | [] => none
  | c :: cs =>
      if c = sep then some ([], cs)
      else (splitFirstChars sep cs).map fun (before, after) => (c :: before, after)

/-- Cut a list at the last `sep`; `none` when there is none. -/
def splitLastChars (sep : Char) (cs : List Char) : Option (List Char × List Char) :=
  (splitFirstChars sep cs.reverse).map fun (after, before) => (before.reverse, after.reverse)

/-- Cut a text at the first `sep`. -/
def splitFirst (sep : Char) (s : String) : Option (String × String) :=
  (splitFirstChars sep s.toList).map fun (before, after) =>
    (String.ofList before, String.ofList after)

/-- Cut a text at the last `sep`. -/
def splitLast (sep : Char) (s : String) : Option (String × String) :=
  (splitLastChars sep s.toList).map fun (before, after) =>
    (String.ofList before, String.ofList after)

/-- The part of a text before its first `sep`, or all of it when there is none. -/
def beforeFirst (sep : Char) (s : String) : String :=
  match splitFirst sep s with
  | some (before, _) => before
  | none => s

/-- The part of a text after its last `sep`, or all of it when there is none. -/
def afterLast (sep : Char) (s : String) : String :=
  match splitLast sep s with
  | some (_, after) => after
  | none => s

theorem splitFirstChars_eq_none_iff {sep : Char} {cs : List Char} :
    splitFirstChars sep cs = none ↔ sep ∉ cs := by
  induction cs with
  | nil => simp [splitFirstChars]
  | cons c cs ih =>
      by_cases h : c = sep
      · simp [splitFirstChars, h]
      · have : ¬ sep = c := fun e => h e.symm
        simp [splitFirstChars, h, ih, this]

/-- The parts around the first separator: the first part has none. -/
theorem splitFirstChars_eq_some_iff {sep : Char} {cs before after : List Char} :
    splitFirstChars sep cs = some (before, after) ↔
      cs = before ++ sep :: after ∧ sep ∉ before := by
  induction cs generalizing before with
  | nil => simp [splitFirstChars]
  | cons c cs ih =>
      by_cases h : c = sep
      · subst h
        constructor
        · intro e
          simp only [splitFirstChars, ↓reduceIte, Option.some.injEq, Prod.mk.injEq] at e
          simp [← e.1, e.2]
        · rintro ⟨e, free⟩
          cases before with
          | nil => simp_all [splitFirstChars]
          | cons b before => simp_all
      · simp only [splitFirstChars, h, ↓reduceIte, Option.map_eq_some_iff, Prod.exists,
          Prod.mk.injEq]
        constructor
        · rintro ⟨b, a, e, rfl, rfl⟩
          obtain ⟨rfl, free⟩ := ih.1 e
          have : ¬ sep = c := fun e => h e.symm
          simp [this, free]
        · rintro ⟨e, free⟩
          cases before with
          | nil => simp_all
          | cons b before =>
              simp only [List.cons_append, List.cons.injEq] at e
              refine ⟨before, after, ih.2 ⟨e.2, ?_⟩, by simp [e.1], rfl⟩
              intro m
              exact free (List.mem_cons_of_mem _ m)

theorem splitLastChars_eq_none_iff {sep : Char} {cs : List Char} :
    splitLastChars sep cs = none ↔ sep ∉ cs := by
  simp [splitLastChars, splitFirstChars_eq_none_iff]

/-- The parts around the last separator: the second part has none. -/
theorem splitLastChars_eq_some_iff {sep : Char} {cs before after : List Char} :
    splitLastChars sep cs = some (before, after) ↔
      cs = before ++ sep :: after ∧ sep ∉ after := by
  simp only [splitLastChars, Option.map_eq_some_iff, Prod.exists, Prod.mk.injEq,
    splitFirstChars_eq_some_iff]
  constructor
  · rintro ⟨a, b, ⟨e, free⟩, rfl, rfl⟩
    refine ⟨?_, by simpa using free⟩
    have := congrArg List.reverse e
    simpa using this
  · rintro ⟨rfl, free⟩
    exact ⟨after.reverse, before.reverse, by simp [free], by simp, by simp⟩

/-! ## Lines -/

/-- Cut a list at every `sep`. There is always one part more than there are separators. -/
def splitOnChars (sep : Char) : List Char → List (List Char)
  | [] => [[]]
  | c :: cs =>
      if c = sep then [] :: splitOnChars sep cs
      else
        match splitOnChars sep cs with
        | [] => [[c]]
        | part :: parts => (c :: part) :: parts

theorem splitOnChars_ne_nil (sep : Char) (cs : List Char) : splitOnChars sep cs ≠ [] := by
  cases cs with
  | nil => simp [splitOnChars]
  | cons c cs =>
      simp only [splitOnChars]
      split
      · simp
      · split <;> simp

/-- The parts, joined by the separator, are the list again. -/
theorem intercalate_splitOnChars (sep : Char) (cs : List Char) :
    List.intercalate [sep] (splitOnChars sep cs) = cs := by
  induction cs with
  | nil => rfl
  | cons c cs ih =>
      simp only [splitOnChars]
      split
      · next h =>
          cases e : splitOnChars sep cs with
          | nil => exact absurd e (splitOnChars_ne_nil sep cs)
          | cons part parts =>
              rw [e] at ih
              rw [List.intercalate_cons_cons, ih, h]
              rfl
      · cases e : splitOnChars sep cs with
        | nil => exact absurd e (splitOnChars_ne_nil sep cs)
        | cons part parts =>
            rw [e] at ih
            cases parts with
            | nil => simpa using ih
            | cons next rest =>
                rw [List.intercalate_cons_cons] at ih ⊢
                simp [← ih]

/-- The lines of a text. A line feed ends a line, so a text that ends in one has no
further empty line; a carriage return in front of a line feed belongs to the line end. -/
def lines (s : String) : List String :=
  let parts := splitOnChars '\n' s.toList
  let last := parts.getLastD []
  let ended := parts.dropLast.map fun cs =>
    if cs.getLast? = some '\r' then cs.dropLast else cs
  (ended ++ if last.isEmpty then [] else [last]).map String.ofList

end FleetCompose.Text
