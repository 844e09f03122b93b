import FleetCompose.Proofs.Padding
import FleetCompose.Proofs.Segments
import FleetCompose.Proofs.Texts
import Mathlib.Computability.RegularExpressions

/-!
# The regular expression of a placeholder

What is written as a placeholder is a regular language. Its expression is spelled out here with
ranges of characters, without the predicates on characters by which names are checked, and the name
of a placeholder is what stands between its braces, trimmed.
-/

namespace FleetCompose.Template

/-! ## Expressions -/

/-- The characters from one to another. -/
def charsFrom (first last : Char) : List Char :=
  (List.range' first.toNat (last.toNat + 1 - first.toNat)).map Char.ofNat

/-- One of some characters. -/
def oneOf (chars : List Char) : RegularExpression Char :=
  (chars.map RegularExpression.char).sum

/-- Some characters, one after the other. -/
def allOf (chars : List Char) : RegularExpression Char :=
  (chars.map RegularExpression.char).prod

/-- Letters, and the underscore. -/
def letters : List Char := charsFrom 'A' 'Z' ++ charsFrom 'a' 'z' ++ ['_']

/-- A name is a letter or an underscore, and then letters, digits and underscores. -/
def nameExpression : RegularExpression Char :=
  oneOf letters * (oneOf (letters ++ charsFrom '0' '9')).star

/-- Spaces and tabs around a name. -/
def padExpression : RegularExpression Char := (oneOf [' ', '\t']).star

/-- A placeholder is a name between double braces, with spaces and tabs just inside of them. -/
def placeholderExpression : RegularExpression Char :=
  allOf ['{', '{'] * padExpression * nameExpression * padExpression * allOf ['}', '}']

/-! ## Ranges of characters -/

/-- Below the surrogates every number is a character. -/
theorem toNat_ofNat_of_lt {n : Nat} (small : n < 0xD800) : (Char.ofNat n).toNat = n := by
  have valid : n.isValidChar := .inl small
  rw [Char.ofNat, dif_pos valid]
  rfl

theorem mem_charsFrom_iff {first last c : Char} (small : last.toNat < 0xD800) :
    c ∈ charsFrom first last ↔ first.toNat ≤ c.toNat ∧ c.toNat ≤ last.toNat := by
  simp only [charsFrom, List.mem_map, List.mem_range'_1]
  constructor
  · rintro ⟨n, ⟨least, below⟩, rfl⟩
    rw [toNat_ofNat_of_lt (by omega)]
    omega
  · rintro ⟨least, most⟩
    exact ⟨c.toNat, by omega, Char.ofNat_toNat c⟩

theorem mem_upperCase_iff {c : Char} : c ∈ charsFrom 'A' 'Z' ↔ c.isUpper = true := by
  have bounds : c.isUpper = decide (c.val ≥ 'A'.val ∧ c.val ≤ 'Z'.val) := rfl
  rw [mem_charsFrom_iff (by decide), bounds, decide_eq_true_iff]
  rfl

theorem mem_lowerCase_iff {c : Char} : c ∈ charsFrom 'a' 'z' ↔ c.isLower = true := by
  have bounds : c.isLower = (decide (c.val ≥ 'a'.val) && decide (c.val ≤ 'z'.val)) := rfl
  rw [mem_charsFrom_iff (by decide), bounds, Bool.and_eq_true, decide_eq_true_iff,
    decide_eq_true_iff]
  rfl

theorem mem_digits_iff {c : Char} : c ∈ charsFrom '0' '9' ↔ c.isDigit = true := by
  have bounds : c.isDigit = (decide (c.val ≥ '0'.val) && decide (c.val ≤ '9'.val)) := rfl
  rw [mem_charsFrom_iff (by decide), bounds, Bool.and_eq_true, decide_eq_true_iff,
    decide_eq_true_iff]
  rfl

theorem mem_letters_iff {c : Char} : c ∈ letters ↔ Text.startsIdentifier c = true := by
  have alpha : c.isAlpha = (c.isUpper || c.isLower) := rfl
  rw [letters, List.mem_append, List.mem_append, List.mem_singleton, mem_upperCase_iff,
    mem_lowerCase_iff, Text.startsIdentifier, alpha, Bool.or_eq_true, Bool.or_eq_true, beq_iff_eq]

theorem mem_letters_append_digits_iff {c : Char} :
    c ∈ letters ++ charsFrom '0' '9' ↔ Text.continuesIdentifier c = true := by
  have alphanum : c.isAlphanum = (c.isAlpha || c.isDigit) := rfl
  rw [List.mem_append, mem_letters_iff, mem_digits_iff, Text.startsIdentifier,
    Text.continuesIdentifier, alphanum, Bool.or_eq_true, Bool.or_eq_true, Bool.or_eq_true]
  exact or_right_comm

/-! ## Words -/

theorem mem_char_iff {c : Char} {cs : List Char} :
    cs ∈ (RegularExpression.char c).matches' ↔ cs = [c] := Iff.rfl

theorem mem_allOf_iff {chars cs : List Char} : cs ∈ (allOf chars).matches' ↔ cs = chars := by
  induction chars generalizing cs with
  | nil => exact Iff.rfl
  | cons c rest ih =>
      rw [allOf, List.map_cons, List.prod_cons, RegularExpression.matches'_mul, Language.mem_mul,
        ← allOf]
      simp only [mem_char_iff, ih]
      constructor
      · rintro ⟨_, rfl, _, rfl, rfl⟩
        rfl
      · rintro rfl
        exact ⟨[c], rfl, rest, rfl, rfl⟩

theorem mem_oneOf_iff {chars cs : List Char} :
    cs ∈ (oneOf chars).matches' ↔ ∃ c ∈ chars, cs = [c] := by
  induction chars with
  | nil => simp [oneOf]
  | cons c rest ih =>
      rw [oneOf, List.map_cons, List.sum_cons, RegularExpression.matches'_add, Language.mem_add,
        mem_char_iff, ← oneOf, ih]
      simp

theorem mem_star_oneOf_iff {chars cs : List Char} :
    cs ∈ (oneOf chars).star.matches' ↔ ∀ c ∈ cs, c ∈ chars := by
  rw [RegularExpression.matches'_star, Language.mem_kstar]
  constructor
  · rintro ⟨words, rfl, each⟩ c member
    obtain ⟨word, listed, inside⟩ := List.mem_flatten.mp member
    obtain ⟨d, known, rfl⟩ := mem_oneOf_iff.mp (each word listed)
    rw [List.mem_singleton.mp inside]
    exact known
  · intro known
    refine ⟨cs.map fun c => [c], ?_, ?_⟩
    · rw [← List.flatMap_def, List.flatMap_singleton']
    · rintro word listed
      obtain ⟨c, member, rfl⟩ := List.mem_map.mp listed
      exact mem_oneOf_iff.mpr ⟨c, known c member, rfl⟩

theorem mem_padExpression_iff {padding : List Char} :
    padding ∈ padExpression.matches' ↔ padding.all isPad = true := by
  rw [padExpression, mem_star_oneOf_iff]
  simp [isPad]

/-- The words of the expression are the texts that pass the check of a name. -/
theorem mem_nameExpression_iff {name : List Char} :
    name ∈ nameExpression.matches' ↔ Text.isIdentifierChars name = true := by
  rw [nameExpression, RegularExpression.matches'_mul, Language.mem_mul]
  constructor
  · rintro ⟨front, starts, rest, continues, rfl⟩
    obtain ⟨c, letter, rfl⟩ := mem_oneOf_iff.mp starts
    rw [mem_star_oneOf_iff] at continues
    rw [List.singleton_append, Text.isIdentifierChars, Bool.and_eq_true, List.all_eq_true]
    refine ⟨mem_letters_iff.mp letter, fun d member => ?_⟩
    exact mem_letters_append_digits_iff.mp (continues d member)
  · intro identifier
    cases name with
    | nil => cases identifier
    | cons c cs =>
        rw [Text.isIdentifierChars, Bool.and_eq_true, List.all_eq_true] at identifier
        refine ⟨[c], mem_oneOf_iff.mpr ⟨c, mem_letters_iff.mpr identifier.1, rfl⟩, cs, ?_, rfl⟩
        rw [mem_star_oneOf_iff]
        exact fun d member => mem_letters_append_digits_iff.mpr (identifier.2 d member)

theorem mem_placeholderExpression_iff {raw : List Char} :
    raw ∈ placeholderExpression.matches' ↔ ∃ name, IsWritten name raw := by
  simp only [placeholderExpression, RegularExpression.matches'_mul, Language.mem_mul, mem_allOf_iff,
    mem_padExpression_iff, mem_nameExpression_iff]
  constructor
  · -- The parts come off one by one, from the end.
    rintro ⟨_, front, _, rfl, rfl⟩
    obtain ⟨_, front, after, afterPad, rfl⟩ := front
    obtain ⟨_, front, name, identifier, rfl⟩ := front
    obtain ⟨_, rfl, before, beforePad, rfl⟩ := front
    exact ⟨name, before, after, beforePad, afterPad, identifier, rfl⟩
  · rintro ⟨name, before, after, beforePad, afterPad, identifier, rfl⟩
    refine ⟨_, ?_, _, rfl, rfl⟩
    refine ⟨_, ?_, after, afterPad, rfl⟩
    refine ⟨_, ?_, name, identifier, rfl⟩
    exact ⟨_, rfl, before, beforePad, rfl⟩

/-! ## Names -/

/-- What stands between the braces of a placeholder. -/
def inside (raw : List Char) : List Char := (raw.drop 2).take (raw.length - 4)

theorem inside_append (inner : List Char) : inside (['{', '{'] ++ inner ++ ['}', '}']) = inner := by
  have size : (['{', '{'] ++ inner ++ ['}', '}']).length - 4 = inner.length := by
    simp only [List.length_append, List.length_cons, List.length_nil]
    omega
  have opened : (['{', '{'] ++ inner ++ ['}', '}']).drop 2 = inner ++ ['}', '}'] := rfl
  rw [inside, size, opened, List.take_left]

theorem isBlank_of_isPad {c : Char} (pad : isPad c = true) : Text.isBlank c = true := by
  rw [isPad, Bool.or_eq_true, beq_iff_eq, beq_iff_eq] at pad
  rcases pad with rfl | rfl
  · decide
  · decide

theorem isBlank_false_of_continuesIdentifier {c : Char}
    (continues : Text.continuesIdentifier c = true) : Text.isBlank c = false := by
  have solid : (letters ++ charsFrom '0' '9').all (fun c => !Text.isBlank c) = true := by
    decide +kernel
  simpa using List.all_eq_true.mp solid c (mem_letters_append_digits_iff.mpr continues)

theorem trimChars_of_isIdentifierChars {name : List Char}
    (identifier : Text.isIdentifierChars name = true) : Text.trimChars name = name := by
  have solid : Text.trim (String.ofList name) = String.ofList name := by
    apply Text.trim_of_not_blank
    intro c member
    rw [String.toList_ofList] at member
    exact isBlank_false_of_continuesIdentifier (Text.continuesIdentifier_of_mem identifier member)
  rw [← String.toList_inj, Text.toList_trim, String.toList_ofList] at solid
  exact solid

/-- Padding is trimmed away. -/
theorem IsWritten.trimChars_inside {name raw : List Char} (written : IsWritten name raw) :
    Text.trimChars (inside raw) = name := by
  obtain ⟨before, after, beforePad, afterPad, identifier, rfl⟩ := written
  have blank : ∀ pads : List Char, pads.all isPad = true → pads.all Text.isBlank = true := by
    intro pads all
    rw [List.all_eq_true] at all ⊢
    exact fun c member => isBlank_of_isPad (all c member)
  have between : ['{', '{'] ++ before ++ name ++ after ++ ['}', '}'] =
      ['{', '{'] ++ (before ++ name ++ after) ++ ['}', '}'] := by simp
  rw [between, inside_append,
    Text.trimChars_surrounded (blank before beforePad) (blank after afterPad),
    trimChars_of_isIdentifierChars identifier]

/-- A placeholder is a word of the expression, and its name is what stands between the braces,
trimmed. -/
theorem isWritten_iff_expression {name raw : List Char} :
    IsWritten name raw ↔
      raw ∈ placeholderExpression.matches' ∧ Text.trimChars (inside raw) = name := by
  constructor
  · intro written
    exact ⟨mem_placeholderExpression_iff.mpr ⟨name, written⟩, written.trimChars_inside⟩
  · rintro ⟨word, rfl⟩
    obtain ⟨name, written⟩ := mem_placeholderExpression_iff.mp word
    rw [written.trimChars_inside]
    exact written

end FleetCompose.Template
