import FleetCompose.Proofs.ScannedScalars

/-!
# Plain numbers

Scalars that stand for numbers, truth values or null have a small set of characters, and none of
them starts like an indicator. So they can be written plain.
-/

namespace FleetCompose.Yaml

namespace Plain

/-- A character of the written forms of numbers, truth values and null. -/
def isNumberChar (c : Char) : Bool := c.isAlphanum || "+-.~".toList.contains c

theorem isNumberChar_of_isAlphanum {c : Char} (alphanumeric : c.isAlphanum = true) :
    isNumberChar c = true := by
  simp [isNumberChar, alphanumeric]

theorem ne_of_isNumberChar {c d : Char} (number : isNumberChar c = true)
    (other : isNumberChar d = false) : c ≠ d := by
  rintro rfl
  rw [number] at other
  cases other

theorem solid_of_isNumberChar {c : Char} (number : isNumberChar c = true) :
    isSpaceOrTab c = false ∧ isBreak c = false := by
  have other {d : Char} (differs : isNumberChar d = false) : c ≠ d :=
    ne_of_isNumberChar number differs
  simp only [isSpaceOrTab, isBreak, Bool.or_eq_false_iff, beq_eq_false_iff_ne]
  exact ⟨⟨other (by decide), other (by decide)⟩, ⟨⟨⟨other (by decide), other (by decide)⟩,
    other (by decide)⟩, other (by decide)⟩, other (by decide)⟩

/-- Does the text start like a number: with no two dashes and no two points? -/
def startsLikeNumber : List Char → Bool
  | [] => false
  | c :: cs => (c != '-' || cs.head?.any (· != '-')) && (c != '.' || cs.head? != some '.')

/-- A text that could be a number, from its characters and its start. -/
structure NumberLike (cs : List Char) : Prop where
  chars : ∀ c ∈ cs, isNumberChar c = true
  start : startsLikeNumber cs = true

theorem NumberLike.exists_cons {cs : List Char} (like : NumberLike cs) :
    ∃ c rest, cs = c :: rest := by
  cases cs with
  | nil => cases like.start
  | cons c cs => exact ⟨c, cs, rfl⟩

/-- What could be a number can be written plain. -/
theorem NumberLike.isPlain {cs : List Char} (like : NumberLike cs) : IsPlain cs := by
  obtain ⟨c, cs, rfl⟩ := like.exists_cons
  obtain ⟨chars, start⟩ := like
  have first := chars c List.mem_cons_self
  have special : "#,[]\x7b\x7d&*!|>'\"%@`".toList.contains c = false := by
    rw [← Bool.not_eq_true, List.contains_iff_mem]
    intro member
    have none : ("#,[]\x7b\x7d&*!|>'\"%@`".toList.all fun d => !isNumberChar d) = true := by decide
    have other := List.all_eq_true.mp none c member
    rw [first] at other
    cases other
  have noMark : c ≠ '?' ∧ c ≠ ':' :=
    ⟨ne_of_isNumberChar first (by decide), ne_of_isNumberChar first (by decide)⟩
  simp only [startsLikeNumber, Bool.and_eq_true, Bool.or_eq_true, bne_iff_ne] at start
  obtain ⟨dash, dot⟩ := start
  have indicators : Style.startsWithIndicator (c :: cs) = false := by
    rw [Style.startsWithIndicator, special]
    cases cs with
    | nil =>
        have noDash : c ≠ '-' := by simpa using dash
        simp [List.isPrefixOf, noMark, noDash]
    | cons d ds =>
        have number := chars d (by simp)
        have solid := solid_of_isNumberChar number
        have noNull : d ≠ '\x00' := ne_of_isNumberChar number (by decide)
        simp only [List.head?_cons, Option.any_some, bne_iff_ne, Option.some.injEq,
          ne_eq] at dash dot
        simp [List.isPrefixOf, isSeparator, solid, noNull]
        grind
  refine ⟨.last ⟨List.cons_ne_nil c cs, fun d member => solid_of_isNumberChar (chars d member), ?_⟩,
    indicators, ?_⟩
  · intro last
    exact ne_of_isNumberChar (chars ':' (List.mem_of_getLast? last)) (by decide) rfl
  · intro mark
    cases mark
    exact ne_of_isNumberChar first (by decide) rfl

/-- What stands behind the sign of a number. -/
structure Unsigned (cs : List Char) : Prop extends NumberLike cs where
  noDash : cs.head? ≠ some '-'

theorem Unsigned.numberLike {cs : List Char} (unsigned : Unsigned (splitSign cs).2) :
    NumberLike cs := by
  generalize split : splitSign cs = parts at unsigned
  unfold splitSign at split
  split at split <;> cases split <;> obtain ⟨⟨chars, start⟩, noDash⟩ := unsigned
  case h_1 cs =>
    refine ⟨List.forall_mem_cons.mpr ⟨rfl, chars⟩, ?_⟩
    cases cs with
    | nil => cases start
    | cons c cs => simpa [startsLikeNumber] using noDash
  case h_2 cs => exact ⟨List.forall_mem_cons.mpr ⟨rfl, chars⟩, rfl⟩
  case h_3 => exact ⟨chars, start⟩

theorem isAlphanum_of_hexValue? {c : Char} {n : Nat} (value : Text.hexValue? c = some n) :
    c.isAlphanum = true := by
  have between {low high : Char} (inside : low.toNat ≤ c.toNat ∧ c.toNat ≤ high.toNat) :
      low.val ≤ c.val ∧ c.val ≤ high.val :=
    ⟨UInt32.le_iff_toNat_le.mpr inside.1, UInt32.le_iff_toNat_le.mpr inside.2⟩
  have both {low high : Char} (inside : low.toNat ≤ c.toNat ∧ c.toNat ≤ high.toNat) :
      (decide (c.val ≥ low.val) && decide (c.val ≤ high.val)) = true := by
    simpa using between inside
  change ((c.isUpper || c.isLower) || c.isDigit) = true
  rw [Bool.or_eq_true, Bool.or_eq_true]
  simp only [Text.hexValue?, Bool.and_eq_true, decide_eq_true_eq] at value
  split at value
  next digit => exact .inr (@both '0' '9' digit)
  split at value
  next lower => exact .inl (.inr (@both 'a' 'z' ⟨lower.1, Nat.le_trans lower.2 (by decide)⟩))
  split at value
  next upper =>
    exact .inl (.inl (decide_eq_true
      (@between 'A' 'Z' ⟨upper.1, Nat.le_trans upper.2 (by decide)⟩)))
  next => cases value

theorem alphanumeric_of_digitsValue? {base n : Nat} {cs : List Char}
    (value : digitsValue? base cs = some n) : cs ≠ [] ∧ ∀ c ∈ cs, c.isAlphanum = true := by
  cases cs with
  | nil => cases value
  | cons c cs =>
      refine ⟨List.cons_ne_nil c cs, ?_⟩
      rw [digitsValue?, if_neg (by simp)] at value
      generalize c :: cs = digits at value
      generalize 0 = start at value
      induction digits generalizing start with
      | nil => exact List.forall_mem_nil _
      | cons d digits ih =>
          rw [List.foldlM_cons, Option.bind_eq_bind, Option.bind_eq_some_iff] at value
          obtain ⟨next, read, more⟩ := value
          obtain ⟨digit, found, -⟩ := Option.map_eq_some_iff.mp read
          rw [List.forall_mem_cons]
          exact ⟨isAlphanum_of_hexValue? (Option.filter_eq_some_iff.mp found).1, ih next more⟩

theorem unsigned_of_alphanumeric {c : Char} {cs : List Char} (first : c.isAlphanum = true)
    (chars : ∀ d ∈ cs, isNumberChar d = true) : Unsigned (c :: cs) := by
  have noDash : c ≠ '-' := by
    rintro rfl
    exact absurd first (by decide)
  have noDot : c ≠ '.' := by
    rintro rfl
    exact absurd first (by decide)
  exact ⟨⟨List.forall_mem_cons.mpr ⟨isNumberChar_of_isAlphanum first, chars⟩,
    by simp [startsLikeNumber, noDash, noDot]⟩, by simpa using noDash⟩

theorem unsigned_of_digitsValue? {base n : Nat} {cs : List Char}
    (value : digitsValue? base cs = some n) : Unsigned cs := by
  obtain ⟨nonempty, digits⟩ := alphanumeric_of_digitsValue? value
  obtain ⟨c, cs, rfl⟩ := List.exists_cons_of_ne_nil nonempty
  exact unsigned_of_alphanumeric (digits c List.mem_cons_self) fun d member =>
    isNumberChar_of_isAlphanum (digits d (List.mem_cons_of_mem c member))

theorem unsigned_of_magnitude? {cs : List Char} {n : Nat} (value : magnitude? cs = some n) :
    Unsigned cs := by
  unfold magnitude? at value
  split at value
  case h_4 =>
    split at value
    next => cases value
    next => exact unsigned_of_digitsValue? value
  all_goals
    have digits := (unsigned_of_digitsValue? value).chars
    exact unsigned_of_alphanumeric rfl (List.forall_mem_cons.mpr ⟨rfl, digits⟩)

theorem numberChars_of_splitSign {cs : List Char}
    (chars : ∀ c ∈ (splitSign cs).2, isNumberChar c = true) : ∀ c ∈ cs, isNumberChar c = true := by
  unfold splitSign at chars
  split at chars
  next => exact List.forall_mem_cons.mpr ⟨rfl, chars⟩
  next => exact List.forall_mem_cons.mpr ⟨rfl, chars⟩
  next => exact chars

theorem numberChars_of_exponent? {cs : List Char} {n : Int} (value : exponent? cs = some n) :
    ∀ c ∈ cs, isNumberChar c = true := by
  cases cs with
  | nil => exact List.forall_mem_nil _
  | cons e cs =>
      rw [exponent?] at value
      split at value
      next isMark =>
        obtain ⟨n, lifted, -⟩ := Option.map_eq_some_iff.mp value
        obtain ⟨n, digits, -⟩ := Option.bind_eq_some_iff.mp lifted
        have exponent := numberChars_of_splitSign (unsigned_of_digitsValue? digits).chars
        refine List.forall_mem_cons.mpr ⟨?_, exponent⟩
        simp only [Bool.or_eq_true, decide_eq_true_eq] at isMark
        rcases isMark with rfl | rfl <;> rfl
      next => cases value

theorem isAlphanum_of_isDigit {c : Char} (digit : c.isDigit = true) : c.isAlphanum = true := by
  simp [Char.isAlphanum, digit]

theorem unsigned_of_digits_append {whole rest : List Char} (nonempty : whole ≠ [])
    (digits : ∀ c ∈ whole, c.isDigit = true) (chars : ∀ c ∈ rest, isNumberChar c = true) :
    Unsigned (whole ++ rest) := by
  obtain ⟨c, whole, rfl⟩ := List.exists_cons_of_ne_nil nonempty
  rw [List.forall_mem_cons] at digits
  refine unsigned_of_alphanumeric (isAlphanum_of_isDigit digits.1)
    (List.forall_mem_append.mpr ⟨fun d member => ?_, chars⟩)
  exact isNumberChar_of_isAlphanum (isAlphanum_of_isDigit (digits.2 d member))

/-- A number may start with its point, if a digit comes next. -/
theorem unsigned_of_point {more : List Char} (nonempty : more.takeWhile Char.isDigit ≠ [])
    (chars : ∀ c ∈ more, isNumberChar c = true) : Unsigned ('.' :: more) := by
  refine ⟨⟨List.forall_mem_cons.mpr ⟨rfl, chars⟩, ?_⟩, by simp⟩
  cases more with
  | nil => exact absurd rfl nonempty
  | cons d more =>
      have noDot : d ≠ '.' := by
        rintro rfl
        exact nonempty rfl
      simp [startsLikeNumber, noDot]

theorem unsigned_of_decimal? {cs : List Char} {x : Binary64} (value : decimal? cs = some x) :
    Unsigned (splitSign cs).2 := by
  generalize split : splitSign cs = parts at *
  obtain ⟨isNegative, unsigned⟩ := parts
  have parts := @List.takeWhile_append_dropWhile _ Char.isDigit unsigned
  have digits : ∀ c ∈ unsigned.takeWhile Char.isDigit, c.isDigit = true :=
    List.all_eq_true.mp List.all_takeWhile
  generalize wholeEq : unsigned.takeWhile Char.isDigit = whole at *
  generalize restEq : unsigned.dropWhile Char.isDigit = rest at *
  subst parts
  -- Digits in front of the point, digits behind it, and the exponent.
  by_cases point : ∃ more, rest = '.' :: more
  · obtain ⟨more, rfl⟩ := point
    simp only [decimal?, split, wholeEq, restEq] at value
    split at value
    next digitsRead exponentRead =>
      have moreChars : ∀ c ∈ more, isNumberChar c = true := by
        have digitChars := (unsigned_of_digitsValue? digitsRead).chars
        rw [List.forall_mem_append] at digitChars
        rw [← @List.takeWhile_append_dropWhile _ Char.isDigit more, List.forall_mem_append]
        exact ⟨digitChars.2, numberChars_of_exponent? exponentRead⟩
      cases whole with
      | cons c whole =>
          exact unsigned_of_digits_append (List.cons_ne_nil c whole) digits
            (List.forall_mem_cons.mpr ⟨rfl, moreChars⟩)
      | nil => exact unsigned_of_point (alphanumeric_of_digitsValue? digitsRead).1 moreChars
    next => cases value
  · have noPoint : ∀ more, rest = '.' :: more → False := fun more same => point ⟨more, same⟩
    simp only [decimal?, split, wholeEq, restEq, List.append_nil] at value
    split at value
    next digitsRead exponentRead =>
      exact unsigned_of_digits_append (alphanumeric_of_digitsValue? digitsRead).1 digits
        (numberChars_of_exponent? exponentRead)
    next => cases value

theorem numberLike_of_mem {text : String} {texts : List String} (member : text ∈ texts)
    (all : (texts.all fun text =>
      text.toList.all isNumberChar && startsLikeNumber text.toList) = true) :
    NumberLike text.toList := by
  have inside := List.all_eq_true.mp all text member
  rw [Bool.and_eq_true] at inside
  exact ⟨List.all_eq_true.mp inside.1, inside.2⟩

theorem numberLike_of_integer? {cs : List Char} {n : Int} (value : integer? cs = some n) :
    NumberLike cs := by
  generalize split : splitSign cs = parts
  simp only [integer?, split] at value
  cases read : magnitude? parts.2 with
  | none =>
      rw [read] at value
      cases value
  | some n => exact Unsigned.numberLike (split ▸ unsigned_of_magnitude? read)

theorem numberLike_of_float? {text : String} {x : Binary64} (value : float? text = some x) :
    NumberLike text.toList := by
  rw [float?] at value
  split at value
  next member => exact numberLike_of_mem member (by decide)
  split at value
  next member => exact numberLike_of_mem member (by decide)
  split at value
  next member => exact numberLike_of_mem member (by decide)
  exact Unsigned.numberLike (unsigned_of_decimal? value)

theorem numberLike_of_bool? {text : String} {value : Plain} (read : bool? text = some value) :
    NumberLike text.toList := by
  rw [bool?] at read
  split at read
  next member => exact numberLike_of_mem member (by decide)
  split at read
  next member => exact numberLike_of_mem member (by decide)
  cases read

/-- A scalar that stands for something else than a text looks like a number, unless it is
empty. -/
theorem numberLike_of_resolve {text : String} (nonempty : text ≠ "")
    (value : resolve text ≠ .text) : NumberLike text.toList := by
  rw [resolve] at value
  split at value
  next blank =>
    have listed : isNull text = true := by simpa [nonempty] using blank
    rw [isNull, decide_eq_true_eq] at listed
    exact numberLike_of_mem listed (by decide)
  split at value
  next _ _ read => exact numberLike_of_bool? read
  next _ _ read => exact numberLike_of_integer? read
  split at value
  next => exact absurd rfl value
  split at value
  next read => exact numberLike_of_float? read
  next => exact absurd rfl value

end Plain

end FleetCompose.Yaml
