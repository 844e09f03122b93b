import FleetCompose.Proofs.LexedValues

/-!
# Characters of written values

Whatever characters a value has, what is written for it holds only printable ones, and no line
ends in the middle of a key that takes one line, of a number or of a tag.
-/

namespace FleetCompose.Yaml

open Value (spaces Place firstPad nodeLines itemLines entryLines shortKey? lineKey? entryText
  itemLines_cons entryLines_cons)

/-- The characters are printable, and no line ends among them. -/
def Inline (cs : List Char) : Prop := ∀ c ∈ cs, IsInline c

/-- The characters are printable. -/
def Printed (cs : List Char) : Prop := ∀ c ∈ cs, isPrintable c = true

variable {cs ds : List Char} {text : String}

theorem Inline.printed (inline : Inline cs) : Printed cs := fun c member => (inline c member).1

theorem inline_append (front : Inline cs) (back : Inline ds) : Inline (cs ++ ds) :=
  List.forall_mem_append.mpr ⟨front, back⟩

theorem inline_cons {c : Char} (first : IsInline c) (more : Inline cs) : Inline (c :: cs) :=
  List.forall_mem_cons.mpr ⟨first, more⟩

theorem inline_nil : Inline [] := List.forall_mem_nil _

theorem inline_singleton {c : Char} (inline : IsInline c) : Inline [c] :=
  List.forall_mem_singleton.mpr inline

theorem inline_flatMap {encode : Char → List Char} (each : ∀ c ∈ cs, Inline (encode c)) :
    Inline (cs.flatMap encode) := by
  intro d member
  obtain ⟨c, isChar, encoded⟩ := List.mem_flatMap.mp member
  exact each c isChar d encoded

theorem printed_append (front : Printed cs) (back : Printed ds) : Printed (cs ++ ds) :=
  List.forall_mem_append.mpr ⟨front, back⟩

theorem printed_cons {c : Char} (first : isPrintable c = true) (more : Printed cs) :
    Printed (c :: cs) := List.forall_mem_cons.mpr ⟨first, more⟩

theorem printed_nil : Printed [] := List.forall_mem_nil _

theorem printed_singleton {c : Char} (printable : isPrintable c = true) : Printed [c] :=
  List.forall_mem_singleton.mpr printable

theorem inline_of_all (all : (cs.all fun c => isPrintable c && !isBreak c) = true) : Inline cs := by
  intro c member
  have inside := List.all_eq_true.mp all c member
  rwa [Bool.and_eq_true, Bool.not_eq_true'] at inside

theorem printed_of_all (all : cs.all isPrintable = true) : Printed cs := List.all_eq_true.mp all

theorem printed_spaces (n : Nat) : Printed (spaces n) := by
  intro c member
  rw [List.eq_of_mem_replicate member]
  rfl

/-- A document may hold everything that is printable. -/
theorem isAllowed_of_isPrintable {c : Char} (printable : isPrintable c = true) :
    isAllowed c = true := by
  simp only [isPrintable, isAllowed, Bool.or_eq_true, Bool.and_eq_true, beq_iff_eq,
    decide_eq_true_eq] at printable ⊢
  grind

theorem isInline_of_ascii {c : Char} (first : 0x20 ≤ c.toNat) (last : c.toNat ≤ 0x7E) :
    IsInline c := by
  refine ⟨by simp [isPrintable, first, last], ?_⟩
  cases isEnd : isBreak c with
  | false => rfl
  | true =>
      simp only [isBreak, Bool.or_eq_true, beq_iff_eq] at isEnd
      rcases isEnd with (((rfl | rfl) | rfl) | rfl) | rfl
      all_goals first | exact absurd first (by decide) | exact absurd last (by decide)

theorem isInline_of_isAlphanum {c : Char} (alphanumeric : c.isAlphanum = true) : IsInline c := by
  have between {low high : Char} (first : 0x20 ≤ low.toNat) (last : high.toNat ≤ 0x7E)
      (inside : low.val ≤ c.val ∧ c.val ≤ high.val) : IsInline c :=
    isInline_of_ascii (Nat.le_trans first (UInt32.le_iff_toNat_le.mp inside.1))
      (Nat.le_trans (UInt32.le_iff_toNat_le.mp inside.2) last)
  have both {low high : Char}
      (inside : (decide (c.val ≥ low.val) && decide (c.val ≤ high.val)) = true) :
      low.val ≤ c.val ∧ c.val ≤ high.val := by simpa using inside
  have kinds : ((c.isUpper || c.isLower) || c.isDigit) = true := alphanumeric
  rw [Bool.or_eq_true, Bool.or_eq_true] at kinds
  rcases kinds with (upper | lower) | digit
  · exact @between 'A' 'Z' (by decide) (by decide) (of_decide_eq_true upper)
  · exact @between 'a' 'z' (by decide) (by decide) (both lower)
  · exact @between '0' '9' (by decide) (by decide) (both digit)

/-! ## Texts -/

theorem inline_upperHex (width n : Nat) : Inline (upperHex width n) := by
  intro c member
  obtain ⟨value, digit⟩ := Token.hexValue?_of_mem_upperHex member
  exact isInline_of_isAlphanum (Plain.isAlphanum_of_hexValue? digit)

theorem inline_escapeChar (c : Char) : Inline (escapeChar c) := by
  rcases Token.escapeChar_cases c with ⟨raw, inline, -⟩ | ⟨letter, escaped, image⟩ |
    ⟨letter, width, escaped, -, digits, -⟩
  · rw [raw]
    exact inline_singleton inline
  · rw [escaped]
    refine inline_cons ⟨rfl, rfl⟩ (inline_singleton ?_)
    unfold Token.escapedChar? at image
    split at image
    all_goals cases image
    all_goals first | exact ⟨rfl, rfl⟩ | exact absurd escaped (by decide)
  · rw [escaped]
    refine inline_cons ⟨rfl, rfl⟩ (inline_cons ?_ (inline_upperHex _ _))
    unfold Token.escapeDigits? at digits
    split at digits
    all_goals first | exact ⟨rfl, rfl⟩ | cases digits

theorem inline_singleChar {c : Char} (inline : IsInline c) : Inline (Token.singleChar c) := by
  rw [Token.singleChar]
  split
  next => exact inline_cons ⟨rfl, rfl⟩ (inline_singleton ⟨rfl, rfl⟩)
  next => exact inline_singleton inline

theorem inline_doubleQuoted (cs : List Char) : Inline (doubleQuoted cs) :=
  inline_append (inline_append (inline_singleton ⟨rfl, rfl⟩)
    (inline_flatMap fun c _ => inline_escapeChar c)) (inline_singleton ⟨rfl, rfl⟩)

theorem inline_of_plain (style : Style.ofText text = .plain) : Inline text.toList := by
  obtain ⟨allowed, -⟩ : Style.Allows text .plain := style ▸ Style.allows_ofText text
  simp only [Style.plainAllowed, Bool.and_eq_true, Bool.not_eq_true'] at allowed
  intro c member
  exact ⟨Style.isPrintable_of_needsEscapes allowed.1.1.1.2 member,
    by simpa using List.any_eq_false.mp allowed.1.1.1.1 c member⟩

theorem printed_of_singleQuoted (style : Style.ofText text = .singleQuoted) :
    Printed text.toList := by
  obtain ⟨-, allowed⟩ : Style.Allows text .singleQuoted := style ▸ Style.allows_ofText text
  simp only [Style.singleQuotedAllowed, Bool.and_eq_true, Bool.not_eq_true'] at allowed
  exact fun c member => Style.isPrintable_of_needsEscapes allowed.1 member

theorem inline_singleQuoted {pad : List Char} (inline : Inline cs) :
    Inline (singleQuoted pad cs) := by
  rw [singleQuoted, Token.singleQuotedFrom_eq fun c member => (inline c member).2]
  exact inline_append (inline_append (inline_singleton ⟨rfl, rfl⟩)
    (inline_flatMap fun c member => inline_singleChar (inline c member)))
    (inline_singleton ⟨rfl, rfl⟩)

/-- A text without line ends is a key without line ends. -/
theorem inline_keyText (unbroken : text.toList.any isBreak = false) : Inline (keyText text) := by
  rw [keyText]
  cases style : Style.ofText text with
  | plain => exact inline_of_plain style
  | singleQuoted =>
      apply inline_singleQuoted
      intro c member
      have noBreak := List.any_eq_false.mp unbroken c member
      exact ⟨printed_of_singleQuoted style c member, eq_false_of_ne_true noBreak⟩
  | doubleQuoted => exact inline_doubleQuoted _
  | literal => exact inline_doubleQuoted _

/-- Between single quotes a text may go on over separators, with its lines indented. -/
theorem printed_singleQuotedFrom {pad : List Char} (printedPad : Printed pad)
    (printed : Printed cs) (lineStart : Bool) : Printed (singleQuotedFrom pad lineStart cs) := by
  have printedStart (lineStart : Bool) : Printed (if lineStart then pad else []) := by
    split
    · exact printedPad
    · exact printed_nil
  induction cs generalizing lineStart with
  | nil => exact printedStart lineStart
  | cons c cs ih =>
      obtain ⟨first, more⟩ := List.forall_mem_cons.mp printed
      rw [singleQuotedFrom]
      split
      next => exact printed_cons first (ih more true)
      next =>
        refine printed_append (printed_append (printedStart lineStart) ?_) (ih more false)
        split
        · exact printed_cons rfl (printed_singleton rfl)
        · exact printed_singleton first

theorem printed_literalLines {pad : List Char} (printedPad : Printed pad) (printed : Printed cs)
    (lineStart : Bool) : Printed (literalLines pad lineStart cs) := by
  induction cs generalizing lineStart with
  | nil => exact printed_nil
  | cons c cs ih =>
      obtain ⟨first, more⟩ := List.forall_mem_cons.mp printed
      rw [literalLines]
      split
      next => exact printed_cons first (ih more true)
      next =>
        refine printed_append ?_ (printed_cons first (ih more false))
        split
        · exact printedPad
        · exact printed_nil

/-- The first line of a block. -/
theorem inline_blockIndicators (cs : List Char) :
    Inline (['|'] ++ indentationIndicator cs ++ chompingIndicator cs) := by
  have hint : Inline (indentationIndicator cs) := by
    rw [indentationIndicator]
    split
    · exact inline_singleton ⟨rfl, rfl⟩
    · exact inline_nil
  have chomping : Inline (chompingIndicator cs) := by
    rw [chompingIndicator]
    repeat' split
    all_goals first | exact inline_singleton ⟨rfl, rfl⟩ | exact inline_nil
  exact inline_append (inline_append (inline_singleton ⟨rfl, rfl⟩) hint) chomping

theorem printed_literalBlock {pad : List Char} (printedPad : Printed pad)
    (style : Style.ofText text = .literal) : Printed (literalBlock pad text.toList) := by
  obtain ⟨-, allowed⟩ : Style.Allows text .literal := style ▸ Style.allows_ofText text
  simp only [Style.literalAllowed, Bool.and_eq_true, Bool.not_eq_true'] at allowed
  have chars : Printed text.toList := fun c member =>
    Style.isPrintable_of_needsEscapes allowed.1 member
  refine printed_append (printed_append (printed_append (inline_blockIndicators _).printed
    (printed_singleton rfl)) (printed_literalLines printedPad chars true)) ?_
  split
  · exact printed_nil
  · exact printed_singleton rfl

theorem printed_textLine {pad : List Char} (printedPad : Printed pad) (text : String) :
    Printed (textLine pad text) := by
  have lineEnd : Printed ['\n'] := printed_singleton rfl
  have quote : Printed ['\''] := printed_singleton rfl
  rw [textLine]
  cases style : Style.ofText text with
  | plain => exact printed_append (inline_of_plain style).printed lineEnd
  | singleQuoted =>
      have inside := printed_singleQuotedFrom printedPad (printed_of_singleQuoted style) false
      exact printed_append (printed_append (printed_append quote inside) quote) lineEnd
  | doubleQuoted => exact printed_append (inline_doubleQuoted _).printed lineEnd
  | literal => exact printed_literalBlock printedPad style

/-! ## Numbers -/

theorem inline_repr (n : Nat) : Inline (Nat.repr n).toList := by
  intro c member
  rw [Nat.toList_repr] at member
  exact isInline_of_isAlphanum (Plain.isAlphanum_of_isDigit
    (Nat.isDigit_of_mem_toDigits (by decide) (by decide) member))

theorem inline_zeros (n : Nat) : Inline (List.replicate n '0') := by
  intro c member
  rw [List.eq_of_mem_replicate member]
  exact ⟨rfl, rfl⟩

theorem inline_layout (layout : Decimal.Layout) (x : Decimal) :
    Inline (layout.write x).toList := by
  have digits := inline_repr x.digits
  have front (n : Nat) : Inline ((Nat.repr x.digits).toList.take n) :=
    fun c member => digits c (List.mem_of_mem_take member)
  have back (n : Nat) : Inline ((Nat.repr x.digits).toList.drop n) :=
    fun c member => digits c (List.mem_of_mem_drop member)
  have point : Inline ['.'] := inline_singleton ⟨rfl, rfl⟩
  have mark : Inline ['e'] := inline_singleton ⟨rfl, rfl⟩
  simp only [Decimal.Layout.write]
  split
  · split
    · rw [String.toList_ofList]
      exact inline_append (inline_append digits (inline_zeros _)) (inline_of_all (by decide))
    split
    · rw [String.toList_ofList]
      exact inline_append (inline_append (front _) point) (back _)
    · rw [String.toList_ofList]
      exact inline_append (inline_append (inline_of_all (by decide)) (inline_zeros _)) digits
  · rw [String.toList_ofList]
    refine inline_append (inline_append (inline_append (inline_append (front 1) ?fraction) mark)
      ?sign) (inline_repr _)
    case fraction =>
      split
      · exact inline_nil
      · exact inline_append point (back 1)
    case sign =>
      split
      · exact inline_singleton ⟨rfl, rfl⟩
      split
      · exact inline_singleton ⟨rfl, rfl⟩
      · exact inline_nil

theorem inline_number (number : Number) : Inline number.text.toList := by
  cases number with
  | int value =>
      cases value with
      | ofNat n => exact inline_repr n
      | negSucc n =>
          have written : (Number.int (.negSucc n)).text = "-" ++ Nat.repr (n + 1) := rfl
          rw [written, String.toList_append]
          exact inline_append (inline_singleton ⟨rfl, rfl⟩) (inline_repr (n + 1))
  | float value =>
      rw [Number.text, Number.floatText]
      split
      · exact inline_of_all (by decide)
      split
      · split
        · exact inline_of_all (by decide)
        · exact inline_of_all (by decide)
      have magnitude : Inline (if value.mantissa = 0 then "0.0"
          else floatLayout.write (Decimal.shortest value.mantissa value.power)).toList := by
        split
        · exact inline_of_all (by decide)
        · exact inline_layout _ _
      rw [Decimal.Layout.writeFinite]
      split
      · rw [String.toList_append]
        exact inline_append (inline_singleton ⟨rfl, rfl⟩) magnitude
      · exact magnitude

/-! ## Tags -/

theorem inline_tagChar (c : Char) : Inline (Value.tagChar c) := by
  rw [Value.tagChar]
  split
  next tagChar =>
    rw [Value.isTagChar, Bool.or_eq_true, List.contains_iff_mem] at tagChar
    rcases tagChar with alphanumeric | other
    · exact inline_singleton (isInline_of_isAlphanum alphanumeric)
    · have others : Inline "-_;/?:@&=+$,.~*'()[]".toList := inline_of_all (by decide)
      exact inline_singleton (others c other)
  next =>
    intro d member
    rcases List.mem_flatMap.mp member with ⟨byte, -, encoded⟩
    exact inline_cons ⟨rfl, rfl⟩ (inline_upperHex 2 _) d encoded

theorem inline_tagText (tag : String) : Inline (Value.tagText tag) := by
  have mark : Inline ['!'] := inline_singleton ⟨rfl, rfl⟩
  rw [Value.tagText]
  split
  · exact inline_append (inline_append (inline_of_all (by decide)) (inline_tagChar _))
      (inline_singleton ⟨rfl, rfl⟩)
  · exact inline_append mark (inline_flatMap fun c _ => inline_tagChar c)

/-! ## Values -/

theorem inline_lineKey {key : Value} {size : Nat} (line : lineKey? key = some (cs, size)) :
    Inline cs := by
  cases key with
  | null =>
      cases line
      exact inline_of_all (by decide)
  | bool value =>
      cases value <;> cases line
      · exact inline_of_all (by decide)
      · exact inline_of_all (by decide)
  | number number =>
      cases line
      exact inline_number number
  | string text =>
      rw [lineKey?] at line
      split at line
      next => cases line
      next unbroken =>
        cases line
        exact inline_keyText (eq_false_of_ne_true unbroken)
  | sequence items =>
      cases items with
      | nil =>
          cases line
          exact inline_of_all (by decide)
      | cons item items => cases line
  | mapping entries =>
      cases entries with
      | nil =>
          cases line
          exact inline_of_all (by decide)
      | cons entry entries => cases line
  | tagged tag value => cases line

theorem inline_shortKey {key : Value} (short : shortKey? key = some cs) : Inline cs := by
  have tagged (tag : String) {text : List Char} (inline : Inline text) :
      Inline (Value.tagText tag ++ [' '] ++ text) :=
    inline_append (inline_append (inline_tagText tag) (inline_singleton ⟨rfl, rfl⟩)) inline
  unfold shortKey? at short
  split at short
  all_goals
    split at short
    next line =>
      split at short
      next =>
        cases short
        first | exact tagged _ (inline_lineKey line) | exact inline_lineKey line
      next => cases short
    next => cases short

theorem printed_firstPad (place : Place) (n : Nat) : Printed (firstPad place n) := by
  rw [firstPad]
  split
  · exact printed_singleton rfl
  · exact printed_cons rfl (printed_spaces n)

mutual

/-- What is written for a value is printable. -/
theorem printed_nodeLines : ∀ (value : Value) (place : Place) (n : Nat),
    Printed (nodeLines place n value)
  | .null, _, _ => @printed_of_all " null\n".toList (by decide)
  | .bool true, _, _ => @printed_of_all " true\n".toList (by decide)
  | .bool false, _, _ => @printed_of_all " false\n".toList (by decide)
  | .number number, _, _ =>
      printed_append (printed_cons rfl (inline_number number).printed) (printed_singleton rfl)
  | .string text, _, _ => printed_cons rfl (printed_textLine (printed_spaces _) text)
  | .sequence [], _, _ => @printed_of_all " []\n".toList (by decide)
  | .sequence (item :: items), _, _ => by
      rw [nodeLines]
      · exact printed_itemLines (item :: items) _ (printed_firstPad _ _)
      · exact List.cons_ne_nil _ _
  | .mapping [], _, _ => @printed_of_all " \x7b\x7d\n".toList (by decide)
  | .mapping (entry :: entries), _, _ => by
      rw [nodeLines]
      · exact printed_entryLines (entry :: entries) _ (printed_firstPad _ _)
      · exact List.cons_ne_nil _ _
  | .tagged tag value, place, n =>
      printed_cons rfl (printed_append (inline_tagText tag).printed
        (printed_nodeLines value place.afterTag n))

theorem printed_itemLines : ∀ (items : List Value) (n : Nat) {pad : List Char},
    Printed pad → Printed (itemLines pad n items)
  | [], _, _, _ => printed_nil
  | item :: items, n, _, printedPad => by
      rw [itemLines_cons]
      exact printed_append printedPad (printed_cons rfl (printed_append
        (printed_nodeLines item _ _) (printed_itemLines items n (printed_spaces n))))

theorem printed_entryLines : ∀ (entries : List (Value × Value)) (n : Nat) {pad : List Char},
    Printed pad → Printed (entryLines pad n entries)
  | [], _, _, _ => printed_nil
  | (key, value) :: entries, n, _, printedPad => by
      have valueLines (place : Place) := printed_nodeLines value place n
      have entry : Printed (entryText n key value) := by
        rw [entryText]
        cases short : shortKey? key with
        | some text =>
            exact printed_append (inline_shortKey short).printed
              (printed_cons rfl (valueLines _))
        | none =>
            exact printed_cons rfl (printed_append (printed_nodeLines key _ _)
              (printed_append (printed_spaces n) (printed_cons rfl (valueLines _))))
      rw [entryLines_cons]
      exact printed_append printedPad (printed_append entry
        (printed_entryLines entries n (printed_spaces n)))

end

/-- A document holds nothing but printable characters. -/
theorem printed_documentText (entries : List (Value × Value)) :
    Printed (Value.documentText entries).toList := by
  rw [Value.documentText]
  split
  · exact printed_of_all (by decide)
  · rw [String.toList_ofList]
    exact printed_entryLines entries 0 printed_nil

end FleetCompose.Yaml
