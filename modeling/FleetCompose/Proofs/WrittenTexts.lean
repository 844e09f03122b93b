import FleetCompose.Proofs.PlainNumbers
import FleetCompose.Proofs.ScannedBlocks

/-!
# Texts as they are written

Which style the writer chooses for a text, what that says about the characters of the text, and
how long a key gets.
-/

namespace FleetCompose.Yaml

/-! ## Sizes -/

/-- The number of bytes that characters take. -/
def bytes : List Char → Nat
  | [] => 0
  | c :: cs => c.utf8Size + bytes cs

@[simp] theorem bytes_nil : bytes [] = 0 := rfl

@[simp] theorem bytes_cons (c : Char) (cs : List Char) : bytes (c :: cs) = c.utf8Size + bytes cs :=
  rfl

@[simp] theorem bytes_append (cs ds : List Char) : bytes (cs ++ ds) = bytes cs + bytes ds := by
  induction cs with
  | nil => exact (Nat.zero_add _).symm
  | cons c cs ih => rw [List.cons_append, bytes_cons, bytes_cons, ih, Nat.add_assoc]

theorem index_advance (mark : Mark) (cs : List Char) :
    (mark.advance cs).index = mark.index + bytes cs := by
  induction cs generalizing mark with
  | nil => rfl
  | cons c cs ih =>
      rw [Mark.advance_cons, ih, bytes_cons, ← Nat.add_assoc]
      rfl

theorem utf8ByteSize_ofList (cs : List Char) : (String.ofList cs).utf8ByteSize = bytes cs := by
  induction cs with
  | nil => rfl
  | cons c cs ih =>
      rw [← List.singleton_append, String.ofList_append, String.utf8ByteSize_append, ih,
        bytes_append]
      simp

theorem bytes_le_length (cs : List Char) : bytes cs ≤ 4 * cs.length := by
  induction cs with
  | nil => exact Nat.le_refl 0
  | cons c cs ih =>
      have size := c.utf8Size_le_four
      rw [bytes_cons, List.length_cons]
      omega

theorem bytes_flatMap_le {encode : Char → List Char} {factor : Nat}
    (bound : ∀ c, bytes (encode c) ≤ factor * c.utf8Size) (cs : List Char) :
    bytes (cs.flatMap encode) ≤ factor * bytes cs := by
  induction cs with
  | nil => exact Nat.zero_le _
  | cons c cs ih =>
      rw [List.flatMap_cons, bytes_append, bytes_cons, Nat.mul_add]
      exact Nat.add_le_add (bound c) ih

theorem bytes_singleChar_le (c : Char) : bytes (Token.singleChar c) ≤ 2 * c.utf8Size := by
  by_cases isQuote : c = '\''
  · subst isQuote
    decide
  · simp [Token.singleChar, isQuote]
    omega

theorem utf8Size_hexDigit {n : Nat} (digit : n < 16) :
    (Text.hexDigit n).toUpper.utf8Size = 1 := by
  revert n
  decide

theorem bytes_upperHex (width n : Nat) : bytes (upperHex width n) = width := by
  induction width generalizing n with
  | zero => rfl
  | succ width ih =>
      have digit := utf8Size_hexDigit (Nat.mod_lt n (by decide : 0 < 16))
      have front := ih (n / 16)
      rw [upperHex] at front
      rw [upperHex, Text.hexFixed, List.map_append, bytes_append, front, List.map_singleton,
        bytes_cons, digit, bytes_nil]

theorem bytes_escapeChar_le (c : Char) : bytes (escapeChar c) ≤ 4 * c.utf8Size := by
  have positive := c.utf8Size_pos
  have backslash : Char.utf8Size '\\' = 1 := rfl
  rcases Token.escapeChar_cases c with ⟨raw, -⟩ | ⟨letter, escaped, image⟩ |
    ⟨letter, width, escaped, -, digits, -, size⟩
  · rw [raw, bytes_cons, bytes_nil]
    omega
  · have size : letter.utf8Size = 1 := by
      unfold Token.escapedChar? at image
      split at image
      all_goals first | rfl | cases image
    rw [escaped, bytes_cons, bytes_cons, bytes_nil, backslash, size]
    omega
  · have one : letter.utf8Size = 1 := by
      unfold Token.escapeDigits? at digits
      split at digits
      all_goals first | rfl | cases digits
    rw [escaped, bytes_cons, bytes_cons, bytes_upperHex, backslash, one]
    omega

/-! ## Styles -/

/-- Does a text do without the line and paragraph separators, which end a line in a document but
not in the text? -/
def separatorFree (cs : List Char) : Bool := cs.all fun c => c != '\u2028' && c != '\u2029'

namespace Style

theorem eq_lineFeed_of_isBreak {c : Char} {cs : List Char} (free : separatorFree cs = true)
    (member : c ∈ cs) (printable : isPrintable c = true) (isEnd : isBreak c = true) : c = '\n' := by
  have noSeparator := List.all_eq_true.mp free c member
  simp only [Bool.and_eq_true, bne_iff_ne] at noSeparator
  simp only [isBreak, Bool.or_eq_true, beq_iff_eq] at isEnd
  rcases isEnd with (((rfl | rfl) | rfl) | rfl) | rfl
  · rfl
  · exact absurd printable (by decide)
  · exact absurd printable (by decide)
  · exact absurd rfl noSeparator.1
  · exact absurd rfl noSeparator.2

theorem isPrintable_of_needsEscapes {c : Char} {cs : List Char} (none : needsEscapes cs = false)
    (member : c ∈ cs) : isPrintable c = true := by
  simp only [needsEscapes, Bool.or_eq_false_iff, Bool.not_eq_false'] at none
  exact List.all_eq_true.mp none.2 c member

/-- What the choice of a style says about the text. -/
def Allows (text : String) : Style → Prop
  | .plain => plainAllowed text.toList = true ∧ Plain.isAmbiguous text = false
  | .singleQuoted => '\n' ∉ text.toList ∧ singleQuotedAllowed text.toList = true
  | .literal => '\n' ∈ text.toList ∧ literalAllowed text.toList = true
  | .doubleQuoted => True

theorem allows_ofText (text : String) : Allows text (ofText text) := by
  simp only [ofText]
  split
  next multiline =>
    split
    next allowed => exact ⟨by simpa using multiline, allowed⟩
    next => exact trivial
  next oneLine =>
    split
    next allowed => simpa [Allows] using allowed
    split
    next allowed => exact ⟨by simpa using oneLine, allowed⟩
    next => exact trivial

variable {text : String}

theorem isPlain_of_plain (style : ofText text = .plain) : IsPlain text.toList := by
  obtain ⟨allowed, clear⟩ : Allows text .plain := style ▸ allows_ofText text
  refine isPlain_of_plainAllowed ?_ allowed
  intro empty
  rw [String.toList_eq_nil_iff.mp empty] at clear
  exact absurd clear (by decide)

theorem inline_of_singleQuoted (free : separatorFree text.toList = true)
    (style : ofText text = .singleQuoted) : ∀ c ∈ text.toList, IsInline c := by
  obtain ⟨oneLine, allowed⟩ : Allows text .singleQuoted := style ▸ allows_ofText text
  simp only [singleQuotedAllowed, Bool.and_eq_true, Bool.not_eq_true'] at allowed
  intro c member
  have printable := isPrintable_of_needsEscapes allowed.1 member
  refine ⟨printable, ?_⟩
  cases isEnd : isBreak c with
  | false => rfl
  | true =>
      cases eq_lineFeed_of_isBreak free member printable isEnd
      exact absurd member oneLine

/-- A text that is written as a literal block has several lines, and nothing but line feeds
between them. -/
theorem lines_of_literal (free : separatorFree text.toList = true)
    (style : ofText text = .literal) :
    '\n' ∈ text.toList ∧ (∀ c ∈ text.toList, isBreak c = true → c = '\n') ∧
      '\t' ∉ text.toList := by
  obtain ⟨multiline, allowed⟩ : Allows text .literal := style ▸ allows_ofText text
  simp only [literalAllowed, Bool.and_eq_true, Bool.not_eq_true'] at allowed
  have printable {c : Char} (member : c ∈ text.toList) : isPrintable c = true :=
    isPrintable_of_needsEscapes allowed.1 member
  exact ⟨multiline, fun c member => eq_lineFeed_of_isBreak free member (printable member),
    fun member => absurd (printable member) (by decide)⟩

end Style

/-! ## Keys -/

/-- A key that fits on a line is short enough for a pending key. -/
theorem bytes_keyText_le {text : String} (free : separatorFree text.toList = true)
    (short : text.utf8ByteSize ≤ 128) : bytes (keyText text) ≤ 1024 := by
  have size : bytes text.toList ≤ 128 := by
    rwa [← utf8ByteSize_ofList, String.ofList_toList]
  have quoteSize : Char.utf8Size '"' = 1 ∧ Char.utf8Size '\'' = 1 := ⟨rfl, rfl⟩
  have escaped := bytes_flatMap_le bytes_escapeChar_le text.toList
  have doubled := bytes_flatMap_le bytes_singleChar_le text.toList
  have double : bytes (doubleQuoted text.toList) ≤ 1024 := by
    simp only [doubleQuoted, bytes_append, bytes_cons, bytes_nil, quoteSize.1]
    omega
  simp only [keyText]
  split
  next => omega
  next style =>
    rw [singleQuoted, Token.singleQuotedFrom_eq fun c member =>
      (Style.inline_of_singleQuoted free style c member).2]
    simp only [bytes_append, bytes_cons, bytes_nil, quoteSize.2]
    omega
  next => exact double
  next => exact double

end FleetCompose.Yaml
