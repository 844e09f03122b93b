import FleetCompose.Json.Value
import FleetCompose.Yaml.Plain
import Mathlib.Tactic.SplitIfs

/-!
# Reading JSON

A reader for JSON texts, after the grammar of the format and not after the writer: blanks may stand
between any two tokens, every character of a text may be escaped, and two escaped surrogates stand
for one character. A text that breaks a rule of the grammar is not read. A compactly written array
of texts is read as that array, whatever the texts are.
-/

namespace FleetCompose.Json

/-! ## Texts -/

/-- The code unit that four hexadecimal digits stand for. -/
def codeUnit? (a b c d : Char) : Option Nat := do
  let a ← Text.hexValue? a
  let b ← Text.hexValue? b
  let c ← Text.hexValue? c
  let d ← Text.hexValue? d
  return ((a * 16 + b) * 16 + c) * 16 + d

/-- The character that is escaped by one letter. -/
def escapedChar? : Char → Option Char
  | '"' => some '"'
  | '\\' => some '\\'
  | '/' => some '/'
  | 'b' => some '\x08'
  | 'f' => some '\x0C'
  | 'n' => some '\n'
  | 'r' => some '\r'
  | 't' => some '\t'
  | _ => none

/-- The first code unit of a pair. -/
def isHighSurrogate (unit : Nat) : Bool := 0xD800 ≤ unit && unit < 0xDC00

/-- The second code unit of a pair. -/
def isLowSurrogate (unit : Nat) : Bool := 0xDC00 ≤ unit && unit < 0xE000

/-- The character that a pair of code units stands for. -/
def pairedChar (high low : Nat) : Char :=
  Char.ofNat (0x10000 + (high - 0xD800) * 0x400 + (low - 0xDC00))

/-- Put a character in front of what is read of a text. -/
def before (c : Char) : Option (List Char × List Char) → Option (List Char × List Char) :=
  Option.map fun (cs, rest) => (c :: cs, rest)

/-- Read the characters of a text up to the quote that closes it. Control characters must be
escaped, and a code unit of a pair must not stand alone. -/
def readChars? : List Char → Option (List Char × List Char)
  | [] => none
  | '"' :: cs => some ([], cs)
  | '\\' :: 'u' :: a :: b :: c :: d :: cs => do
      let unit ← codeUnit? a b c d
      if isHighSurrogate unit then
        match cs with
        | '\\' :: 'u' :: a :: b :: c :: d :: cs => do
            let low ← codeUnit? a b c d
            if isLowSurrogate low then before (pairedChar unit low) (readChars? cs) else none
        | _ => none
      else if isLowSurrogate unit then none
      else before (Char.ofNat unit) (readChars? cs)
  | '\\' :: letter :: cs => do
      let c ← escapedChar? letter
      before c (readChars? cs)
  | c :: cs => if c = '\\' || c.toNat < 0x20 then none else before c (readChars? cs)

/-- Read a text behind its opening quote. -/
def readText? (cs : List Char) : Option (String × List Char) :=
  (readChars? cs).map fun (text, rest) => (String.ofList text, rest)

/-! ## Numbers -/

/-- The characters of numbers. -/
def isNumberChar (c : Char) : Bool := c.isDigit || c ∈ ['-', '+', '.', 'e', 'E']

/-- Does a list begin with a digit? -/
def startsWithDigit (cs : List Char) : Bool := cs.head?.any Char.isDigit

/-- The value of a number: digits without a leading zero, then perhaps a fraction and an exponent. A
number with neither of them is an integer. -/
def number? (word : List Char) : Option Json :=
  let unsigned := if word.head? = some '-' then word.tail else word
  let whole := unsigned.takeWhile Char.isDigit
  let rest := unsigned.dropWhile Char.isDigit
  if whole.isEmpty || Yaml.Plain.hasLeadingZero whole then none
  else
    match rest with
    | [] =>
        (Yaml.Plain.digitsValue? 10 whole).map fun n =>
          .integer (if word.head? = some '-' then -n else n)
    | '.' :: fraction =>
        if startsWithDigit fraction then (Yaml.Plain.decimal? word).map .decimal else none
    | _ => (Yaml.Plain.decimal? word).map .decimal

/-! ## Values -/

/-- The blanks between tokens. -/
def isSpace (c : Char) : Bool := c ∈ [' ', '\t', '\n', '\r']

/-- Skip the blanks in front of a token. -/
def skipSpace (cs : List Char) : List Char := cs.dropWhile isSpace

mutual

/-- Read a value. The steps bound the recursion: no value takes more than two for a character. -/
def readValue? : (steps : Nat) → List Char → Option (Json × List Char)
  | 0, _ => none
  | steps + 1, cs =>
      match skipSpace cs with
      | '"' :: cs => (readText? cs).map fun (text, rest) => (.string text, rest)
      | '[' :: cs =>
          match skipSpace cs with
          | ']' :: rest => some (.array [], rest)
          | cs => (readItems? steps cs).map fun (items, rest) => (.array items, rest)
      | '{' :: cs =>
          match skipSpace cs with
          | '}' :: rest => some (.object [], rest)
          | cs => (readMembers? steps cs).map fun (members, rest) => (.object members, rest)
      | 'n' :: 'u' :: 'l' :: 'l' :: rest => some (.null, rest)
      | 't' :: 'r' :: 'u' :: 'e' :: rest => some (.bool true, rest)
      | 'f' :: 'a' :: 'l' :: 's' :: 'e' :: rest => some (.bool false, rest)
      | cs => (number? (cs.takeWhile isNumberChar)).map (·, cs.dropWhile isNumberChar)

/-- Read the items of an array up to its closing bracket. There is one at least. -/
def readItems? : (steps : Nat) → List Char → Option (List Json × List Char)
  | 0, _ => none
  | steps + 1, cs => do
      let (item, rest) ← readValue? steps cs
      match skipSpace rest with
      | ']' :: rest => some ([item], rest)
      | ',' :: rest => (readItems? steps rest).map fun (items, rest) => (item :: items, rest)
      | _ => none

/-- Read the members of an object up to its closing brace. There is one at least. -/
def readMembers? : (steps : Nat) → List Char → Option (List (String × Json) × List Char)
  | 0, _ => none
  | steps + 1, cs => do
      let (name, rest) ←
        match skipSpace cs with
        | '"' :: cs => readText? cs
        | _ => none
      let (value, rest) ←
        match skipSpace rest with
        | ':' :: cs => readValue? steps cs
        | _ => none
      match skipSpace rest with
      | '}' :: rest => some ([(name, value)], rest)
      | ',' :: rest =>
          (readMembers? steps rest).map fun (members, rest) => ((name, value) :: members, rest)
      | _ => none

end

/-- The value of a JSON text. -/
def ofText? (text : String) : Option Json := do
  let (value, rest) ← readValue? (2 * text.length + 1) text.toList
  if (skipSpace rest).isEmpty then some value else none

/-! ## What is written can be read -/

theorem readChars?_quote (rest : List Char) : readChars? ('"' :: rest) = some ([], rest) := by
  rw [readChars?]

/-- A character that is not escaped stands for itself. -/
theorem readChars?_cons {c : Char} (quote : c ≠ '"') (backslash : c ≠ '\\')
    (printable : 0x20 ≤ c.toNat) (rest : List Char) :
    readChars? (c :: rest) = before c (readChars? rest) := by
  have low : ¬c.toNat < 0x20 := Nat.not_lt.mpr printable
  rw [readChars?]
  · simp [backslash, low]
  · exact quote
  · simp [backslash]
  · simp [backslash]

/-- A character that is escaped by one letter. -/
theorem readChars?_escaped {letter c : Char} (escaped : escapedChar? letter = some c)
    (rest : List Char) :
    readChars? ('\\' :: letter :: rest) = before c (readChars? rest) := by
  have notUnit : letter ≠ 'u' := by
    rintro rfl
    cases escaped
  rw [readChars?]
  · rw [escaped]
    rfl
  · simp [notUnit]

/-- A character that is escaped by its number. -/
theorem readChars?_unit {a b c d : Char} {unit : Nat} (digits : codeUnit? a b c d = some unit)
    (high : isHighSurrogate unit = false) (low : isLowSurrogate unit = false) (rest : List Char) :
    readChars? ('\\' :: 'u' :: a :: b :: c :: d :: rest) =
      before (Char.ofNat unit) (readChars? rest) := by
  rw [readChars?, digits]
  simp [high, low]

theorem hexValue?_hexDigit {n : Nat} (digit : n < 16) :
    Text.hexValue? (Text.hexDigit n) = some n := by
  decide +revert

theorem codeUnit?_hexFixed {n : Nat} (fits : n < 0x10000) :
    ∃ a b c d, Text.hexFixed 4 n = [a, b, c, d] ∧ codeUnit? a b c d = some n := by
  refine ⟨_, _, _, _, rfl, ?_⟩
  have digit (m : Nat) : Text.hexValue? (Text.hexDigit (m % 16)) = some (m % 16) :=
    hexValue?_hexDigit (Nat.mod_lt m (by decide))
  simp only [codeUnit?, digit]
  simp
  omega

theorem readChars?_escapeChar (c : Char) (rest : List Char) :
    readChars? (escapeChar c ++ rest) = before c (readChars? rest) := by
  unfold escapeChar
  split_ifs with quote backslash backspace formFeed lineFeed carriageReturn tab control
  · subst quote
    exact readChars?_escaped rfl rest
  · subst backslash
    exact readChars?_escaped rfl rest
  · subst backspace
    exact readChars?_escaped rfl rest
  · subst formFeed
    exact readChars?_escaped rfl rest
  · subst lineFeed
    exact readChars?_escaped rfl rest
  · subst carriageReturn
    exact readChars?_escaped rfl rest
  · subst tab
    exact readChars?_escaped rfl rest
  · rcases codeUnit?_hexFixed (n := c.toNat) (by omega) with ⟨x, y, z, w, digits, value⟩
    have high : isHighSurrogate c.toNat = false := by
      simp [isHighSurrogate]
      omega
    have low : isLowSurrogate c.toNat = false := by
      simp [isLowSurrogate]
      omega
    have read := readChars?_unit value high low rest
    rw [Char.ofNat_toNat] at read
    rw [digits]
    exact read
  · exact readChars?_cons quote backslash (Nat.not_lt.mp control) rest

/-- A quoted text is read behind its opening quote. -/
theorem readText?_quote (text : String) (rest : List Char) :
    readText? (text.toList.flatMap escapeChar ++ '"' :: rest) = some (text, rest) := by
  have chars (cs : List Char) :
      readChars? (cs.flatMap escapeChar ++ '"' :: rest) = some (cs, rest) := by
    induction cs with
    | nil => exact readChars?_quote rest
    | cons c cs ih =>
        rw [List.flatMap_cons, List.append_assoc, readChars?_escapeChar, ih]
        rfl
  rw [readText?, chars]
  simp

theorem toList_quote (text : String) :
    (quote text).toList = '"' :: (text.toList.flatMap escapeChar ++ ['"']) := by
  rw [quote, String.toList_ofList]
  rfl

theorem readValue?_quote (steps : Nat) (text : String) (rest : List Char) :
    readValue? (steps + 1) ((quote text).toList ++ rest) = some (.string text, rest) := by
  have read := readText?_quote text rest
  simp [readValue?, toList_quote, skipSpace, isSpace, read]

theorem compactItems_cons_cons (text next : String) (texts : List String) :
    (compactItems ((text :: next :: texts).map string)).toList =
      (quote text).toList ++ ',' :: (compactItems ((next :: texts).map string)).toList := by
  simp [compactItems, compact, scalarText]

theorem exists_compactItems_eq (text : String) (texts : List String) :
    ∃ cs, (compactItems ((text :: texts).map string)).toList = '"' :: cs := by
  cases texts with
  | nil => simp [compactItems, compact, scalarText, toList_quote]
  | cons next texts =>
      rw [compactItems_cons_cons, toList_quote]
      exact ⟨_, rfl⟩

theorem length_le_compactItems (texts : List String) :
    texts.length ≤ (compactItems (texts.map string)).toList.length := by
  induction texts with
  | nil => exact Nat.zero_le _
  | cons text texts ih =>
      cases texts with
      | nil => simp [compactItems, compact, scalarText, toList_quote]
      | cons next texts =>
          rw [compactItems_cons_cons, List.length_append, List.length_cons, List.length_cons]
          exact Nat.le_trans (Nat.succ_le_succ ih) (Nat.le_add_left _ _)

/-- The texts of an array are read one after the other up to its closing bracket. -/
theorem readItems?_strings (more : Nat) (text : String) (texts : List String) (rest : List Char) :
    readItems? (more + (texts.length + 2))
        ((compactItems ((text :: texts).map string)).toList ++ ']' :: rest) =
      some ((text :: texts).map string, rest) := by
  induction texts generalizing text with
  | nil =>
      have last := readValue?_quote more text (']' :: rest)
      simp [compactItems, compact, scalarText, readItems?, last, skipSpace, isSpace]
  | cons next texts ih =>
      have first (cs : List Char) : readValue? (more + (texts.length + 2))
          ((quote text).toList ++ cs) = some (.string text, cs) :=
        readValue?_quote _ text cs
      have later := ih next
      rw [compactItems_cons_cons, List.append_assoc, List.cons_append]
      change readItems? (more + (texts.length + 2) + 1) _ = _
      rw [readItems?, first]
      simpa [skipSpace, isSpace] using later

/-- An array that begins with a text has items. -/
theorem readValue?_bracket (steps : Nat) (cs : List Char) :
    readValue? (steps + 1) ('[' :: '"' :: cs) =
      (readItems? steps ('"' :: cs)).map fun (items, rest) => (.array items, rest) := by
  simp [readValue?, skipSpace, isSpace]

theorem toList_compact_strings (texts : List String) : (strings texts).compact.toList =
    '[' :: ((compactItems (texts.map string)).toList ++ [']']) := by
  simp [strings, compact]

/-- An array of texts that is written compactly is read as this array. -/
theorem ofText?_strings (texts : List String) :
    ofText? (strings texts).compact = some (strings texts) := by
  have length : (strings texts).compact.length =
      (compactItems (texts.map string)).toList.length + 2 := by
    rw [← String.length_toList, toList_compact_strings]
    simp
  rw [ofText?, toList_compact_strings, length]
  cases texts with
  | nil => rfl
  | cons text texts =>
      have enough : texts.length + 2 ≤
          2 * ((compactItems ((text :: texts).map string)).toList.length + 2) := by
        have bound := length_le_compactItems (text :: texts)
        rw [List.length_cons] at bound
        omega
      rcases Nat.exists_eq_add_of_le' enough with ⟨more, steps⟩
      have items := readItems?_strings more text texts []
      rcases exists_compactItems_eq text texts with ⟨cs, front⟩
      rw [steps, front, List.cons_append, readValue?_bracket, ← List.cons_append, ← front, items]
      rfl

/-- Texts can be written in other ways. -/
example : (ofText? " [ \"\\u0041\\ud83d\\ude00\" , \"\\/\" ]\n").map compact =
    some "[\"A😀\",\"/\"]" := by
  decide +kernel

/-! ## Control characters -/

theorem space_le_of_mem_hexFixed {width n : Nat} {c : Char}
    (member : c ∈ Text.hexFixed width n) : 0x20 ≤ c.toNat := by
  have digits : ∀ d < 16, 0x20 ≤ (Text.hexDigit d).toNat := by decide
  induction width generalizing n with
  | zero => cases member
  | succ width ih =>
      rw [Text.hexFixed, List.mem_append, List.mem_singleton] at member
      rcases member with front | rfl
      · exact ih front
      · exact digits (n % 16) (Nat.mod_lt n (by decide))

theorem space_le_of_mem_escapeChar {c written : Char} (member : written ∈ escapeChar c) :
    0x20 ≤ written.toNat := by
  have short {letter : Char} (printable : 0x20 ≤ letter.toNat)
      (inEscape : written ∈ ['\\', letter]) : 0x20 ≤ written.toNat := by
    simp only [List.mem_cons, List.not_mem_nil, or_false] at inEscape
    rcases inEscape with rfl | rfl
    · decide
    · exact printable
  unfold escapeChar at member
  split_ifs at member with quote backslash backspace formFeed lineFeed carriageReturn tab control
  · exact short (by decide) member
  · exact short (by decide) member
  · exact short (by decide) member
  · exact short (by decide) member
  · exact short (by decide) member
  · exact short (by decide) member
  · exact short (by decide) member
  · rcases List.mem_append.mp member with front | digits
    · exact short (by decide) front
    · exact space_le_of_mem_hexFixed digits
  · rw [List.mem_singleton.mp member]
    exact Nat.not_lt.mp control

/-- No control character stands in a quoted text, whatever the text is. -/
theorem space_le_of_mem_quote {text : String} {c : Char} (member : c ∈ (quote text).toList) :
    0x20 ≤ c.toNat := by
  simp only [toList_quote, List.mem_cons, List.mem_append, List.mem_flatMap,
    List.not_mem_nil, or_false] at member
  rcases member with rfl | ⟨original, -, written⟩ | rfl
  · decide
  · exact space_le_of_mem_escapeChar written
  · decide

theorem space_le_of_mem_compactItems {texts : List String} {c : Char}
    (member : c ∈ (compactItems (texts.map string)).toList) : 0x20 ≤ c.toNat := by
  induction texts with
  | nil => cases member
  | cons text texts ih =>
      cases texts with
      | nil => exact space_le_of_mem_quote member
      | cons next texts =>
          rw [compactItems_cons_cons, List.mem_append, List.mem_cons] at member
          rcases member with first | rfl | later
          · exact space_le_of_mem_quote first
          · decide
          · exact ih later

/-- No control character stands in an array of texts that is written compactly. -/
theorem space_le_of_mem_strings {texts : List String} {c : Char}
    (member : c ∈ (strings texts).compact.toList) : 0x20 ≤ c.toNat := by
  rw [toList_compact_strings, List.mem_cons, List.mem_append, List.mem_singleton] at member
  rcases member with rfl | items | rfl
  · decide
  · exact space_le_of_mem_compactItems items
  · decide

end FleetCompose.Json
