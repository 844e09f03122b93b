import FleetCompose.Yaml.Token.Scalars
import FleetCompose.Yaml.Writer

/-!
# Scanning what was written

What the writer writes for a text on one line, plain or between quotes, is scanned as that text.
The scanner goes from word to word; the writer goes from character to character.
-/

namespace FleetCompose.Yaml

open Value (spaces)

/-! ## Marks and cursors -/

namespace Mark

variable {mark : Mark} {front rest : List Char}

@[simp] theorem column_advance : (mark.advance front).column = mark.column + front.length := rfl

@[simp] theorem line_advance : (mark.advance front).line = mark.line := rfl

@[simp] theorem advance_nil : mark.advance [] = mark := rfl

theorem advance_append : mark.advance (front ++ rest) = (mark.advance front).advance rest := by
  simp [advance, List.foldl_append, Nat.add_assoc]

theorem advance_cons (c : Char) : mark.advance (c :: rest) = (mark.advance [c]).advance rest :=
  @advance_append _ [c] _

end Mark

namespace Cursor

theorem advance_append {front rest : List Char} {mark : Mark} {count : Nat}
    (length : front.length = count) :
    (⟨front ++ rest, mark⟩ : Cursor).advance count = ⟨rest, mark.advance front⟩ := by
  subst length
  simp [advance]

@[simp] theorem advance_one {c : Char} {rest : List Char} {mark : Mark} :
    (⟨c :: rest, mark⟩ : Cursor).advance 1 = ⟨rest, mark.advance [c]⟩ :=
  @advance_append [c] _ _ _ rfl

@[simp] theorem next?_mk {rest : List Char} {mark : Mark} :
    (⟨rest, mark⟩ : Cursor).next? = rest.head? := rfl

/-- There is no document indicator in the middle of a line. -/
theorem atIndicator_of_column {rest : List Char} {mark : Mark} (inside : 0 < mark.column) :
    (⟨rest, mark⟩ : Cursor).atIndicator = false := by
  have column : (mark.column == 0) = false := by
    rw [beq_eq_false_iff_ne]
    exact Nat.ne_of_gt inside
  rw [atIndicator, column]
  rfl

end Cursor

/-! ## Lines -/

/-- What is at the start of the list, if anything, is neither a blank nor a line end. -/
def Solid (rest : List Char) : Prop :=
  ∀ c ∈ rest.head?, isSpaceOrTab c = false ∧ isBreak c = false

/-- A token can start here, or there is nothing left. -/
structure Opens (rest : List Char) : Prop where
  solid : Solid rest
  noComment : rest.head? ≠ some '#'
  noOrderMark : rest.head? ≠ some byteOrderMark

/-- Behind a line end there are empty lines, and then the rest, which is indented. -/
structure NextLine (behind : List Char) (emptyLines column : Nat) (rest : List Char) : Prop
    extends Opens rest where
  eq : behind = List.replicate emptyLines '\n' ++ (spaces column ++ rest)

@[simp] theorem spaces_zero : spaces 0 = [] := rfl

theorem spaces_succ (n : Nat) : spaces (n + 1) = ' ' :: spaces n := rfl

@[simp] theorem length_spaces (n : Nat) : (spaces n).length = n := List.length_replicate

namespace Mark

theorem advance_spaces {mark : Mark} (n : Nat) :
    mark.advance (spaces n) = ⟨mark.index + n, mark.line, mark.column + n⟩ := by
  induction n generalizing mark with
  | zero => rfl
  | succ n ih =>
      have size : Char.utf8Size ' ' = 1 := rfl
      rw [spaces_succ, advance_cons, ih]
      simp [advance, size, Nat.add_assoc, Nat.add_comm 1]

/-- The mark behind the end of the line, some empty lines and an indentation. -/
def below (mark : Mark) (emptyLines column : Nat) : Mark :=
  ⟨mark.index + 1 + emptyLines + column, mark.line + 1 + emptyLines, column⟩

end Mark

namespace Token

variable {limit : Int} {fuel : Nat} {gap : Gap} {rest behind : List Char} {mark : Mark}

theorem readGap_of_solid (solid : Solid rest) :
    readGap limit fuel gap ⟨rest, mark⟩ = .ok (gap, ⟨rest, mark⟩) := by
  cases fuel with
  | zero => rfl
  | succ fuel =>
      cases rest with
      | nil => rfl
      | cons c rest =>
          obtain ⟨noBlank, noBreak⟩ := solid c rfl
          simp [readGap, noBlank, noBreak]

/-- The blanks of a line count as long as there is no line end. -/
theorem readGap_spaces (blanks : List Char) (n : Nat) :
    readGap limit (fuel + n) ⟨blanks, false, [], []⟩ ⟨spaces n ++ rest, mark⟩ =
      readGap limit fuel ⟨blanks ++ spaces n, false, [], []⟩
        ⟨rest, mark.advance (spaces n)⟩ := by
  induction n generalizing blanks mark with
  | zero => simp
  | succ n ih =>
      have blank : isSpaceOrTab ' ' = true := rfl
      rw [spaces_succ, List.cons_append, ← Nat.add_assoc, readGap]
      simp only [Cursor.next?_mk, List.head?_cons, blank, Cursor.advance_one, ↓reduceIte,
        Bool.false_eq_true]
      rw [ih, List.append_assoc, ← Mark.advance_append]
      rfl

/-- Behind a line end blanks do not count. -/
theorem readGap_indentation (broken : gap.broken = true) (n : Nat) :
    readGap limit (fuel + n) gap ⟨spaces n ++ rest, mark⟩ =
      readGap limit fuel gap ⟨rest, mark.advance (spaces n)⟩ := by
  induction n generalizing mark with
  | zero => simp
  | succ n ih =>
      have blank : isSpaceOrTab ' ' = true := rfl
      rw [spaces_succ, List.cons_append, ← Nat.add_assoc, readGap]
      simp only [Cursor.next?_mk, List.head?_cons, blank, broken, Cursor.advance_one, ↓reduceIte]
      rw [if_neg (by simp), ih, ← Mark.advance_append]
      rfl

theorem readGap_lineEnd (broken : gap.broken = true) :
    readGap limit (fuel + 1) gap ⟨'\n' :: rest, mark⟩ =
      readGap limit fuel { gap with moreBreaks := gap.moreBreaks ++ ['\n'] }
        ⟨rest, mark.nextLine 1⟩ := by
  have noBlank : isSpaceOrTab '\n' = false := rfl
  have isEnd : isBreak '\n' = true := rfl
  have size : Char.utf8Size '\n' = 1 := rfl
  simp [readGap, noBlank, isEnd, size, broken, Cursor.lineEnd]

/-- Empty lines and indentation belong to the gap behind a line end. -/
theorem readGap_of_broken {emptyLines column : Nat} {first more : List Char}
    (next : NextLine behind emptyLines column rest) (start : mark.column = 0)
    (enough : behind.length < fuel) :
    readGap limit fuel ⟨[], true, first, more⟩ ⟨behind, mark⟩ =
      .ok (⟨[], true, first, more ++ List.replicate emptyLines '\n'⟩,
        ⟨rest, ⟨mark.index + emptyLines + column, mark.line + emptyLines, column⟩⟩) := by
  have solid := next.solid
  obtain rfl := next.eq
  clear next
  obtain ⟨extra, rfl⟩ := Nat.exists_eq_add_of_lt enough
  induction emptyLines generalizing more mark with
  | zero =>
      have fuels : (List.replicate 0 '\n' ++ (spaces column ++ rest)).length + extra + 1 =
          rest.length + extra + 1 + column := by
        simp
        omega
      rw [fuels, List.replicate_zero, List.nil_append, readGap_indentation rfl,
        readGap_of_solid solid, Mark.advance_spaces, start]
      simp
  | succ emptyLines ih =>
      have fuels : (List.replicate (emptyLines + 1) '\n' ++ (spaces column ++ rest)).length +
          extra + 1 =
            (List.replicate emptyLines '\n' ++ (spaces column ++ rest)).length + extra + 1 + 1 := by
        simp
        omega
      rw [fuels, List.replicate_succ, List.cons_append, readGap_lineEnd rfl, ih rfl (by omega)]
      simp [Mark.nextLine, Nat.add_assoc, Nat.add_comm 1]

/-- The line end itself belongs to the gap, too. -/
theorem readGap_of_lineEnd {emptyLines column : Nat}
    (next : NextLine behind emptyLines column rest) (enough : behind.length + 1 < fuel) :
    readGap limit fuel .none ⟨'\n' :: behind, mark⟩ =
      .ok (⟨[], true, ['\n'], List.replicate emptyLines '\n'⟩,
        ⟨rest, mark.below emptyLines column⟩) := by
  obtain ⟨extra, rfl⟩ := Nat.exists_eq_add_of_lt enough
  have first : readGap limit (behind.length + 1 + extra + 1) .none ⟨'\n' :: behind, mark⟩ =
      readGap limit (behind.length + 1 + extra) ⟨[], true, ['\n'], []⟩
        ⟨behind, mark.nextLine 1⟩ := by
    rw [readGap]
    rfl
  rw [first, readGap_of_broken next rfl (by omega)]
  rfl

/-! ## Plain scalars -/

/-- A word of a plain scalar has neither blanks nor line ends, and no colon at its end. -/
structure PlainWord (word : List Char) : Prop where
  ne_nil : word ≠ []
  solid : ∀ c ∈ word, isSpaceOrTab c = false ∧ isBreak c = false
  closed : word.getLast? ≠ some ':'

/-- Words with spaces between them. No word but the first one starts like a comment. -/
inductive PlainWords : List Char → Prop where
  | last {word : List Char} : PlainWord word → PlainWords word
  | more {word : List Char} (n : Nat) {cs : List Char} : PlainWord word → PlainWords cs →
      cs.head? ≠ some '#' → PlainWords (word ++ (spaces (n + 1) ++ cs))

theorem PlainWord.exists_cons {word : List Char} (isWord : PlainWord word) :
    ∃ c cs, word = c :: cs ∧ isSpaceOrTab c = false ∧ isBreak c = false := by
  cases word with
  | nil => exact absurd rfl isWord.ne_nil
  | cons c cs => exact ⟨c, cs, rfl, isWord.solid c List.mem_cons_self⟩

theorem PlainWords.exists_cons {cs : List Char} (words : PlainWords cs) :
    ∃ c rest, cs = c :: rest ∧ isSpaceOrTab c = false ∧ isBreak c = false := by
  cases words with
  | last isWord => exact isWord.exists_cons
  | more n isWord =>
      obtain ⟨c, cs, rfl, solid⟩ := isWord.exists_cons
      exact ⟨c, _, rfl, solid⟩

theorem PlainWords.solid {cs : List Char} (words : PlainWords cs) (tail : List Char) :
    Solid (cs ++ tail) := by
  obtain ⟨c, rest, rfl, solid⟩ := words.exists_cons
  rintro d ⟨⟩
  exact solid

/-- Behind a word of a plain scalar there is a blank, a line end, or a colon that ends a key. -/
def EndsWord (tail : List Char) : Prop :=
  ∃ c rest, tail = c :: rest ∧ (isSpaceOrTab c = true ∨ isBreak c = true ∨
    (c = ':' ∧ ∃ d more, rest = d :: more ∧ (isSpaceOrTab d = true ∨ isBreak d = true)))

theorem plainWord_append {word tail reversed : List Char}
    (solid : ∀ c ∈ word, isSpaceOrTab c = false ∧ isBreak c = false)
    (closed : word.getLast? ≠ some ':') (ends : EndsWord tail) (enough : word.length < fuel) :
    plainWord false fuel reversed ⟨word ++ tail, mark⟩ =
      .ok (reversed.reverse ++ word, ⟨tail, mark.advance word⟩) := by
  induction word generalizing fuel reversed mark with
  | nil =>
      obtain ⟨fuel, rfl⟩ := Nat.exists_eq_add_of_lt enough
      obtain ⟨c, rest, rfl, blank | lineEnd | ⟨rfl, d, more, rfl, separates⟩⟩ := ends
      · simp [plainWord, blank]
      · simp [plainWord, lineEnd]
      · have noBlank : isSpaceOrTab ':' = false := rfl
        have noBreak : isBreak ':' = false := rfl
        simp [plainWord, noBlank, noBreak, isStrayColon, endsWord, Cursor.separatorAt, separates]
  | cons c cs ih =>
      obtain ⟨more, rfl⟩ := Nat.exists_eq_add_of_lt enough
      obtain ⟨noBlank, noBreak⟩ := solid c List.mem_cons_self
      have goesOn : endsWord false ⟨c :: (cs ++ tail), mark⟩ c = false := by
        cases cs with
        | nil =>
            have other : c ≠ ':' := by
              rintro rfl
              exact closed rfl
            simp [endsWord, other]
        | cons d ds =>
            obtain ⟨noBlank, noBreak⟩ := solid d (by simp)
            simp [endsWord, Cursor.separatorAt, noBlank, noBreak]
      have closedRest : cs.getLast? ≠ some ':' := by
        cases cs with
        | nil => simp
        | cons d ds => rwa [List.getLast?_cons_cons] at closed
      rw [List.cons_append, plainWord]
      simp only [Cursor.next?_mk, List.head?_cons, noBlank, noBreak, isStrayColon, goesOn,
        Bool.false_and, Bool.or_self, Bool.false_eq_true, ↓reduceIte, Cursor.advance_one]
      rw [ih (fun d member => solid d (List.mem_cons_of_mem c member)) closedRest
        (by rw [List.length_cons]; omega), ← Mark.advance_append]
      simp

variable {since : Mark} {tail : List Char}

/-- One round of the scanner: it takes a word and the gap behind it, and goes on if what follows is
indented far enough. -/
theorem plainWords_succ {word text : List Char} {last : Mark} {broken : Bool} {found : Gap}
    {next : Cursor} (isWord : PlainWord word) (ends : EndsWord tail)
    (free : (⟨word ++ tail, mark⟩ : Cursor).atIndicator = false)
    (noComment : word.head? ≠ some '#')
    (gapRead : readGap limit (tail.length + 1) .none ⟨tail, mark.advance word⟩ =
      .ok (found, next)) :
    plainWords false limit since (fuel + 1) gap ⟨text, last, ⟨word ++ tail, mark⟩, broken⟩ =
      let after : Cursor := ⟨tail, mark.advance word⟩
      if !(after.atBlank || after.atBreak) then
        .ok ⟨text ++ gap.text ++ word, after.mark, after, false⟩
      else if next.mark.column < limit then
        .ok ⟨text ++ gap.text ++ word, after.mark, next, found.broken⟩
      else
        plainWords false limit since fuel found
          ⟨text ++ gap.text ++ word, after.mark, next, found.broken⟩ := by
  obtain ⟨c, others, rfl, -⟩ := isWord.exists_cons
  rw [plainWords]
  simp only [free, Cursor.next?_mk]
  rw [if_neg (by simpa using noComment),
    plainWord_append isWord.solid isWord.closed ends (by grind)]
  simp only [List.reverse_nil, List.nil_append, gapRead, Bool.not_false, Bool.true_and,
    decide_eq_true_eq]

/-- One round of the scanner over a word with spaces behind it. -/
theorem plainWords_append {word cs text : List Char} {last : Mark} {broken : Bool} (n : Nat)
    (isWord : PlainWord word) (words : PlainWords cs)
    (free : (⟨word ++ (spaces (n + 1) ++ cs) ++ tail, mark⟩ : Cursor).atIndicator = false)
    (noComment : word.head? ≠ some '#') (column : limit ≤ mark.column + 1) :
    plainWords false limit since (fuel + 1) gap
        ⟨text, last, ⟨word ++ (spaces (n + 1) ++ cs) ++ tail, mark⟩, broken⟩ =
      plainWords false limit since fuel ⟨spaces (n + 1), false, [], []⟩
        ⟨text ++ gap.text ++ word, mark.advance word,
          ⟨cs ++ tail, (mark.advance word).advance (spaces (n + 1))⟩, false⟩ := by
  have ends : EndsWord (spaces (n + 1) ++ cs ++ tail) := ⟨' ', _, rfl, .inl rfl⟩
  have gapRead : readGap limit ((spaces (n + 1) ++ cs ++ tail).length + 1) .none
      ⟨spaces (n + 1) ++ cs ++ tail, mark.advance word⟩ =
        .ok (⟨spaces (n + 1), false, [], []⟩,
          ⟨cs ++ tail, (mark.advance word).advance (spaces (n + 1))⟩) := by
    have fuels : (spaces (n + 1) ++ cs ++ tail).length + 1 = (cs ++ tail).length + 1 + (n + 1) := by
      simp
      omega
    rw [fuels, List.append_assoc, Gap.none, readGap_spaces, readGap_of_solid (words.solid tail)]
    rfl
  have inside : ¬((mark.advance word).advance (spaces (n + 1))).column < limit := by
    simp only [Mark.column_advance, length_spaces]
    omega
  have atBlank : (⟨spaces (n + 1) ++ cs ++ tail, mark.advance word⟩ : Cursor).atBlank = true := rfl
  rw [List.append_assoc] at free ⊢
  rw [plainWords_succ isWord ends free noComment gapRead]
  simp only [atBlank, inside, Bool.true_or, Bool.not_true, Bool.false_eq_true, ↓reduceIte]

/-- The scanner goes from word to word; what it answers is decided behind the last one. -/
theorem plainWords_of_words {cs text : List Char} {last : Mark} {broken : Bool}
    (answer : List Char → Mark → Except SyntaxError PlainScalar)
    (ended : ∀ {word text : List Char} {last mark : Mark} {gap : Gap} {broken : Bool}
      (fuel : Nat), PlainWord word →
      (⟨word ++ tail, mark⟩ : Cursor).atIndicator = false → word.head? ≠ some '#' →
      plainWords false limit since (fuel + 1) gap ⟨text, last, ⟨word ++ tail, mark⟩, broken⟩ =
        answer (text ++ gap.text ++ word) (mark.advance word))
    (words : PlainWords cs) (free : (⟨cs ++ tail, mark⟩ : Cursor).atIndicator = false)
    (noComment : cs.head? ≠ some '#') (column : limit ≤ mark.column + 1)
    (enough : cs.length < fuel) :
    plainWords false limit since fuel gap ⟨text, last, ⟨cs ++ tail, mark⟩, broken⟩ =
      answer (text ++ gap.text ++ cs) (mark.advance cs) := by
  induction words generalizing fuel gap text last mark broken with
  | last isWord =>
      obtain ⟨more, rfl⟩ := Nat.exists_eq_add_of_lt enough
      exact ended _ isWord free noComment
  | @more word n cs isWord words laterFree ih =>
      obtain ⟨more, rfl⟩ := Nat.exists_eq_add_of_lt enough
      obtain ⟨c, others, rfl, -⟩ := isWord.exists_cons
      rw [plainWords_append n isWord words free (by simpa using noComment) column,
        ih (Cursor.atIndicator_of_column (by grind [Mark.column_advance]))
          laterFree (by simp only [Mark.column_advance]; omega)
          (by simp only [List.length_append, length_spaces]; omega), Mark.advance_append,
        Mark.advance_append]
      simp [Gap.text]

/-- A plain scalar in front of a colon that ends a key. -/
theorem plainScalar_of_colon {indent : Int} {cs after : List Char} (words : PlainWords cs)
    (free : (⟨cs ++ ':' :: after, mark⟩ : Cursor).atIndicator = false)
    (noComment : cs.head? ≠ some '#') (column : indent ≤ mark.column)
    (ends : EndsWord (':' :: after)) :
    plainScalar false indent ⟨cs ++ ':' :: after, mark⟩ =
      .ok ⟨cs, mark.advance cs, ⟨':' :: after, mark.advance cs⟩, false⟩ := by
  have ended : ∀ {word text : List Char} {last mark : Mark} {gap : Gap} {broken : Bool}
      (since : Mark) (fuel : Nat), PlainWord word →
      (⟨word ++ ':' :: after, mark⟩ : Cursor).atIndicator = false → word.head? ≠ some '#' →
      plainWords false (indent + 1) since (fuel + 1) gap
          ⟨text, last, ⟨word ++ ':' :: after, mark⟩, broken⟩ =
        .ok ⟨text ++ gap.text ++ word, mark.advance word, ⟨':' :: after, mark.advance word⟩,
          false⟩ := by
    intro word text last mark gap broken since fuel isWord free noComment
    have onColon : (⟨':' :: after, mark.advance word⟩ : Cursor).atBlank = false ∧
        (⟨':' :: after, mark.advance word⟩ : Cursor).atBreak = false := ⟨rfl, rfl⟩
    have solid : Solid (':' :: after) := by
      rintro c ⟨⟩
      exact ⟨rfl, rfl⟩
    rw [plainWords_succ isWord ends free noComment (readGap_of_solid solid)]
    simp only [onColon, Bool.or_self, Bool.not_false, ↓reduceIte]
  rw [plainScalar, plainWords_of_words
    (fun text last => .ok ⟨text, last, ⟨':' :: after, last⟩, false⟩)
    (ended mark) words free noComment (by omega) (by grind)]
  rfl

/-- A plain scalar at the end of a line, behind which the indentation is not kept up. -/
theorem plainScalar_of_lineEnd {indent : Int} {cs : List Char} {emptyLines column : Nat}
    (words : PlainWords cs) (next : NextLine behind emptyLines column rest)
    (less : column ≤ indent)
    (free : (⟨cs ++ '\n' :: behind, mark⟩ : Cursor).atIndicator = false)
    (noComment : cs.head? ≠ some '#') (inside : indent ≤ mark.column) :
    plainScalar false indent ⟨cs ++ '\n' :: behind, mark⟩ =
      .ok ⟨cs, mark.advance cs, ⟨rest, (mark.advance cs).below emptyLines column⟩, true⟩ := by
  have ended : ∀ {word text : List Char} {last mark : Mark} {gap : Gap} {broken : Bool}
      (since : Mark) (fuel : Nat), PlainWord word →
      (⟨word ++ '\n' :: behind, mark⟩ : Cursor).atIndicator = false → word.head? ≠ some '#' →
      plainWords false (indent + 1) since (fuel + 1) gap
          ⟨text, last, ⟨word ++ '\n' :: behind, mark⟩, broken⟩ =
        .ok ⟨text ++ gap.text ++ word, mark.advance word,
          ⟨rest, (mark.advance word).below emptyLines column⟩, true⟩ := by
    intro word text last mark gap broken since fuel isWord free noComment
    have ends : EndsWord ('\n' :: behind) := ⟨'\n', behind, rfl, .inr (.inl rfl)⟩
    have gapRead : readGap (indent + 1) (('\n' :: behind).length + 1) .none
        ⟨'\n' :: behind, mark.advance word⟩ =
          .ok (⟨[], true, ['\n'], List.replicate emptyLines '\n'⟩,
            ⟨rest, (mark.advance word).below emptyLines column⟩) :=
      readGap_of_lineEnd next (Nat.lt_succ_self _)
    have onBreak : (⟨'\n' :: behind, mark.advance word⟩ : Cursor).atBreak = true := rfl
    have outside : (((mark.advance word).below emptyLines column).column : Int) < indent + 1 :=
      Int.lt_add_one_of_le less
    rw [plainWords_succ isWord ends free noComment gapRead]
    simp only [onBreak, outside, Bool.or_true, Bool.not_true, Bool.false_eq_true, ↓reduceIte]
  rw [plainScalar, plainWords_of_words
    (fun text last => .ok ⟨text, last, ⟨rest, last.below emptyLines column⟩, true⟩)
    (ended mark) words free noComment (by omega) (by grind)]
  rfl

end Token

/-! ## What is written plain -/

open Token (PlainWord PlainWords)

namespace Style

theorem eq_false_of_anyNeighbours {p : Char → Char → Bool} {front rest : List Char} {a b : Char}
    (none : anyNeighbours p (front ++ a :: b :: rest) = false) : p a b = false := by
  induction front with
  | nil =>
      rw [List.nil_append, anyNeighbours, Bool.or_eq_false_iff] at none
      exact none.1
  | cons c front ih =>
      cases front with
      | nil =>
          rw [List.cons_append, List.nil_append, anyNeighbours, Bool.or_eq_false_iff] at none
          exact ih none.2
      | cons d front =>
          rw [List.cons_append, List.cons_append, anyNeighbours, Bool.or_eq_false_iff] at none
          exact ih none.2

/-- No indicator stands where the words of a text are put together. -/
theorem ne_of_holdsIndicator {front rest : List Char} {a b : Char}
    (none : holdsIndicator (front ++ a :: b :: rest) = false) :
    ¬(a = ':' ∧ isSeparator b = true) ∧ ¬(isSeparator a = true ∧ b = '#') := by
  rw [holdsIndicator, List.append_assoc, List.cons_append, List.cons_append] at none
  simpa using eq_false_of_anyNeighbours none

theorem getLast?_ne_of_holdsIndicator {cs : List Char} (none : holdsIndicator cs = false) :
    cs.getLast? ≠ some ':' := by
  intro last
  obtain ⟨front, rfl⟩ := List.getLast?_eq_some_iff.mp last
  rw [holdsIndicator, List.append_assoc] at none
  have pair := @eq_false_of_anyNeighbours _ front [] ':' '\x00' none
  revert pair
  decide

theorem holdsIndicator_of_append {front rest : List Char}
    (none : holdsIndicator (front ++ rest) = false) : holdsIndicator rest = false := by
  induction front with
  | nil => exact none
  | cons c front ih =>
      apply ih
      rw [holdsIndicator, List.cons_append, List.cons_append] at none
      rw [holdsIndicator]
      cases whole : front ++ rest ++ ['\x00'] with
      | nil => rfl
      | cons d ds =>
          rw [whole, anyNeighbours, Bool.or_eq_false_iff] at none
          exact none.2

end Style

/-- A character of a text without line ends that needs no escape. -/
def IsInline (c : Char) : Prop := isPrintable c = true ∧ isBreak c = false

theorem IsInline.isSpaceOrTab_eq_false {c : Char} (inline : IsInline c) (other : c ≠ ' ') :
    isSpaceOrTab c = false := by
  have noTab : c ≠ '\t' := by
    rintro rfl
    exact absurd inline.1 (by decide)
  simp [isSpaceOrTab, other, noTab]

/-- A list of characters starts with a word, which ends at the first space. -/
theorem exists_word (cs : List Char) :
    ∃ word rest, cs = word ++ rest ∧ (∀ c ∈ word, c ≠ ' ') ∧
      (rest = [] ∨ ∃ n more, rest = spaces (n + 1) ++ more ∧ more.head? ≠ some ' ') := by
  induction cs with
  | nil => exact ⟨[], [], rfl, by simp, .inl rfl⟩
  | cons c cs ih =>
      obtain ⟨word, rest, rfl, solid, shape⟩ := ih
      by_cases space : c = ' '
      · subst space
        cases word with
        | nil =>
            refine ⟨[], ' ' :: rest, rfl, by simp, .inr ?_⟩
            rcases shape with rfl | ⟨n, more, rfl, head⟩
            · exact ⟨0, [], rfl, by simp⟩
            · exact ⟨n + 1, more, rfl, head⟩
        | cons d word =>
            refine ⟨[], ' ' :: (d :: word ++ rest), rfl, by simp,
              .inr ⟨0, d :: word ++ rest, rfl, ?_⟩⟩
            simpa using solid d List.mem_cons_self
      · exact ⟨c :: word, rest, rfl, by simpa [space] using solid, shape⟩

/-- Without indicators no word in front of a space ends with a colon, and none behind it starts a
comment. -/
theorem ends_of_holdsIndicator {word more : List Char} {n : Nat}
    (free : Style.holdsIndicator (word ++ (spaces (n + 1) ++ more)) = false) :
    word.getLast? ≠ some ':' ∧ more.head? ≠ some '#' := by
  constructor
  · intro colon
    obtain ⟨front, rfl⟩ := List.getLast?_eq_some_iff.mp colon
    rw [List.append_assoc] at free
    exact (@Style.ne_of_holdsIndicator front (spaces n ++ more) ':' ' ' free).1 ⟨rfl, rfl⟩
  · intro hash
    obtain ⟨tail, rfl⟩ := List.head?_eq_some_iff.mp hash
    have pair : word ++ (spaces (n + 1) ++ '#' :: tail) =
        word ++ spaces n ++ ' ' :: '#' :: tail := by
      rw [spaces, List.replicate_succ', spaces]
      simp
    rw [pair] at free
    exact (@Style.ne_of_holdsIndicator (word ++ spaces n) tail ' ' '#' free).2 ⟨rfl, rfl⟩

theorem plainWords_of_holdsIndicator {cs : List Char} (nonempty : cs ≠ [])
    (inline : ∀ c ∈ cs, IsInline c) (head : cs.head? ≠ some ' ') (last : cs.getLast? ≠ some ' ')
    (free : Style.holdsIndicator cs = false) : PlainWords cs := by
  induction length : cs.length using Nat.strongRecOn generalizing cs with
  | _ length ih =>
      obtain ⟨word, rest, rfl, solid, shape⟩ := exists_word cs
      have isWord (closed : word.getLast? ≠ some ':') (wordNonempty : word ≠ []) :
          PlainWord word :=
        ⟨wordNonempty, fun c member =>
          ⟨(inline c (by simp [member])).isSpaceOrTab_eq_false (solid c member),
            (inline c (by simp [member])).2⟩, closed⟩
      rcases shape with rfl | ⟨n, more, rfl, moreHead⟩
      · rw [List.append_nil] at nonempty free ⊢
        exact .last (isWord (Style.getLast?_ne_of_holdsIndicator free) nonempty)
      · have wordNonempty : word ≠ [] := by
          rintro rfl
          exact head rfl
        have moreNonempty : more ≠ [] := by
          rintro rfl
          apply last
          rw [List.append_nil, List.getLast?_append, spaces, List.getLast?_replicate]
          rfl
        obtain ⟨closed, noComment⟩ := ends_of_holdsIndicator free
        have moreLast : more.getLast? ≠ some ' ' := by
          intro space
          apply last
          rw [List.getLast?_append, List.getLast?_append, space]
          rfl
        refine .more n (isWord closed wordNonempty) (ih more.length ?_ moreNonempty ?_ moreHead
          moreLast ?_ rfl) noComment
        · rw [← length]
          simp
          omega
        · exact fun c member => inline c (by simp [member])
        · rw [← List.append_assoc] at free
          exact Style.holdsIndicator_of_append free

/-- A list of characters that can stand in a document as a plain scalar. -/
structure IsPlain (cs : List Char) : Prop where
  words : PlainWords cs
  start : Style.startsWithIndicator cs = false
  noOrderMark : cs.head? ≠ some byteOrderMark

/-- What the writer takes for plain can be scanned as a plain scalar. -/
theorem isPlain_of_plainAllowed {cs : List Char} (nonempty : cs ≠ [])
    (allowed : Style.plainAllowed cs = true) : IsPlain cs := by
  simp only [Style.plainAllowed, Style.needsEscapes, Style.hasOpenEnd, Bool.and_eq_true,
    Bool.not_eq_true', Bool.or_eq_false_iff, Bool.not_eq_false'] at allowed
  obtain ⟨⟨⟨⟨noBreak, -, printable⟩, head, last⟩, start⟩, free⟩ := allowed
  refine ⟨plainWords_of_holdsIndicator nonempty ?_ ?_ ?_ free, start, ?_⟩
  · intro c member
    exact ⟨List.all_eq_true.mp printable c member,
      by simpa using List.any_eq_false.mp noBreak c member⟩
  · intro space
    rw [space] at head
    cases head
  · intro space
    rw [space] at last
    cases last
  · intro mark
    obtain ⟨tail, rfl⟩ := List.head?_eq_some_iff.mp mark
    exact absurd (List.all_eq_true.mp printable _ List.mem_cons_self) (by decide)

theorem IsPlain.head_ne {cs : List Char} (plain : IsPlain cs) : cs.head? ≠ some '#' := by
  intro head
  have start := plain.start
  obtain ⟨tail, rfl⟩ := List.head?_eq_some_iff.mp head
  simp [Style.startsWithIndicator] at start

theorem isPrefixOf_append_eq {pattern cs tail : List Char}
    (other : ∀ c ∈ pattern, tail.head? ≠ some c) :
    pattern.isPrefixOf (cs ++ tail) = pattern.isPrefixOf cs := by
  induction pattern generalizing cs with
  | nil => rfl
  | cons p pattern ih =>
      cases cs with
      | nil =>
          cases tail with
          | nil => rfl
          | cons t tail =>
              have differs : (p == t) = false := by
                rw [beq_eq_false_iff_ne]
                rintro rfl
                exact other p List.mem_cons_self rfl
              simp [List.isPrefixOf, differs]
      | cons c cs =>
          simp only [List.cons_append, List.isPrefixOf]
          rw [ih fun d member => other d (List.mem_cons_of_mem p member)]

/-- Nothing that is written plain is taken for a document indicator. -/
theorem IsPlain.atIndicator_eq_false {cs tail : List Char} (plain : IsPlain cs) (mark : Mark)
    (other : tail.head? ≠ some '-' ∧ tail.head? ≠ some '.') :
    (⟨cs ++ tail, mark⟩ : Cursor).atIndicator = false := by
  obtain ⟨c, rest, rfl, -⟩ := plain.words.exists_cons
  have start := plain.start
  simp only [Style.startsWithIndicator, Bool.or_eq_false_iff] at start
  have dashes := @isPrefixOf_append_eq "---".toList (c :: rest) tail (by simpa using other.1)
  have dots := @isPrefixOf_append_eq "...".toList (c :: rest) tail (by simpa using other.2)
  simp only [Cursor.atIndicator, Cursor.startsWith, dashes, dots, start.1.2, start.2,
    Bool.or_self, Bool.and_false, Bool.false_and]

/-! ## Quoted scalars -/

namespace Token

/-- What stands between quotes for a character other than a space is read as that character. -/
structure Encodes (single : Bool) (encode : Char → List Char) (c : Char) : Prop where
  solid : ∃ d ds, encode c = d :: ds ∧ isSpaceOrTab d = false ∧ isBreak d = false
  reads : ∀ (since : Mark) (fuel : Nat) (reversed rest : List Char) (mark : Mark),
    quotedWord single since (fuel + 1) reversed ⟨encode c ++ rest, mark⟩ =
      quotedWord single since fuel (c :: reversed) ⟨rest, mark.advance (encode c)⟩

/-- The quote that ends a quoted scalar. -/
def quote (single : Bool) : Char := if single then '\'' else '"'

/-- A stretch of a quoted scalar ends here. -/
def EndsStretch (single : Bool) (tail : List Char) : Prop :=
  ∀ (since : Mark) (fuel : Nat) (reversed : List Char) (mark : Mark),
    quotedWord single since (fuel + 1) reversed ⟨tail, mark⟩ =
      .ok ⟨reversed.reverse, ⟨tail, mark⟩, false⟩

theorem endsStretch_space (single : Bool) (rest : List Char) :
    EndsStretch single (' ' :: rest) := by
  intro since fuel reversed mark
  have blank : isSpaceOrTab ' ' = true := rfl
  simp [quotedWord, blank]

variable {single : Bool} {encode : Char → List Char} {since mark : Mark}

theorem quotedWord_append {word tail reversed : List Char} {fuel : Nat}
    (encodes : ∀ c ∈ word, Encodes single encode c) (ends : EndsStretch single tail)
    (enough : word.length < fuel) :
    quotedWord single since fuel reversed ⟨word.flatMap encode ++ tail, mark⟩ =
      .ok ⟨reversed.reverse ++ word, ⟨tail, mark.advance (word.flatMap encode)⟩, false⟩ := by
  obtain ⟨more, rfl⟩ := Nat.exists_eq_add_of_lt enough
  induction word generalizing reversed mark with
  | nil => simpa using ends since more reversed mark
  | cons c word ih =>
      have fuels : (c :: word).length + more + 1 = word.length + more + 1 + 1 := by
        simp
        omega
      rw [fuels, List.flatMap_cons, List.append_assoc,
        (encodes c List.mem_cons_self).reads, ih _ (by omega), Mark.advance_append]
      · simp
      · exact fun d member => encodes d (List.mem_cons_of_mem c member)

theorem length_le_flatMap {word : List Char} (encodes : ∀ c ∈ word, Encodes single encode c) :
    word.length ≤ (word.flatMap encode).length := by
  induction word with
  | nil => simp
  | cons c word ih =>
      obtain ⟨d, ds, encoded, -⟩ := (encodes c List.mem_cons_self).solid
      have rest := ih fun d member => encodes d (List.mem_cons_of_mem c member)
      simp only [List.flatMap_cons, List.length_append, List.length_cons, encoded]
      omega

/-- One round of the scanner over a stretch with spaces behind it. -/
theorem quotedWords_append {word rest text : List Char} {fuel : Nat} (n : Nat)
    (encodes : ∀ c ∈ word, Encodes single encode c) (solid : Solid rest)
    (inside : 0 < mark.column) :
    quotedWords single since (fuel + 1) text
        ⟨word.flatMap encode ++ (spaces (n + 1) ++ rest), mark⟩ =
      quotedWords single since fuel (text ++ word ++ spaces (n + 1))
        ⟨rest, mark.advance (word.flatMap encode ++ spaces (n + 1))⟩ := by
  have bound := length_le_flatMap encodes
  have notEmpty : (word.flatMap encode ++ (spaces (n + 1) ++ rest)).isEmpty = false := by
    simp [spaces_succ]
  have gapRead : readGap 0 ((spaces (n + 1) ++ rest).length + 1) .none
      ⟨spaces (n + 1) ++ rest, mark.advance (word.flatMap encode)⟩ =
        .ok (⟨spaces (n + 1), false, [], []⟩,
          ⟨rest, mark.advance (word.flatMap encode ++ spaces (n + 1))⟩) := by
    have fuels : (spaces (n + 1) ++ rest).length + 1 = rest.length + 1 + (n + 1) := by
      simp
      omega
    rw [fuels, Gap.none, readGap_spaces, readGap_of_solid solid, Mark.advance_append]
    rfl
  have noQuote : ¬some ' ' = some (if single = true then '\'' else '"') := by
    cases single <;> decide
  rw [quotedWords]
  simp only [Cursor.atIndicator_of_column inside, notEmpty, Bool.false_eq_true, ↓reduceIte]
  have ends : EndsStretch single (spaces (n + 1) ++ rest) := endsStretch_space single _
  have atBlank : (spaces (n + 1) ++ rest).head? = some ' ' := rfl
  have unjoined : { Gap.none with broken := false } = Gap.none := rfl
  rw [quotedWord_append encodes ends (by simp only [List.length_append]; omega)]
  simp only [Cursor.next?_mk, atBlank, noQuote, ↓reduceIte, List.reverse_nil, List.nil_append,
    unjoined, gapRead]
  rfl

/-- Behind a gap there is a character that is written, or the closing quote. -/
theorem solid_flatMap {rest after : List Char}
    (encodes : ∀ c ∈ rest, c ≠ ' ' → Encodes single encode c) (head : rest.head? ≠ some ' ') :
    Solid (rest.flatMap encode ++ quote single :: after) := by
  cases rest with
  | nil =>
      rintro c ⟨⟩
      cases single <;> exact ⟨rfl, rfl⟩
  | cons c rest =>
      have other : c ≠ ' ' := by
        rintro rfl
        exact head rfl
      obtain ⟨d, ds, encoded, isSolid⟩ := (encodes c List.mem_cons_self other).solid
      rw [List.flatMap_cons, encoded]
      rintro e ⟨⟩
      exact isSolid

/-- Between quotes the scanner goes from stretch to stretch. -/
theorem quotedWords_flatMap {cs after text : List Char} {fuel : Nat}
    (encodes : ∀ c ∈ cs, c ≠ ' ' → Encodes single encode c) (space : encode ' ' = [' '])
    (closes : EndsStretch single (quote single :: after)) (inside : 0 < mark.column)
    (enough : (cs.flatMap encode).length < fuel) :
    quotedWords single since fuel text ⟨cs.flatMap encode ++ quote single :: after, mark⟩ =
      .ok (text ++ cs, ⟨after, mark.advance (cs.flatMap encode ++ [quote single])⟩) := by
  induction length : cs.length using Nat.strongRecOn generalizing cs text mark fuel with
  | _ length ih =>
      obtain ⟨more, rfl⟩ := Nat.exists_eq_add_of_lt enough
      obtain ⟨word, rest, rfl, solid, shape⟩ := exists_word cs
      have encodesWord : ∀ c ∈ word, Encodes single encode c := fun c member =>
        encodes c (List.mem_append_left rest member) (solid c member)
      have bound := length_le_flatMap encodesWord
      rcases shape with rfl | ⟨n, rest, rfl, head⟩
      · have quoted : (if single = true then '\'' else '"') = quote single := rfl
        have notEmpty : (word.flatMap encode ++ quote single :: after).isEmpty = false := by simp
        rw [List.append_nil, quotedWords]
        simp only [Cursor.atIndicator_of_column inside, notEmpty, Bool.false_eq_true, ↓reduceIte]
        rw [quotedWord_append encodesWord closes (by simp only [List.length_append]; omega)]
        simp [quoted, Mark.advance_append]
      · have blanks : (spaces (n + 1)).flatMap encode = spaces (n + 1) := by
          rw [spaces, List.flatMap_replicate, space]
          simp
        have encodesRest : ∀ c ∈ rest, c ≠ ' ' → Encodes single encode c := fun c member =>
          encodes c (by simp [member])
        rw [List.flatMap_append, List.flatMap_append, blanks, List.append_assoc,
          List.append_assoc,
          quotedWords_append n encodesWord (solid_flatMap encodesRest head) inside,
          ih rest.length _ encodesRest _ _ rfl]
        · simp [Mark.advance_append]
        · rw [← length]
          simp
          omega
        · simp only [Mark.column_advance]
          omega
        · rw [List.length_append, List.length_append, length_spaces]
          omega

/-! ## Single quotes -/

/-- A character between single quotes. -/
def singleChar (c : Char) : List Char := if c = '\'' then ['\'', '\''] else [c]

theorem singleQuotedFrom_eq {pad cs : List Char} (unbroken : ∀ c ∈ cs, isBreak c = false) :
    singleQuotedFrom pad false cs = cs.flatMap singleChar := by
  induction cs with
  | nil => rfl
  | cons c cs ih =>
      simp [singleQuotedFrom, singleChar, unbroken c List.mem_cons_self,
        ih fun d member => unbroken d (List.mem_cons_of_mem c member)]

theorem encodes_singleChar {c : Char} (inline : IsInline c) (other : c ≠ ' ') :
    Encodes true singleChar c where
  solid := by
    by_cases isQuote : c = '\''
    · exact ⟨'\'', ['\''], by simp [singleChar, isQuote], rfl, rfl⟩
    · exact ⟨c, [], by simp [singleChar, isQuote], inline.isSpaceOrTab_eq_false other, inline.2⟩
  reads := by
    intro since fuel reversed rest mark
    by_cases isQuote : c = '\''
    · subst isQuote
      have noBlank : isSpaceOrTab '\'' = false := rfl
      have noBreak : isBreak '\'' = false := rfl
      have goesOn : (⟨'\'' :: '\'' :: rest, mark⟩ : Cursor).advance 2 =
          ⟨rest, mark.advance ['\'', '\'']⟩ := @Cursor.advance_append ['\'', '\''] rest mark 2 rfl
      simp [singleChar, quotedWord, noBlank, noBreak, goesOn]
    · simp [singleChar, quotedWord, isQuote, inline.isSpaceOrTab_eq_false other, inline.2]

theorem endsStretch_singleQuote {after : List Char} (apart : after.head? ≠ some '\'') :
    EndsStretch true ('\'' :: after) := by
  intro since fuel reversed mark
  have noBlank : isSpaceOrTab '\'' = false := rfl
  have noBreak : isBreak '\'' = false := rfl
  simp [quotedWord, noBlank, noBreak, apart]

/-- A text between single quotes is read back. -/
theorem quotedScalar_singleQuoted {pad cs after : List Char} (inline : ∀ c ∈ cs, IsInline c)
    (apart : after.head? ≠ some '\'') :
    quotedScalar true ⟨singleQuoted pad cs ++ after, mark⟩ =
      .ok (cs, ⟨after, mark.advance (singleQuoted pad cs)⟩) := by
  have written : singleQuoted pad cs = '\'' :: (cs.flatMap singleChar ++ ['\'']) := by
    rw [singleQuoted, singleQuotedFrom_eq fun c member => (inline c member).2]
    rfl
  have read := @quotedWords_flatMap true singleChar mark (mark.advance ['\'']) cs after []
    ((singleQuoted pad cs ++ after).length + 1)
    (fun c member => encodes_singleChar (inline c member)) rfl (endsStretch_singleQuote apart)
    (by simp) (by simp [written]; omega)
  rw [← Mark.advance_append] at read
  rw [quotedScalar]
  simp only [written, List.cons_append, List.append_assoc, List.nil_append,
    Cursor.advance_one] at read ⊢
  exact read

/-! ## Double quotes -/

theorem hexValue?_upper {n : Nat} (digit : n < 16) :
    Text.hexValue? (Text.hexDigit n).toUpper = some n := by
  revert n
  decide

/-- The value of hexadecimal digits behind others. -/
def hexValueFrom (value : Nat) (digits : List Char) : Nat :=
  digits.foldl (fun n c => 16 * n + (Text.hexValue? c).getD 0) value

/-- How many numbers can be written with so many hexadecimal digits. -/
def hexBound : (width : Nat) → Nat
  | 0 => 1
  | width + 1 => 16 * hexBound width

theorem hexValueFrom_upperHex (value width n : Nat) :
    hexValueFrom value (upperHex width n) = value * hexBound width + n % hexBound width := by
  induction width generalizing n with
  | zero => simp [upperHex, Text.hexFixed, hexValueFrom, hexBound, Nat.mod_one]
  | succ width ih =>
      have digit := hexValue?_upper (Nat.mod_lt n (by decide : 0 < 16))
      have front : hexValueFrom value (upperHex (width + 1) n) =
          16 * hexValueFrom value (upperHex width (n / 16)) + n % 16 := by
        simp [upperHex, Text.hexFixed, hexValueFrom, digit]
      rw [front, ih, hexBound, Nat.mod_mul, Nat.mul_left_comm value]
      omega

theorem hexValue?_of_mem_upperHex {width n : Nat} {c : Char} (member : c ∈ upperHex width n) :
    ∃ value, Text.hexValue? c = some value := by
  induction width generalizing n with
  | zero => cases member
  | succ width ih =>
      rw [upperHex, Text.hexFixed, List.map_append, List.mem_append] at member
      rcases member with earlier | last
      · exact ih earlier
      · rw [List.map_singleton, List.mem_singleton] at last
        exact ⟨n % 16, last ▸ hexValue?_upper (Nat.mod_lt n (by decide))⟩

theorem escapeValue_eq {digits more : List Char} {done value : Nat} {cursor : Cursor}
    (hexadecimal : ∀ c ∈ digits, ∃ value, Text.hexValue? c = some value)
    (written : cursor.rest.drop done = digits ++ more) :
    escapeValue cursor digits.length done value = .ok (hexValueFrom value digits) := by
  induction digits generalizing done value with
  | nil => rfl
  | cons c digits ih =>
      obtain ⟨digit, known⟩ := hexadecimal c List.mem_cons_self
      have later : cursor.rest.drop (done + 1) = digits ++ more := by
        rw [← List.drop_drop, written]
        rfl
      rw [List.length_cons, escapeValue, written]
      simp only [List.cons_append, List.head?_cons, Option.bind_some, known]
      rw [ih (fun d member => hexadecimal d (List.mem_cons_of_mem c member)) later]
      simp [hexValueFrom, known]

/-- An escape with hexadecimal digits is read back. -/
theorem escape_hexadecimal {c letter : Char} {width : Nat} {rest : List Char}
    (noImage : escapedChar? letter = none) (digits : escapeDigits? letter = some width)
    (fits : c.toNat < hexBound width) :
    escape since ⟨'\\' :: letter :: (upperHex width c.toNat ++ rest), mark⟩ =
      .ok (c, ⟨rest, mark.advance ('\\' :: letter :: upperHex width c.toNat)⟩) := by
  have length : (upperHex width c.toNat).length = width := by
    rw [upperHex, List.length_map, Text.length_hexFixed]
  have value (place : Mark) :
      escapeValue ⟨upperHex width c.toNat ++ rest, place⟩ width 0 0 = .ok c.toNat := by
    have read := @escapeValue_eq (upperHex width c.toNat) rest 0 0
      ⟨upperHex width c.toNat ++ rest, place⟩ (fun d => hexValue?_of_mem_upperHex) rfl
    rwa [length, hexValueFrom_upperHex, Nat.zero_mul, Nat.zero_add, Nat.mod_eq_of_lt fits] at read
  have front : (⟨'\\' :: letter :: (upperHex width c.toNat ++ rest), mark⟩ : Cursor).advance 2 =
      ⟨upperHex width c.toNat ++ rest, mark.advance ['\\', letter]⟩ :=
    @Cursor.advance_append ['\\', letter] _ mark 2 rfl
  have valid : ¬((0xD800 ≤ c.toNat && c.toNat ≤ 0xDFFF) || 0x10FFFF < c.toNat) = true := by
    have scalar := c.valid
    simp only [UInt32.isValidChar, Nat.isValidChar] at scalar
    simp only [Bool.or_eq_true, Bool.and_eq_true, decide_eq_true_eq]
    have same : c.toNat = c.val.toNat := rfl
    omega
  rw [escape]
  simp only [List.drop_succ_cons, List.drop_zero, List.head?_cons, noImage, digits, front, value,
    valid, Bool.false_eq_true, ↓reduceIte, Char.ofNat_toNat,
    Cursor.advance_append length, ← Mark.advance_append]
  rfl

/-- Is the escape of a character given by a letter? -/
def LetterEscape (c letter : Char) : Prop :=
  escapeChar c = ['\\', letter] ∧ escapedChar? letter = some c

/-- Is the escape of a character given by its number? -/
def NumberEscape (c letter : Char) (width : Nat) : Prop :=
  escapeChar c = '\\' :: letter :: upperHex width c.toNat ∧ escapedChar? letter = none ∧
    escapeDigits? letter = some width ∧ c.toNat < hexBound width ∧ width ≤ 2 * c.utf8Size

theorem utf8Size_eq (c : Char) :
    c.utf8Size = if c.toNat ≤ 127 then 1 else if c.toNat ≤ 2047 then 2
      else if c.toNat ≤ 65535 then 3 else 4 := by
  have le_iff (bound : UInt32) : c.val ≤ bound ↔ c.toNat ≤ bound.toNat := UInt32.le_iff_toNat_le
  simp [Char.utf8Size, le_iff]

/-- The characters whose escapes are letters, apart from the quote and the backslash. -/
def letterEscaped : List Nat :=
  [0x00, 0x07, 0x08, 0x09, 0x0A, 0x0B, 0x0C, 0x0D, 0x1B, 0x85, 0x2028, 0x2029]

/-- How a character is written between double quotes. -/
theorem escapeChar_cases (c : Char) :
    (escapeChar c = [c] ∧ IsInline c ∧ c ≠ '"' ∧ c ≠ '\\') ∨
      (∃ letter, LetterEscape c letter) ∨ ∃ letter width, NumberEscape c letter width := by
  by_cases quoted : c = '"' ∨ c = '\\'
  · rcases quoted with rfl | rfl
    · exact .inr (.inl ⟨'"', rfl, rfl⟩)
    · exact .inr (.inl ⟨'\\', rfl, rfl⟩)
  by_cases raw : (isPrintable c && !isBreak c) = true
  · rw [not_or] at quoted
    refine .inl ⟨by simp [escapeChar, quoted, raw], ?_, quoted⟩
    simpa [IsInline] using raw
  refine .inr ?_
  by_cases letter : c.toNat ∈ letterEscaped
  · left
    have known : ∀ n ∈ letterEscaped, ∃ letter, LetterEscape (Char.ofNat n) letter := by
      simp only [letterEscaped, List.forall_mem_cons]
      exact ⟨⟨'0', rfl, rfl⟩, ⟨'a', rfl, rfl⟩, ⟨'b', rfl, rfl⟩, ⟨'t', rfl, rfl⟩, ⟨'n', rfl, rfl⟩,
        ⟨'v', rfl, rfl⟩, ⟨'f', rfl, rfl⟩, ⟨'r', rfl, rfl⟩, ⟨'e', rfl, rfl⟩, ⟨'N', rfl, rfl⟩,
        ⟨'L', rfl, rfl⟩, ⟨'P', rfl, rfl⟩, List.forall_mem_nil _⟩
    obtain ⟨image, escapes⟩ := known c.toNat letter
    rw [Char.ofNat_toNat] at escapes
    exact ⟨image, escapes⟩
  · right
    simp only [letterEscaped, List.mem_cons, List.not_mem_nil, or_false, not_or] at letter
    have largest : c.toNat < 0x100000000 := by
      have scalar := c.valid
      simp only [UInt32.isValidChar, Nat.isValidChar] at scalar
      have same : c.toNat = c.val.toNat := rfl
      omega
    by_cases byte : c.toNat < 0x100
    · have size := c.utf8Size_pos
      exact ⟨'x', 2, by simp [escapeChar, quoted, raw, letter, byte], rfl, rfl, byte, by omega⟩
    by_cases word : c.toNat < 0x10000
    · have size : 2 ≤ c.utf8Size := by grind [utf8Size_eq c]
      exact ⟨'u', 4, by simp [escapeChar, quoted, raw, letter, byte, word], rfl, rfl, word,
        by omega⟩
    · have size : 4 ≤ c.utf8Size := by grind [utf8Size_eq c]
      exact ⟨'U', 8, by simp [escapeChar, quoted, raw, letter, byte, word], rfl, rfl, largest,
        by omega⟩

/-- A letter behind a backslash does not join lines. -/
theorem quotedWord_escape {c letter : Char} {reversed rest rest' : List Char} {fuel : Nat}
    {place : Mark} (noBreak : isBreak letter = false)
    (reads : escape since ⟨'\\' :: letter :: rest, mark⟩ = .ok (c, ⟨rest', place⟩)) :
    quotedWord false since (fuel + 1) reversed ⟨'\\' :: letter :: rest, mark⟩ =
      quotedWord false since fuel (c :: reversed) ⟨rest', place⟩ := by
  have noBlank : isSpaceOrTab '\\' = false := rfl
  have isMark : isBreak '\\' = false := rfl
  simp [quotedWord, noBlank, isMark, noBreak, reads]

theorem encodes_escapeChar {c : Char} (other : c ≠ ' ') : Encodes false escapeChar c := by
  rcases escapeChar_cases c with ⟨raw, inline, noQuote, noBackslash⟩ | ⟨letter, escaped, image⟩ |
    ⟨letter, width, escaped, noImage, digits, fits, -⟩
  · have noBlank := inline.isSpaceOrTab_eq_false other
    refine ⟨⟨c, [], raw, noBlank, inline.2⟩, fun since fuel reversed rest mark => ?_⟩
    simp [raw, quotedWord, noBlank, inline.2, noQuote, noBackslash]
  · have noBreak : isBreak letter = false := by
      cases isEnd : isBreak letter with
      | false => rfl
      | true =>
          simp only [isBreak, Bool.or_eq_true, beq_iff_eq] at isEnd
          rcases isEnd with (((rfl | rfl) | rfl) | rfl) | rfl <;> cases image
    refine ⟨⟨'\\', [letter], escaped, rfl, rfl⟩, fun since fuel reversed rest mark => ?_⟩
    rw [escaped]
    refine quotedWord_escape noBreak ?_
    have front : (⟨'\\' :: letter :: rest, mark⟩ : Cursor).advance 2 =
        ⟨rest, mark.advance ['\\', letter]⟩ := @Cursor.advance_append ['\\', letter] rest mark 2 rfl
    simp [escape, image, front]
  · have noBreak : isBreak letter = false := by
      cases isEnd : isBreak letter with
      | false => rfl
      | true =>
          simp only [isBreak, Bool.or_eq_true, beq_iff_eq] at isEnd
          rcases isEnd with (((rfl | rfl) | rfl) | rfl) | rfl <;> cases digits
    refine ⟨⟨'\\', letter :: upperHex width c.toNat, escaped, rfl, rfl⟩,
      fun since fuel reversed rest mark => ?_⟩
    rw [escaped]
    exact quotedWord_escape noBreak (escape_hexadecimal noImage digits fits)

/-- What stands between double quotes is read back. -/
theorem quotedScalar_flatMap {encode : Char → List Char} {cs after : List Char}
    (encodes : ∀ c ∈ cs, c ≠ ' ' → Encodes false encode c) (space : encode ' ' = [' ']) :
    quotedScalar false ⟨['"'] ++ cs.flatMap encode ++ ['"'] ++ after, mark⟩ =
      .ok (cs, ⟨after, mark.advance (['"'] ++ cs.flatMap encode ++ ['"'])⟩) := by
  have closes : EndsStretch false ('"' :: after) := by
    intro since fuel reversed mark
    have noBlank : isSpaceOrTab '"' = false := rfl
    have noBreak : isBreak '"' = false := rfl
    simp [quotedWord, noBlank, noBreak]
  have read := @quotedWords_flatMap false encode mark (mark.advance ['"']) cs after []
    ((['"'] ++ cs.flatMap encode ++ ['"'] ++ after).length + 1) encodes space closes (by simp)
    (by simp only [List.length_append]; omega)
  rw [← Mark.advance_append] at read
  rw [quotedScalar]
  simp only [List.cons_append, List.append_assoc, List.nil_append, Cursor.advance_one] at read ⊢
  exact read

/-- A text between double quotes is read back. -/
theorem quotedScalar_doubleQuoted {cs after : List Char} :
    quotedScalar false ⟨doubleQuoted cs ++ after, mark⟩ =
      .ok (cs, ⟨after, mark.advance (doubleQuoted cs)⟩) :=
  quotedScalar_flatMap (fun _ _ => encodes_escapeChar) rfl

end Token

end FleetCompose.Yaml
