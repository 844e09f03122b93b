import FleetCompose.Proofs.ScannedScalars
import Mathlib.Data.List.Basic

/-!
# Scanning literal blocks

A text of several lines is written as a literal block: every line that is not empty is indented,
and the header says what becomes of the line ends behind the last one. The block is scanned as the
text, unless it keeps these line ends and empty lines follow that do not belong to it.
-/

namespace FleetCompose.Yaml

open Value (spaces)

/-! ## Lines of a block -/

/-- Lines, each with its line end. Some are empty. -/
inductive BlockText : List Char → Prop where
  | empty (n : Nat) : BlockText (List.replicate n '\n')
  | line (n : Nat) {line cs : List Char} : line ≠ [] → (∀ c ∈ line, isBreak c = false) →
      BlockText cs → BlockText (List.replicate n '\n' ++ (line ++ '\n' :: cs))

theorem BlockText.cons_lineFeed {cs : List Char} (lines : BlockText cs) :
    BlockText ('\n' :: cs) := by
  cases lines with
  | empty n => exact .empty (n + 1)
  | line n nonempty unbroken rest => exact .line (n + 1) nonempty unbroken rest

theorem BlockText.cons {c : Char} {cs : List Char} (lines : BlockText cs) (nonempty : cs ≠ [])
    (unbroken : isBreak c = false) : BlockText (c :: cs) := by
  have single : ∀ d ∈ [c], isBreak d = false := by simpa using unbroken
  cases lines with
  | empty n =>
      cases n with
      | zero => exact absurd rfl nonempty
      | succ n => exact .line 0 (List.cons_ne_nil c []) single (.empty n)
  | @line n line cs lineNonempty lineUnbroken rest =>
      cases n with
      | zero =>
          have longer : ∀ d ∈ c :: line, isBreak d = false := by
            simpa using ⟨unbroken, lineUnbroken⟩
          exact .line 0 (List.cons_ne_nil c line) longer rest
      | succ n =>
          exact .line 0 (List.cons_ne_nil c []) single (.line n lineNonempty lineUnbroken rest)

/-- A text whose line ends are line feeds consists of lines, if it ends with one. -/
theorem blockText_append {cs : List Char} (feeds : ∀ c ∈ cs, isBreak c = true → c = '\n') :
    BlockText (cs ++ ['\n']) := by
  induction cs with
  | nil => exact .empty 1
  | cons c cs ih =>
      have rest := ih fun d member => feeds d (List.mem_cons_of_mem c member)
      cases isEnd : isBreak c with
      | true =>
          rw [feeds c List.mem_cons_self isEnd]
          exact rest.cons_lineFeed
      | false => exact rest.cons (by simp) isEnd

theorem literalLines_replicate {pad cs : List Char} (n : Nat) :
    literalLines pad true (List.replicate n '\n' ++ cs) =
      List.replicate n '\n' ++ literalLines pad true cs := by
  have isEnd : isBreak '\n' = true := rfl
  induction n with
  | zero => rfl
  | succ n ih => simp [List.replicate_succ, literalLines, isEnd, ih]

theorem literalLines_append {pad line cs : List Char} (unbroken : ∀ c ∈ line, isBreak c = false) :
    literalLines pad false (line ++ '\n' :: cs) = line ++ '\n' :: literalLines pad true cs := by
  have isEnd : isBreak '\n' = true := rfl
  induction line with
  | nil => simp [literalLines, isEnd]
  | cons c line ih =>
      simp [literalLines, unbroken c List.mem_cons_self,
        ih fun d member => unbroken d (List.mem_cons_of_mem c member)]

theorem literalLines_line {pad line cs : List Char} (nonempty : line ≠ [])
    (unbroken : ∀ c ∈ line, isBreak c = false) :
    literalLines pad true (line ++ '\n' :: cs) =
      pad ++ (line ++ '\n' :: literalLines pad true cs) := by
  cases line with
  | nil => exact absurd rfl nonempty
  | cons c line =>
      have rest := @literalLines_append pad line cs fun d member =>
        unbroken d (List.mem_cons_of_mem c member)
      simp [literalLines, unbroken c List.mem_cons_self, rest]

namespace Token

variable {width : Nat} {since mark : Mark} {rest : List Char}

/-! ## Empty lines -/

theorem takeWhile_spaces {n : Nat} (stops : rest.head? ≠ some ' ') :
    (spaces n ++ rest).takeWhile (· == ' ') = spaces n := by
  induction n with
  | zero =>
      cases rest with
      | nil => rfl
      | cons c rest =>
          have other : c ≠ ' ' := fun same => stops (same ▸ rfl)
          simp [other]
  | succ n ih => simp [spaces_succ, ih]

/-- Where the empty lines in a block end: at a line of the block, or at one that is indented
less. -/
structure EndsBreaks (width column : Nat) (rest : List Char) : Prop where
  unbroken : ∀ c ∈ rest.head?, isBreak c = false
  ends : column = width ∨ column < width ∧ Solid rest

theorem EndsBreaks.takeWhile_eq {column : Nat} (ends : EndsBreaks width column rest) :
    ((spaces column ++ rest).take width).takeWhile (· == ' ') = spaces column := by
  rcases ends.ends with rfl | ⟨less, solid⟩
  · have pad := @takeWhile_spaces [] column (by simp)
    rw [List.append_nil] at pad
    rw [List.take_left' (length_spaces column), pad]
  · have stops : (rest.take (width - column)).head? ≠ some ' ' := by
      intro head
      obtain ⟨more, taken⟩ := List.head?_eq_some_iff.mp head
      have first : rest.head? = some ' ' := by
        cases rest with
        | nil => simp at taken
        | cons c rest =>
            rw [List.take_cons (by omega)] at taken
            rw [List.head?_cons, (List.cons.inj taken).1]
      exact absurd (solid ' ' first).1 (by decide)
    rw [List.take_append, length_spaces, List.take_of_length_le (by simp; omega),
      takeWhile_spaces stops]

theorem EndsBreaks.no_tab {column : Nat} (ends : EndsBreaks width column rest)
    (less : column < width) : rest.head? ≠ some '\t' := by
  intro tab
  rcases ends.ends with rfl | ⟨-, solid⟩
  · exact absurd less (Nat.lt_irrefl _)
  · exact absurd (solid '\t' tab).1 (by decide)

/-- Empty lines are collected, and the indentation behind them is gone over. -/
theorem exists_blockBreaks {n column fuel widest : Nat} {text : List Char} {last : Mark}
    (ends : EndsBreaks width column rest) (start : mark.column = 0) (enough : n < fuel) :
    ∃ widest' last', blockBreaks (some width) since fuel
        ⟨text, widest, last, ⟨List.replicate n '\n' ++ (spaces column ++ rest), mark⟩⟩ =
      .ok ⟨text ++ List.replicate n '\n', widest', last',
        ⟨rest, ⟨mark.index + n + column, mark.line + n, column⟩⟩⟩ := by
  obtain ⟨more, rfl⟩ := Nat.exists_eq_add_of_lt enough
  induction n generalizing text widest last mark with
  | zero =>
      have tabFree : ¬(column < width ∧ rest.head? = some '\t') :=
        not_and.mpr fun less => ends.no_tab less
      have atBreak (place : Mark) : (⟨rest, place⟩ : Cursor).atBreak = false := by
        cases rest with
        | nil => rfl
        | cons c rest => exact ends.unbroken c rfl
      refine ⟨max widest column, last, ?_⟩
      simp only [Nat.zero_add, List.replicate_zero, List.nil_append, List.append_nil]
      rw [blockBreaks]
      simp only [Option.map_some, Option.getD_some, Nat.sub_zero, ends.takeWhile_eq, length_spaces,
        Cursor.advance_append (length_spaces column), Mark.advance_spaces, start, Nat.zero_add,
        Cursor.next?_mk, Bool.and_eq_true, decide_eq_true_eq, tabFree, ↓reduceIte, atBreak,
        Bool.false_eq_true, Nat.add_zero]
  | succ n ih =>
      have room : ((List.replicate (n + 1) '\n' ++ (spaces column ++ rest)).take
          (width - mark.column)).takeWhile (· == ' ') = [] := by
        cases width - mark.column <;> simp [List.replicate_succ]
      have size : Char.utf8Size '\n' = 1 := rfl
      have atBreak : (⟨List.replicate (n + 1) '\n' ++ (spaces column ++ rest), mark⟩ :
          Cursor).atBreak = true := rfl
      have stays : (⟨List.replicate (n + 1) '\n' ++ (spaces column ++ rest), mark⟩ :
          Cursor).advance 0 = ⟨List.replicate (n + 1) '\n' ++ (spaces column ++ rest), mark⟩ := rfl
      have noTab : (List.replicate (n + 1) '\n' ++ (spaces column ++ rest)).head? ≠ some '\t' := by
        simp [List.replicate_succ]
      have next : (⟨List.replicate (n + 1) '\n' ++ (spaces column ++ rest), mark⟩ :
          Cursor).lineEnd = (['\n'], ⟨List.replicate n '\n' ++ (spaces column ++ rest),
            mark.nextLine 1⟩) := rfl
      obtain ⟨widest', last', reads⟩ := @ih (mark.nextLine 1) (max widest mark.column)
        (text ++ ['\n']) (mark.nextLine 1) rfl (by omega)
      refine ⟨widest', last', ?_⟩
      have fuels : n + 1 + more + 1 = n + more + 1 + 1 := by omega
      rw [fuels, blockBreaks]
      simp only [Option.map_some, Option.getD_some, room, List.length_nil, stays, Cursor.next?_mk,
        noTab, decide_false, Bool.and_false, Bool.false_eq_true, ↓reduceIte, atBreak, next]
      rw [reads, List.append_assoc]
      simp [Mark.nextLine, List.replicate_succ, Nat.add_assoc, Nat.add_comm 1]

/-! ## The lines of a block -/

theorem length_le_literalLines (pad cs : List Char) (lineStart : Bool) :
    cs.length ≤ (literalLines pad lineStart cs).length := by
  induction cs generalizing lineStart with
  | nil => simp
  | cons c cs ih =>
      rw [literalLines]
      split
      · simpa using ih true
      · have rest := ih false
        simp only [List.length_append, List.length_cons]
        omega

/-- What the scanner knows behind the lines of a block: `text` and `lineEnd` are what it had read
before them. -/
structure BlockRead (final : BlockLines) (text lineEnd cs : List Char) (emptyLines column : Nat)
    (rest : List Char) (line : Nat) : Prop where
  breaks_eq : ∃ n, final.breaks.text = List.replicate (n + emptyLines) '\n' ∧
    final.text ++ final.lineEnd ++ List.replicate n '\n' = text ++ lineEnd ++ cs
  last : (final.text = text ∧ final.lineEnd = lineEnd) ∨
    (final.lineEnd = ['\n'] ∧ ∃ front c, final.text = front ++ [c] ∧ isBreak c = false)
  rest_eq : final.breaks.cursor.rest = rest
  column_eq : final.breaks.cursor.mark.column = column
  line_le : line ≤ final.breaks.cursor.mark.line

variable {behind : List Char} {emptyLines column : Nat}

/-- What is known behind a line of the block is known of the lines from it on. -/
theorem BlockRead.cons {final : BlockLines} {text lineEnd line cs : List Char} {n : Nat}
    (nonempty : line ≠ []) (unbroken : ∀ c ∈ line, isBreak c = false) {number : Nat}
    (read : BlockRead final (text ++ (lineEnd ++ List.replicate n '\n') ++ line) ['\n'] cs
      emptyLines column rest number) :
    BlockRead final text lineEnd (List.replicate n '\n' ++ (line ++ '\n' :: cs)) emptyLines column
      rest number where
  breaks_eq := by
    obtain ⟨j, breaks, whole⟩ := read.breaks_eq
    exact ⟨j, breaks, by simp [whole]⟩
  last := by
    rcases read.last with ⟨textEq, lineEndEq⟩ | later
    · obtain ⟨front, c, rfl⟩ := (List.eq_nil_or_concat' line).resolve_left nonempty
      refine .inr ⟨lineEndEq, text ++ (lineEnd ++ List.replicate n '\n') ++ front, c, ?_,
        unbroken c (by simp)⟩
      simp [textEq]
    · exact .inr later
  rest_eq := read.rest_eq
  column_eq := read.column_eq
  line_le := read.line_le

theorem BlockRead.of_le {final : BlockLines} {text lineEnd cs : List Char} {number earlier : Nat}
    (read : BlockRead final text lineEnd cs emptyLines column rest number)
    (le : earlier ≤ number) : BlockRead final text lineEnd cs emptyLines column rest earlier :=
  { read with line_le := Nat.le_trans le read.line_le }

/-- One round of the scanner over a line of the block. -/
theorem blockLines_append {line more text lineEnd breaks : List Char} {blank : Bool}
    {widest fuel : Nat} {last : Mark} {found : BlockBreaks}
    (unbroken : ∀ c ∈ line, isBreak c = false) (start : mark.column = width)
    (follows : blockBreaks (some width) since (more.length + 1)
      ⟨[], 0, (mark.advance line).nextLine 1, ⟨more, (mark.advance line).nextLine 1⟩⟩ =
        .ok found) :
    blockLines true width since (fuel + 1)
        ⟨text, lineEnd, blank, ⟨breaks, widest, last, ⟨line ++ '\n' :: more, mark⟩⟩⟩ =
      blockLines true width since fuel ⟨text ++ (lineEnd ++ breaks) ++ line, ['\n'],
        (⟨line ++ '\n' :: more, mark⟩ : Cursor).atBlank, found⟩ := by
  have spans : (⟨line ++ '\n' :: more, mark⟩ : Cursor).span (fun c => !isBreak c) =
      (line, ⟨'\n' :: more, mark.advance line⟩) := by
    have every : ∀ c ∈ line, (!isBreak c) = true := fun c member => by
      rw [unbroken c member]
      rfl
    have isEnd : isBreak '\n' = true := rfl
    simp [Cursor.span, List.takeWhile_append_of_pos every, List.dropWhile_append_of_pos every,
      isEnd]
  have next : (⟨'\n' :: more, mark.advance line⟩ : Cursor).lineEnd =
      (['\n'], ⟨more, (mark.advance line).nextLine 1⟩) := rfl
  have onLine : (mark.column != width || (line ++ '\n' :: more).isEmpty) = false := by
    simp [start]
  rw [blockLines]
  simp only [onLine, Bool.false_eq_true, ↓reduceIte, spans, next, follows, Bool.not_true,
    Bool.false_and]

/-- The block ends in front of a line that is indented less. -/
theorem blockLines_of_less {lines : BlockLines} {fuel : Nat}
    (less : lines.breaks.cursor.mark.column < width) :
    blockLines true width since (fuel + 1) lines = .ok lines := by
  have off : (lines.breaks.cursor.mark.column != width) = true := by
    rw [bne_iff_ne]
    omega
  rw [blockLines]
  simp only [off, Bool.true_or, ↓reduceIte]

/-- The lines of a block are read one after the other, up to a line that is indented less. -/
theorem exists_blockLines {cs text lineEnd : List Char} {blank : Bool} {widest fuel room : Nat}
    {last : Mark} (lines : BlockText cs) (next : NextLine behind emptyLines column rest)
    (less : column < width) (start : mark.column = 0) (enough : cs.length < fuel)
    (enoughRoom : cs.length + emptyLines < room) :
    ∃ breaks final, blockBreaks (some width) since room
        ⟨[], widest, last, ⟨literalLines (spaces width) true cs ++ behind, mark⟩⟩ = .ok breaks ∧
      blockLines true width since fuel ⟨text, lineEnd, blank, breaks⟩ = .ok final ∧
      BlockRead final text lineEnd cs emptyLines column rest mark.line := by
  induction lines generalizing text lineEnd blank widest fuel room last mark with
  | empty n =>
      obtain ⟨more, rfl⟩ := Nat.exists_eq_add_of_lt enough
      have written : literalLines (spaces width) true (List.replicate n '\n') ++ behind =
          List.replicate (n + emptyLines) '\n' ++ (spaces column ++ rest) := by
        have lines := @literalLines_replicate (spaces width) [] n
        rw [List.append_nil] at lines
        rw [lines, next.eq, literalLines, List.append_nil, ← List.append_assoc,
          List.replicate_append_replicate]
      have ends : EndsBreaks width column rest :=
        ⟨fun c head => (next.solid c head).2, .inr ⟨less, next.solid⟩⟩
      obtain ⟨widest', last', reads⟩ := @exists_blockBreaks width since mark rest
        (n + emptyLines) column room widest [] last ends start (by simpa using enoughRoom)
      rw [written]
      exact ⟨_, _, reads, blockLines_of_less less, ⟨n, rfl, rfl⟩, .inl ⟨rfl, rfl⟩, rfl, rfl,
        Nat.le_add_right _ _⟩
  | @line n line cs nonempty unbroken lines ih =>
      obtain ⟨more, rfl⟩ := Nat.exists_eq_add_of_lt enough
      have ends : EndsBreaks width width
          (line ++ '\n' :: (literalLines (spaces width) true cs ++ behind)) := by
        refine ⟨fun c head => ?_, .inl rfl⟩
        cases line with
        | nil => exact absurd rfl nonempty
        | cons d line =>
            cases head
            exact unbroken c List.mem_cons_self
      have written : literalLines (spaces width) true
          (List.replicate n '\n' ++ (line ++ '\n' :: cs)) ++ behind =
            List.replicate n '\n' ++ (spaces width ++
              (line ++ '\n' :: (literalLines (spaces width) true cs ++ behind))) := by
        rw [literalLines_replicate, literalLines_line nonempty unbroken]
        simp
      obtain ⟨widest', last', reads⟩ := @exists_blockBreaks width since mark _ n width room widest
        [] last ends start (by simp at enoughRoom; omega)
      generalize placed : (⟨mark.index + n + width, mark.line + n, width⟩ : Mark) = place at reads
      have rest := length_le_literalLines (spaces width) cs true
      obtain ⟨found, final, follows, goesOn, read⟩ := @ih ((place.advance line).nextLine 1)
        (text ++ (lineEnd ++ List.replicate n '\n') ++ line) ['\n']
        (⟨line ++ '\n' :: (literalLines (spaces width) true cs ++ behind), place⟩ : Cursor).atBlank
        0 (n + line.length + 1 + cs.length + more)
        ((literalLines (spaces width) true cs ++ behind).length + 1)
        ((place.advance line).nextLine 1) rfl (by omega) (by simp [next.eq]; omega)
      refine ⟨_, final, written ▸ reads, ?_, (read.cons nonempty unbroken).of_le ?_⟩
      · have fuels : (List.replicate n '\n' ++ (line ++ '\n' :: cs)).length + more + 1 =
            n + line.length + 1 + cs.length + more + 1 := by
          simp
          omega
        have onLine : place.column = width := by rw [← placed]
        rw [fuels, List.nil_append, blockLines_append unbroken onLine follows, goesOn]
      · simp only [← placed, Mark.nextLine, Mark.line_advance]
        omega

/-! ## Headers -/

/-- The written form of a chomping indicator. -/
def Chomping.chars : Chomping → List Char
  | .strip => ['-']
  | .clip => []
  | .keep => ['+']

/-- The written form of an indentation of two, if it is written. -/
def hintChars (hint : Bool) : List Char := if hint then ['2'] else []

theorem exists_blockHeader (hint : Bool) (chomping : Chomping) (body : List Char) :
    ∃ place, blockHeader since ⟨hintChars hint ++ chomping.chars ++ '\n' :: body, mark⟩ =
        .ok ⟨chomping, if hint then some 2 else none, ⟨body, place⟩⟩ ∧
      place.column = 0 ∧ place.line = mark.line + 1 := by
  cases hint <;> cases chomping <;> exact ⟨_, rfl, rfl, rfl⟩

theorem indentationIndicator_eq (cs : List Char) :
    indentationIndicator cs =
      hintChars ((cs.head?.map fun c => c == ' ' || isBreak c).getD false) := rfl

theorem Chomping.chars_injective {one other : Chomping} (same : one.chars = other.chars) :
    one = other := by
  cases one <;> cases other <;> first | rfl | cases same

theorem exists_chomping (cs : List Char) :
    ∃ chomping : Chomping, chompingIndicator cs = chomping.chars := by
  unfold chompingIndicator
  split
  next => exact ⟨.strip, rfl⟩
  next => split; exacts [⟨.keep, rfl⟩, ⟨.strip, rfl⟩]
  next => split; exacts [⟨.strip, rfl⟩, by split; exacts [⟨.keep, rfl⟩, ⟨.clip, rfl⟩]]

/-- What a block stands for, given the line ends behind its last line. -/
def Chomping.chomp (chomping : Chomping) (lines : BlockLines) : List Char :=
  lines.text ++
    match chomping with
    | .strip => []
    | .clip => lines.lineEnd
    | .keep => lines.lineEnd ++ lines.breaks.text

theorem chompingIndicator_eq {front : List Char} {c : Char} (solid : isBreak c = false) (n : Nat) :
    chompingIndicator (front ++ [c] ++ List.replicate n '\n') =
      (match n with | 0 => Chomping.strip | 1 => .clip | _ => .keep).chars := by
  have isEnd : isBreak '\n' = true := rfl
  cases n with
  | zero =>
      cases reversed : front.reverse <;>
        simp [chompingIndicator, reversed, solid, Chomping.chars]
  | succ n =>
      cases n with
      | zero => simp [chompingIndicator, solid, isEnd, Chomping.chars]
      | succ n => simp [chompingIndicator, List.replicate_succ', isEnd, Chomping.chars]

theorem chompingIndicator_replicate (n : Nat) :
    chompingIndicator (List.replicate (n + 1) '\n') = Chomping.keep.chars := by
  have isEnd : isBreak '\n' = true := rfl
  cases n with
  | zero => rfl
  | succ n => simp [chompingIndicator, List.replicate_succ', isEnd, Chomping.chars]

/-- The line end that is written behind a text that has none. -/
def closingLineEnd (cs : List Char) : List Char :=
  if (cs.getLast?.map isBreak).getD false then [] else ['\n']

theorem closingLineEnd_replicate (n : Nat) :
    closingLineEnd (List.replicate (n + 1) '\n') = [] := by
  rw [closingLineEnd, if_pos]
  rw [List.replicate_succ', List.getLast?_concat]
  rfl

/-- The line ends behind the last line of a written text are its own, unless there is a single one
and the text has none. -/
theorem eq_of_append_closingLineEnd {cs front : List Char} {c : Char} {n : Nat}
    (written : front ++ [c] ++ ['\n'] ++ List.replicate n '\n' = cs ++ closingLineEnd cs) :
    cs = front ++ [c] ++ List.replicate (n + 1) '\n' ∨ n = 0 ∧ cs = front ++ [c] := by
  have feeds : ['\n'] ++ List.replicate n '\n' = List.replicate n '\n' ++ ['\n'] := by
    rw [← List.replicate_succ', List.replicate_succ]
    rfl
  rw [List.append_assoc, feeds] at written
  by_cases ended : (cs.getLast?.map isBreak).getD false = true
  · rw [closingLineEnd, if_pos ended, List.append_nil, ← List.replicate_succ'] at written
    exact .inl written.symm
  · rw [closingLineEnd, if_neg ended, ← List.append_assoc] at written
    have same := List.append_cancel_right written
    cases n with
    | zero => exact .inr ⟨rfl, by rw [← same, List.replicate_zero, List.append_nil]⟩
    | succ n =>
        refine absurd ?_ ended
        rw [← same, List.replicate_succ', ← List.append_assoc, List.getLast?_concat]
        rfl

/-- The chomping indicator gives the text back, if the line ends that are kept are its own. -/
theorem exists_chomp_eq {cs : List Char} {final : BlockLines} {line : Nat} (multiline : '\n' ∈ cs)
    (read : BlockRead final [] [] (cs ++ closingLineEnd cs) emptyLines column rest line)
    (keeps : chompingIndicator cs = ['+'] → emptyLines = 0) :
    ∃ chomping, chompingIndicator cs = Chomping.chars chomping ∧ chomping.chomp final = cs := by
  obtain ⟨n, breaks, whole⟩ := read.breaks_eq
  simp only [List.nil_append] at whole
  rcases read.last with ⟨noText, noLineEnd⟩ | ⟨lineEnd, front, c, text, solid⟩
  · -- There are only line feeds.
    rw [noText, noLineEnd, List.nil_append, List.nil_append] at whole
    obtain ⟨-, feeds, -⟩ := List.append_eq_replicate_iff.mp whole.symm
    obtain ⟨m, length⟩ : ∃ m, cs.length = m + 1 :=
      Nat.exists_eq_add_one.mpr (List.length_pos_of_mem multiline)
    rw [length] at feeds
    have keep : chompingIndicator cs = Chomping.keep.chars := by
      rw [feeds, chompingIndicator_replicate]
    rw [feeds, closingLineEnd_replicate, ← feeds, List.append_nil] at whole
    refine ⟨.keep, keep, ?_⟩
    rw [Chomping.chomp, noText, noLineEnd, breaks, keeps keep, Nat.add_zero, whole]
    rfl
  · rw [text, lineEnd] at whole
    have indicator := @chompingIndicator_eq front c solid
    rcases eq_of_append_closingLineEnd whole with rfl | ⟨rfl, rfl⟩
    · cases n with
      | zero => exact ⟨.clip, indicator 1, by rw [Chomping.chomp, text, lineEnd]; rfl⟩
      | succ n =>
          refine ⟨.keep, indicator (n + 2), ?_⟩
          rw [Chomping.chomp, text, lineEnd, breaks, keeps (indicator (n + 2)), Nat.add_zero]
          rfl
    · have strip := indicator 0
      rw [List.replicate_zero, List.append_nil] at strip
      exact ⟨.strip, strip, by rw [Chomping.chomp, text, List.append_nil]⟩

/-! ## Blocks -/

theorem literalLines_concat {pad cs : List Char} (lineStart : Bool) :
    literalLines pad lineStart (cs ++ ['\n']) = literalLines pad lineStart cs ++ ['\n'] := by
  have isEnd : isBreak '\n' = true := rfl
  induction cs generalizing lineStart with
  | nil => simp [literalLines, isEnd]
  | cons c cs ih =>
      rw [List.cons_append, literalLines, literalLines]
      split
      · rw [ih, List.cons_append]
      · rw [ih, List.append_assoc, List.cons_append]

theorem literalBlock_eq (pad cs : List Char) :
    literalBlock pad cs = '|' :: (indentationIndicator cs ++ chompingIndicator cs ++
      '\n' :: literalLines pad true (cs ++ closingLineEnd cs)) := by
  have closed : literalLines pad true (cs ++ closingLineEnd cs) =
      literalLines pad true cs ++ closingLineEnd cs := by
    rw [closingLineEnd]
    split
    · simp
    · exact literalLines_concat true
  rw [closed, literalBlock, closingLineEnd]
  simp

theorem blockText_closed {cs : List Char} (feeds : ∀ c ∈ cs, isBreak c = true → c = '\n') :
    BlockText (cs ++ closingLineEnd cs) := by
  rw [closingLineEnd]
  split
  next ended =>
    rcases List.eq_nil_or_concat' cs with rfl | ⟨front, c, rfl⟩
    · cases ended
    · rw [List.getLast?_concat] at ended
      rw [List.append_nil, feeds c (by simp) ended]
      exact blockText_append fun d member => feeds d (List.mem_append_left _ member)
  next => exact blockText_append feeds

/-- The first line of a block that does not start with a space tells the indentation. -/
theorem blockBreaks_first {indent : Option Nat} {c : Char} {more : List Char} {last : Mark}
    {fuel : Nat} (known : indent = none ∨ indent = some width) (start : mark.column = 0)
    (solid : isSpaceOrTab c = false) (unbroken : isBreak c = false) :
    blockBreaks indent since (fuel + 1) ⟨[], 0, last, ⟨spaces width ++ c :: more, mark⟩⟩ =
      .ok ⟨[], width, last, ⟨c :: more, mark.advance (spaces width)⟩⟩ := by
  have other : c ≠ ' ' ∧ c ≠ '\t' := by simpa [isSpaceOrTab] using solid
  have stops : (c :: more).head? ≠ some ' ' := by simpa using other.1
  have noTab : ¬some c = some '\t' := by simpa using other.2
  have atBreak (place : Mark) : (⟨c :: more, place⟩ : Cursor).atBreak = false := unbroken
  have pad : ((spaces width ++ c :: more).take
      ((indent.map (· - mark.column)).getD (spaces width ++ c :: more).length)).takeWhile
        (· == ' ') = spaces width := by
    rcases known with rfl | rfl
    · rw [Option.map_none, Option.getD_none, List.take_length]
      exact takeWhile_spaces stops
    · have ends : EndsBreaks width width (c :: more) := ⟨by simpa using unbroken, .inl rfl⟩
      simpa [start] using ends.takeWhile_eq
  simp only [start] at pad
  unfold blockBreaks
  simp only [pad, length_spaces, Cursor.advance_append (length_spaces width), Cursor.next?_mk,
    List.head?_cons, noTab, decide_false, Bool.and_false, Bool.false_eq_true, ↓reduceIte, atBreak,
    Mark.column_advance, start, Nat.zero_add, Nat.max_eq_right (Nat.zero_le width)]

/-- Be the indentation of a block hinted at in its header or told by its first line, the block is
read with the one that it has. -/
theorem blockBreaks_literalLines {cs : List Char} {indent fuel : Nat} {hint : Bool}
    {breaks : BlockBreaks} (nonempty : cs ≠ []) (tabFree : '\t' ∉ cs) (start : mark.column = 0)
    (hinted : (cs.head?.map fun c => c == ' ' || isBreak c).getD false = hint)
    (reads : blockBreaks (some (indent + 2)) since (fuel + 1) ⟨[], 0, mark,
      ⟨literalLines (spaces (indent + 2)) true (cs ++ closingLineEnd cs) ++ behind, mark⟩⟩ =
        .ok breaks) :
    let known := (if hint then some 2 else none).map fun n => (max (indent : Int) 0).toNat + n
    blockBreaks known since (fuel + 1) ⟨[], 0, mark,
        ⟨literalLines (spaces (indent + 2)) true (cs ++ closingLineEnd cs) ++ behind, mark⟩⟩ =
          .ok breaks ∧
      known.getD (max breaks.widest (max ((indent : Int) + 1) 1).toNat) = indent + 2 := by
  cases hint with
  | true =>
      have known : (max (indent : Int) 0).toNat + 2 = indent + 2 := by omega
      simp only [↓reduceIte, Option.map_some, known, reads, Option.getD_some, and_self]
  | false =>
      -- Without a hint the first line tells.
      obtain ⟨c, others, rfl⟩ := List.exists_cons_of_ne_nil nonempty
      simp only [List.head?_cons, Option.map_some, Option.getD_some, Bool.or_eq_false_iff,
        beq_eq_false_iff_ne] at hinted
      have solid : isSpaceOrTab c = false := by
        have noTab : c ≠ '\t' := fun same => tabFree (same ▸ List.mem_cons_self)
        simp [isSpaceOrTab, hinted.1, noTab]
      have firstLine : literalLines (spaces (indent + 2)) true
          (c :: others ++ closingLineEnd (c :: others)) ++ behind =
            spaces (indent + 2) ++ c :: (literalLines (spaces (indent + 2)) false
              (others ++ closingLineEnd (c :: others)) ++ behind) := by
        simp [literalLines, hinted.2]
      rw [firstLine, blockBreaks_first (.inr rfl) start solid hinted.2] at reads
      rw [firstLine]
      cases reads
      refine ⟨blockBreaks_first (.inl rfl) start solid hinted.2, ?_⟩
      simp only [Bool.false_eq_true, ↓reduceIte, Option.map_none, Option.getD_none]
      omega

/-- A literal block is read back, if the empty lines behind it are not taken for its own. -/
theorem exists_blockScalar {cs : List Char} {indent : Nat} (multiline : '\n' ∈ cs)
    (feeds : ∀ c ∈ cs, isBreak c = true → c = '\n') (tabFree : '\t' ∉ cs)
    (next : NextLine behind emptyLines column rest) (less : column ≤ indent)
    (keeps : chompingIndicator cs = ['+'] → emptyLines = 0) :
    ∃ last place, blockScalar true indent
        ⟨literalBlock (spaces (indent + 2)) cs ++ behind, mark⟩ = .ok ⟨cs, last, ⟨rest, place⟩⟩ ∧
      place.column = column ∧ mark.line < place.line := by
  obtain ⟨chomping, indicator⟩ := exists_chomping cs
  generalize hinted : (cs.head?.map fun c => c == ' ' || isBreak c).getD false = hint
  have lines := blockText_closed feeds
  have written := literalBlock_eq (spaces (indent + 2)) cs
  rw [indentationIndicator_eq, hinted, indicator] at written
  generalize whole : literalBlock (spaces (indent + 2)) cs ++ behind = source
  obtain ⟨start, header, column0, startLine⟩ := @exists_blockHeader mark (mark.advance ['|']) hint
    chomping (literalLines (spaces (indent + 2)) true (cs ++ closingLineEnd cs) ++ behind)
  have long : (cs ++ closingLineEnd cs).length + emptyLines < source.length := by
    have body := length_le_literalLines (spaces (indent + 2)) (cs ++ closingLineEnd cs) true
    rw [← whole, written, next.eq]
    simp only [List.length_append, List.length_cons, List.length_replicate] at body ⊢
    omega
  obtain ⟨breaks, final, first, goesOn, read⟩ := @exists_blockLines (indent + 2) mark start rest
    behind emptyLines column (cs ++ closingLineEnd cs) [] [] false 0 (source.length + 1)
    (source.length + 1) start lines next (by omega) column0 (by omega) (by omega)
  obtain ⟨found, foundIndicator, chomped⟩ := exists_chomp_eq multiline read keeps
  cases Chomping.chars_injective (foundIndicator.symm.trans indicator)
  have behindMark : (⟨source, mark⟩ : Cursor).advance 1 =
      ⟨hintChars hint ++ chomping.chars ++
        '\n' :: (literalLines (spaces (indent + 2)) true (cs ++ closingLineEnd cs) ++ behind),
        mark.advance ['|']⟩ := by
    rw [← whole, written]
    simp
  obtain ⟨initial, indented⟩ := blockBreaks_literalLines (List.ne_nil_of_mem multiline) tabFree
    column0 hinted first
  refine ⟨final.breaks.last, final.breaks.cursor.mark, ?_, read.column_eq, ?_⟩
  · simp only [blockScalar, behindMark, header, bind, Except.bind, initial, indented, goesOn]
    rw [← read.rest_eq]
    exact congrArg (fun text => Except.ok (BlockScalar.mk text final.breaks.last
      final.breaks.cursor)) chomped
  · have further := read.line_le
    rw [startLine] at further
    exact further

end Token

end FleetCompose.Yaml
