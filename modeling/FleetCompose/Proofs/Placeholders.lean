import FleetCompose.Proofs.Segments
import Mathlib.Algebra.Ring.Parity
import Mathlib.Data.List.Chain

/-!
# Where a text is cut

A text is cut at placeholders, but not at every one of them. The cutter takes opening braces in
pairs from the left, so it meets the braces of a placeholder together exactly if an even number of
opening braces stands in front of it. A placeholder behind an odd number of them stays in the
literal text.
-/

namespace FleetCompose.Template

/-! ## Matching what is written -/

theorem isPad_false_of_startsIdentifier {c : Char} (starts : Text.startsIdentifier c = true) :
    isPad c = false := by
  rw [isPad, Bool.or_eq_false_iff, beq_eq_false_iff_ne, beq_eq_false_iff_ne]
  constructor
  · rintro rfl
    revert starts
    decide
  · rintro rfl
    revert starts
    decide

theorem continuesIdentifier_false_of_isPad {c : Char} (pad : isPad c = true) :
    Text.continuesIdentifier c = false := by
  rw [isPad, Bool.or_eq_true, beq_iff_eq, beq_iff_eq] at pad
  rcases pad with rfl | rfl
  · decide
  · decide

/-- The part of a list that satisfies a predicate ends at the first character that does not. -/
theorem takeWhile_append_eq {p : Char → Bool} {front : List Char} (rest : List Char)
    (all : front.all p = true) (stops : ∀ c ∈ rest.head?, p c = false) :
    (front ++ rest).takeWhile p = front ∧ (front ++ rest).dropWhile p = rest := by
  have every : ∀ c ∈ front, p c = true := List.all_eq_true.mp all
  rw [List.takeWhile_append_of_pos every, List.dropWhile_append_of_pos every]
  cases rest with
  | nil => simp
  | cons c cs => simp [stops c rfl]

/-- What is written as a placeholder is matched, whatever comes behind it. -/
theorem match?_append_of_isWritten {name raw : List Char} (written : IsWritten name raw)
    (rest : List Char) : match? (raw ++ rest) = some ⟨name, raw, rest⟩ := by
  obtain ⟨before, after, beforePad, afterPad, identifier, rfl⟩ := written
  cases name with
  | nil => cases identifier
  | cons first others =>
      have starts : Text.startsIdentifier first = true := (Bool.and_eq_true_iff.mp identifier).1
      have named : (first :: others).all match?.continuesName = true :=
        List.all_eq_true.mpr fun c member => Text.continuesIdentifier_of_mem identifier member
      -- The three runs of characters, from the left to the right.
      obtain ⟨padding, behindPadding⟩ := takeWhile_append_eq
        (first :: others ++ (after ++ ('}' :: '}' :: rest))) beforePad
        (by rintro c ⟨⟩; exact isPad_false_of_startsIdentifier starts)
      obtain ⟨name, behindName⟩ := takeWhile_append_eq
        (after ++ ('}' :: '}' :: rest)) named (by
          intro c head
          cases after with
          | nil => cases head; decide
          | cons pad pads =>
              cases head
              exact continuesIdentifier_false_of_isPad (List.all_eq_true.mp afterPad _ (by simp)))
      obtain ⟨closing, behindClosing⟩ := takeWhile_append_eq
        ('}' :: '}' :: rest) afterPad (by rintro c ⟨⟩; decide)
      have whole : ['{', '{'] ++ before ++ first :: others ++ after ++ ['}', '}'] ++ rest =
          '{' :: '{' :: (before ++ (first :: others ++ (after ++ ('}' :: '}' :: rest)))) := by
        simp
      rw [whole, match?]
      simp only [padding, behindPadding, name, behindName, closing, behindClosing, identifier,
        ↓reduceIte]

/-- At most one placeholder is written at the front of a list. -/
theorem IsWritten.eq_of_append_eq {name raw other otherRaw rest otherRest : List Char}
    (written : IsWritten name raw) (otherWritten : IsWritten other otherRaw)
    (same : raw ++ rest = otherRaw ++ otherRest) : name = other ∧ raw = otherRaw := by
  have matched := match?_append_of_isWritten written rest
  rw [same, match?_append_of_isWritten otherWritten] at matched
  obtain ⟨rfl, rfl, -⟩ := Match.mk.inj (Option.some.inj matched)
  exact ⟨rfl, rfl⟩

/-! ## Runs of opening braces -/

/-- How many opening braces a list ends with. -/
def openingRun (cs : List Char) : Nat := (cs.reverse.takeWhile (· == '{')).length

@[simp] theorem openingRun_nil : openingRun [] = 0 := rfl

/-- Only what is behind the last other character counts. -/
theorem openingRun_append_of_ne {c : Char} (other : c ≠ '{') (front rest : List Char) :
    openingRun (front ++ [c] ++ rest) = openingRun rest := by
  rw [openingRun, openingRun, List.reverse_append, List.reverse_append, List.takeWhile_append]
  split
  next all => simp [other, all]
  next => rfl

theorem openingRun_append_brace (front : List Char) :
    openingRun (front ++ ['{']) = openingRun front + 1 := by
  simp [openingRun]

/-- A placeholder ends with a closing brace. -/
theorem IsWritten.exists_append_brace {name raw : List Char} (written : IsWritten name raw) :
    ∃ front, raw = front ++ ['}'] := by
  obtain ⟨before, after, -, -, -, rfl⟩ := written
  exact ⟨['{', '{'] ++ before ++ name ++ after ++ ['}'], by simp⟩

/-- A placeholder starts with two opening braces, and something else comes behind them. -/
theorem IsWritten.exists_cons_cons {name raw : List Char} (written : IsWritten name raw) :
    ∃ inner, raw = '{' :: '{' :: inner ∧ inner ≠ [] ∧ '{' ∉ inner := by
  obtain ⟨before, after, beforePad, afterPad, identifier, rfl⟩ := written
  refine ⟨before ++ name ++ after ++ ['}', '}'], by simp, by simp, ?_⟩
  have pads : ∀ cs : List Char, cs.all isPad = true → '{' ∉ cs := by
    intro cs all member
    exact absurd (List.all_eq_true.mp all _ member) (by decide)
  have named : '{' ∉ name := by
    intro member
    exact absurd (Text.continuesIdentifier_of_mem identifier member) (by decide)
  simp [pads before beforePad, pads after afterPad, named]

/-- Two placeholders of a text are at the same place or apart. -/
theorem IsWritten.eq_nil_or_exists_append {name raw other otherRaw before rest after : List Char}
    (written : IsWritten name raw) (otherWritten : IsWritten other otherRaw)
    (same : raw ++ rest = before ++ otherRaw ++ after) :
    before = [] ∨ ∃ gap, before = raw ++ gap ∧ rest = gap ++ otherRaw ++ after := by
  obtain ⟨inner, rfl, innerFilled, innerFree⟩ := written.exists_cons_cons
  obtain ⟨otherInner, rfl, -, -⟩ := otherWritten.exists_cons_cons
  rw [List.append_assoc, List.append_eq_append_iff] at same
  rcases same with ⟨gap, rfl, behind⟩ | ⟨overlap, whole, behind⟩
  · exact .inr ⟨gap, rfl, by rw [behind, List.append_assoc]⟩
  · -- The second one starts in the first one, in which only two places have an opening brace.
    match before, overlap with
    | [], _ => exact .inl rfl
    | first :: before, [] =>
        rw [List.append_nil] at whole
        exact .inr ⟨[], by rw [List.append_nil, whole], behind.symm⟩
    | [first], brace :: overlap =>
        obtain ⟨-, -, rfl⟩ : first = '{' ∧ brace = '{' ∧ inner = overlap := by
          simpa [eq_comm] using whole
        obtain ⟨d, others, rfl⟩ := List.exists_cons_of_ne_nil innerFilled
        obtain ⟨-, rfl, -⟩ : brace = '{' ∧ d = '{' ∧ _ := by
          simpa [eq_comm] using behind
        exact absurd List.mem_cons_self innerFree
    | first :: second :: before, brace :: overlap =>
        obtain ⟨-, -, rfl⟩ : first = '{' ∧ second = '{' ∧ inner = before ++ brace :: overlap := by
          simpa [eq_comm] using whole
        obtain ⟨rfl, -⟩ : brace = '{' ∧ _ := by
          simpa [eq_comm] using behind
        exact absurd (by simp) innerFree

/-! ## Cuts -/

/-- The segments have a placeholder behind some characters. -/
def CutAt (segments : List Segment) (before : List Char) (name raw : String) : Prop :=
  ∃ earlier later, segments = earlier ++ .placeholder name raw :: later ∧
    segmentChars earlier = before

section CutAt

variable {before : List Char} {name raw : String} {segments : List Segment}

theorem not_cutAt_nil : ¬CutAt [] before name raw := by
  rintro ⟨earlier, later, equal, -⟩
  simp at equal

theorem cutAt_cons_iff {segment : Segment} :
    CutAt (segment :: segments) before name raw ↔
      (before = [] ∧ segment = .placeholder name raw) ∨
        ∃ rest, before = segment.text.toList ++ rest ∧ CutAt segments rest name raw := by
  constructor
  · rintro ⟨earlier, later, equal, rfl⟩
    cases earlier with
    | nil => exact .inl ⟨rfl, (List.cons.inj equal).1⟩
    | cons first earlier =>
        obtain ⟨rfl, others⟩ := List.cons.inj equal
        exact .inr ⟨segmentChars earlier, segmentChars_cons _ _, earlier, later, others, rfl⟩
  · rintro (⟨rfl, rfl⟩ | ⟨rest, rfl, earlier, later, rfl, rfl⟩)
    · exact ⟨[], segments, rfl, rfl⟩
    · exact ⟨segment :: earlier, later, rfl, segmentChars_cons _ _⟩

theorem cutAt_append_iff {first : List Segment} :
    CutAt (first ++ segments) before name raw ↔
      CutAt first before name raw ∨
        ∃ rest, before = segmentChars first ++ rest ∧ CutAt segments rest name raw := by
  induction first generalizing before with
  | nil => simp [not_cutAt_nil, segmentChars]
  | cons segment first ih =>
      simp only [List.cons_append, cutAt_cons_iff, ih, segmentChars_cons, List.append_assoc]
      constructor
      · rintro (here | ⟨rest, rfl, inFirst | ⟨behind, rfl, inSecond⟩⟩)
        · exact .inl (.inl here)
        · exact .inl (.inr ⟨rest, rfl, inFirst⟩)
        · exact .inr ⟨behind, rfl, inSecond⟩
      · rintro ((here | ⟨rest, rfl, inFirst⟩) | ⟨behind, rfl, inSecond⟩)
        · exact .inl here
        · exact .inr ⟨rest, rfl, .inl inFirst⟩
        · exact .inr ⟨_, rfl, .inr ⟨behind, rfl, inSecond⟩⟩

/-- Literal text only moves the places. -/
theorem cutAt_literalSegment_append_iff {reversed : List Char} :
    CutAt (literalSegment reversed ++ segments) before name raw ↔
      ∃ rest, before = reversed.reverse ++ rest ∧ CutAt segments rest name raw := by
  rw [literalSegment]
  split
  next empty => simp [List.isEmpty_iff.mp empty]
  next => simp [cutAt_cons_iff, Segment.text]

end CutAt

/-! ## Placeholders behind paired braces -/

/-- The list goes on, behind a gap, with a placeholder, and the braces in front of it pair up. -/
structure PairedBehind (front cs gap name raw : List Char) : Prop where
  written : IsWritten name raw
  even : Even (openingRun (front ++ gap))
  occurs : ∃ after, cs = gap ++ raw ++ after

section PairedBehind

variable {front cs gap name raw : List Char}

theorem not_pairedBehind_nil : ¬PairedBehind front [] gap name raw := by
  rintro ⟨written, -, after, occurs⟩
  obtain ⟨inner, rfl, -⟩ := written.exists_cons_cons
  simp at occurs

/-- The braces in front of a placeholder do not count behind it. -/
theorem openingRun_append_written (written : IsWritten name raw) (front rest : List Char) :
    openingRun (front ++ (raw ++ rest)) = openingRun rest := by
  obtain ⟨inner, rfl⟩ := written.exists_append_brace
  have around : front ++ (inner ++ ['}'] ++ rest) = front ++ inner ++ ['}'] ++ rest := by simp
  rw [around]
  exact openingRun_append_of_ne (by decide) _ _

/-- A placeholder at the front is the first one, and the others come behind it. -/
theorem pairedBehind_append_iff {first firstRaw : List Char} (written : IsWritten first firstRaw)
    (even : Even (openingRun front)) (rest : List Char) :
    PairedBehind front (firstRaw ++ rest) gap name raw ↔
      (gap = [] ∧ first = name ∧ firstRaw = raw) ∨
        ∃ later, gap = firstRaw ++ later ∧ PairedBehind [] rest later name raw := by
  constructor
  · rintro ⟨otherWritten, gapEven, after, occurs⟩
    rcases written.eq_nil_or_exists_append otherWritten occurs with rfl | ⟨later, rfl, behind⟩
    · obtain ⟨rfl, rfl⟩ := written.eq_of_append_eq otherWritten occurs
      exact .inl ⟨rfl, rfl, rfl⟩
    · rw [openingRun_append_written written] at gapEven
      exact .inr ⟨later, rfl, otherWritten, gapEven, after, behind⟩
  · rintro (⟨rfl, rfl, rfl⟩ | ⟨later, rfl, otherWritten, laterEven, after, rfl⟩)
    · exact ⟨written, by rwa [List.append_nil], rest, rfl⟩
    · refine ⟨otherWritten, ?_, after, by simp⟩
      rw [openingRun_append_written written]
      exact laterEven

/-- A pair of braces that begins no placeholder stands in front of all. -/
theorem pairedBehind_pair_iff (even : Even (openingRun front))
    (unmatched : match? ('{' :: '{' :: cs) = none) :
    PairedBehind front ('{' :: '{' :: cs) gap name raw ↔
      ∃ later, gap = '{' :: '{' :: later ∧
        PairedBehind (front ++ ['{', '{']) cs later name raw := by
  constructor
  · rintro ⟨written, gapEven, after, occurs⟩
    match gap with
    | [] =>
        rw [List.nil_append] at occurs
        rw [occurs, match?_append_of_isWritten written] at unmatched
        cases unmatched
    | [first] =>
        -- One brace of the pair would be left over in front of the placeholder.
        obtain ⟨rfl, -⟩ := List.cons.inj occurs
        rw [openingRun_append_brace, Nat.even_add_one] at gapEven
        exact absurd even gapEven
    | first :: second :: later =>
        obtain ⟨rfl, others⟩ := List.cons.inj occurs
        obtain ⟨rfl, behind⟩ := List.cons.inj others
        exact ⟨later, rfl, written, by simpa using gapEven, after, behind⟩
  · rintro ⟨later, rfl, written, laterEven, after, rfl⟩
    exact ⟨written, by simpa using laterEven, after, rfl⟩

/-- A character that begins no pair of braces stands in front of all. -/
theorem pairedBehind_cons_iff {c : Char}
    (notBraces : ∀ rest, c = '{' → cs = '{' :: rest → False) :
    PairedBehind front (c :: cs) gap name raw ↔
      ∃ later, gap = c :: later ∧ PairedBehind (front ++ [c]) cs later name raw := by
  constructor
  · rintro ⟨written, gapEven, after, occurs⟩
    cases gap with
    | nil =>
        obtain ⟨inner, rfl, -⟩ := written.exists_cons_cons
        obtain ⟨brace, others⟩ := List.cons.inj occurs
        exact absurd others (notBraces (inner ++ after) brace)
    | cons d later =>
        obtain ⟨rfl, behind⟩ := List.cons.inj occurs
        exact ⟨later, rfl, written, by simpa using gapEven, after, behind⟩
  · rintro ⟨later, rfl, written, laterEven, after, rfl⟩
    exact ⟨written, by simpa using laterEven, after, rfl⟩

end PairedBehind

/-! ## The cutter -/

/-- Between two tokens of the cutter, the braces that it has kept pair up, or none comes next. -/
def Between (reversed cs : List Char) : Prop :=
  Even (openingRun reversed.reverse) ∨ cs.head? ≠ some '{'

theorem Between.even {reversed cs : List Char} (between : Between reversed ('{' :: cs)) :
    Even (openingRun reversed.reverse) :=
  between.resolve_right fun apart => apart rfl

/-- A pair of braces keeps the braces paired. -/
theorem between_pair {reversed : List Char} (even : Even (openingRun reversed.reverse))
    (cs : List Char) : Between ('{' :: '{' :: reversed) cs := by
  have kept : ('{' :: '{' :: reversed).reverse = reversed.reverse ++ ['{'] ++ ['{'] := by simp
  left
  rw [kept, openingRun_append_brace, openingRun_append_brace]
  exact even.add ⟨1, rfl⟩

/-- A single brace is kept only if none comes behind it. -/
theorem between_cons {c : Char} {cs : List Char}
    (notBraces : ∀ rest, c = '{' → cs = '{' :: rest → False) (reversed : List Char) :
    Between (c :: reversed) cs := by
  by_cases brace : c = '{'
  · right
    intro head
    obtain ⟨rest, rfl⟩ := List.head?_eq_some_iff.mp head
    exact notBraces rest brace rfl
  · left
    have alone := openingRun_append_of_ne brace reversed.reverse []
    rw [List.append_nil, ← List.reverse_cons] at alone
    rw [alone]
    exact Even.zero

/-- What is kept more in front of a place is what the gap in front of it starts with. -/
theorem exists_gap_iff {front kept before : List Char} {place : List Char → Prop} :
    (∃ later, before = front ++ kept ++ later ∧ place later) ↔
      ∃ gap, before = front ++ gap ∧ ∃ later, gap = kept ++ later ∧ place later := by
  constructor
  · rintro ⟨later, rfl, here⟩
    exact ⟨kept ++ later, List.append_assoc .., later, rfl, here⟩
  · rintro ⟨_, rfl, later, rfl, here⟩
    exact ⟨later, (List.append_assoc ..).symm, here⟩

/-- Induction on the recursion of the cutter. What it has kept in reverse stands in front of the
places that are still to come. -/
theorem cutAt_segmentsFrom_iff {skip : Nat} {reversed cs : List Char}
    (between : Between reversed (cs.drop skip)) {before name raw : List Char} :
    CutAt (segmentsFrom skip reversed cs) before (String.ofList name) (String.ofList raw) ↔
      ∃ gap, before = reversed.reverse ++ gap ∧
        PairedBehind reversed.reverse (cs.drop skip) gap name raw := by
  induction skip, reversed, cs using segmentsFrom.induct generalizing before with
  | case1 skip reversed =>
      have literal : CutAt (literalSegment reversed ++ []) before (String.ofList name)
          (String.ofList raw) ↔ _ := cutAt_literalSegment_append_iff
      rw [List.append_nil] at literal
      simp [segmentsFrom, literal, not_cutAt_nil, not_pairedBehind_nil]
  | case2 reversed c cs skip ih =>
      rw [segmentsFrom, List.drop_succ_cons]
      exact ih between
  | case3 reversed cs found matched ih =>
      obtain ⟨written, whole⟩ := match?_eq_some matched
      have later : ∀ {before : List Char}, CutAt (segmentsFrom (found.raw.length - 2) [] cs) before
          (String.ofList name) (String.ofList raw) ↔ PairedBehind [] found.rest before name raw := by
        intro before
        rw [ih (.inl (by simp)), drop_length_sub_two matched]
        simp
      have cut : segmentsFrom 0 reversed ('{' :: '{' :: cs) = literalSegment reversed ++
          .placeholder (String.ofList found.name) (String.ofList found.raw) ::
            segmentsFrom (found.raw.length - 2) [] cs := by
        simp only [segmentsFrom, matched]
      rw [cut, List.drop_zero, cutAt_literalSegment_append_iff]
      refine exists_congr fun gap => and_congr_right fun _ => ?_
      rw [whole, pairedBehind_append_iff written between.even, cutAt_cons_iff]
      simp only [later, Segment.text, String.toList_ofList, Segment.placeholder.injEq,
        String.ofList_inj]
  | case4 reversed cs unmatched ih =>
      have kept : ('{' :: '{' :: reversed).reverse = reversed.reverse ++ ['{', '{'] := by simp
      have cut : segmentsFrom 0 reversed ('{' :: '{' :: cs) =
          segmentsFrom 0 ('{' :: '{' :: reversed) cs := by
        simp only [segmentsFrom, unmatched]
      rw [cut, ih (between_pair between.even _), kept, List.drop_zero, List.drop_zero,
        exists_gap_iff]
      simp only [pairedBehind_pair_iff between.even unmatched, List.cons_append, List.nil_append]
  | case5 reversed c cs notBraces ih =>
      have cut : segmentsFrom 0 reversed (c :: cs) = segmentsFrom 0 (c :: reversed) cs := by
        rw [segmentsFrom]
        exact notBraces
      rw [cut, ih (between_cons notBraces reversed), List.reverse_cons, List.drop_zero,
        List.drop_zero, exists_gap_iff]
      simp only [pairedBehind_cons_iff notBraces, List.cons_append, List.nil_append]

/-! ## Literal text -/

/-- Is the segment literal text? -/
def Segment.isLiteral : Segment → Bool
  | .literal _ => true
  | .placeholder _ _ => false

/-- No two literal texts stand next to each other. -/
def LiteralsApart (segments : List Segment) : Prop :=
  segments.IsChain fun first second => (first.isLiteral && second.isLiteral) = false

/-- What is kept is literal text, unless it is empty. -/
theorem literalSegment_eq (reversed : List Char) :
    (reversed = [] ∧ literalSegment reversed = []) ∨
      (reversed ≠ [] ∧ literalSegment reversed = [.literal (String.ofList reversed.reverse)]) := by
  rw [literalSegment]
  cases reversed with
  | nil => exact .inl ⟨rfl, rfl⟩
  | cons c cs => exact .inr ⟨by simp, rfl⟩

theorem literalsApart_segmentsFrom (skip : Nat) (reversed cs : List Char) :
    LiteralsApart (segmentsFrom skip reversed cs) := by
  induction skip, reversed, cs using segmentsFrom.induct with
  | case1 skip reversed =>
      rw [segmentsFrom]
      rcases literalSegment_eq reversed with ⟨-, cut⟩ | ⟨-, cut⟩
      · rw [cut]
        exact List.IsChain.nil
      · rw [cut]
        exact List.IsChain.singleton _
  | case2 reversed c cs skip ih =>
      rw [segmentsFrom]
      exact ih
  | case3 reversed cs found matched ih =>
      simp only [segmentsFrom, matched]
      have later : LiteralsApart (.placeholder (String.ofList found.name)
          (String.ofList found.raw) :: segmentsFrom (found.raw.length - 2) [] cs) :=
        List.isChain_cons.mpr ⟨fun _ _ => rfl, ih⟩
      rcases literalSegment_eq reversed with ⟨-, cut⟩ | ⟨-, cut⟩
      · rw [cut]
        exact later
      · rw [cut]
        exact List.IsChain.cons_cons rfl later
  | case4 reversed cs unmatched ih =>
      simp only [segmentsFrom, unmatched]
      exact ih
  | case5 reversed c cs notBraces ih =>
      rw [segmentsFrom]
      · exact ih
      · exact notBraces

theorem ne_empty_of_literal_mem {skip : Nat} {reversed cs : List Char} {text : String}
    (member : .literal text ∈ segmentsFrom skip reversed cs) : text ≠ "" := by
  have kept : ∀ reversed, Segment.literal text ∈ literalSegment reversed → text ≠ "" := by
    intro reversed listed
    rcases literalSegment_eq reversed with ⟨-, cut⟩ | ⟨filled, cut⟩
    · simp [cut] at listed
    · rw [cut, List.mem_singleton, Segment.literal.injEq] at listed
      simpa [listed] using filled
  induction skip, reversed, cs using segmentsFrom.induct with
  | case1 skip reversed =>
      rw [segmentsFrom] at member
      exact kept reversed member
  | case2 reversed c cs skip ih =>
      rw [segmentsFrom] at member
      exact ih member
  | case3 reversed cs found matched ih =>
      simp only [segmentsFrom, matched, List.mem_append, List.mem_cons] at member
      rcases member with listed | same | later
      · exact kept reversed listed
      · cases same
      · exact ih later
  | case4 reversed cs unmatched ih =>
      simp only [segmentsFrom, unmatched] at member
      exact ih member
  | case5 reversed c cs notBraces ih =>
      rw [segmentsFrom] at member
      · exact ih member
      · exact notBraces

/-- In front of literal text stands a placeholder, or nothing. -/
theorem openingRun_segmentChars_append {text : String} {earlier later : List Segment}
    {literal : String} (cut : segments text = earlier ++ .literal literal :: later)
    (rest : List Char) : openingRun (segmentChars earlier ++ rest) = openingRun rest := by
  cases earlier using List.reverseRecOn with
  | nil => rfl
  | append_singleton front last =>
      have apart := literalsApart_segmentsFrom 0 [] text.toList
      rw [← segments, cut, LiteralsApart, List.append_assoc, List.isChain_append] at apart
      cases last with
      | literal other => simp [Segment.isLiteral] at apart
      | placeholder name raw =>
          have member : .placeholder name raw ∈ segmentsFrom 0 [] text.toList := by
            rw [← segments, cut]
            simp
          rw [segmentChars_append, List.append_assoc, segmentChars_cons, List.append_assoc]
          exact openingRun_append_written (isWritten_of_mem_segmentsFrom member) _ _

/-- A placeholder in literal text stands behind an odd number of opening braces. -/
theorem odd_openingRun_of_literal {text literal : String} {before name raw after : List Char}
    (member : .literal literal ∈ segments text) (inside : literal.toList = before ++ raw ++ after)
    (written : IsWritten name raw) : Odd (openingRun before) := by
  rw [← Nat.not_even_iff_odd]
  intro even
  obtain ⟨earlier, later, cut⟩ := List.append_of_mem member
  have whole : text.toList = segmentChars earlier ++ (literal.toList ++ segmentChars later) := by
    rw [← segmentChars_segments, cut, segmentChars_append, segmentChars_cons, Segment.text]
  -- The cutter would have cut the placeholder out, inside of the literal text.
  have paired : PairedBehind [] text.toList (segmentChars earlier ++ before) name raw := by
    refine ⟨written, ?_, after ++ segmentChars later, ?_⟩
    · rw [List.nil_append, openingRun_segmentChars_append cut]
      exact even
    · rw [whole, inside]
      simp
  have cutThere : CutAt (segments text) (segmentChars earlier ++ before) (String.ofList name)
      (String.ofList raw) :=
    (cutAt_segmentsFrom_iff (.inl (by simp))).mpr ⟨_, rfl, paired⟩
  obtain ⟨inner, rfl, -⟩ := written.exists_cons_cons
  rw [cut, cutAt_append_iff] at cutThere
  rcases cutThere with ⟨front, back, rfl, same⟩ | ⟨rest, same, inLiteral⟩
  · have sizes := congrArg List.length same
    simp [segmentChars_append, segmentChars_cons, Segment.text] at sizes
  · obtain rfl := List.append_cancel_left same
    rcases cutAt_cons_iff.mp inLiteral with ⟨-, equal⟩ | ⟨rest, equal, -⟩
    · cases equal
    · have sizes := congrArg List.length equal
      simp [Segment.text, inside] at sizes

/-! ## Cut texts -/

/-- The segments are what a text is cut into: together they are the text, and they have a
placeholder exactly where one is written behind an even number of opening braces. What is left is
literal text in single pieces, none of them empty, and a placeholder stays in it only behind an
odd number of opening braces. -/
structure IsCut (text : String) (segments : List Segment) : Prop where
  join_eq : String.join (segments.map Segment.text) = text
  placeholder_iff : ∀ before name raw : String,
    (∃ earlier later, segments = earlier ++ .placeholder name raw :: later ∧
      String.join (earlier.map Segment.text) = before) ↔
        (∃ after, text = before ++ raw ++ after) ∧ IsWritten name.toList raw.toList ∧
          Even (openingRun before.toList)
  literal_ne : ∀ literal, .literal literal ∈ segments → literal ≠ ""
  literals_apart : LiteralsApart segments
  odd_of_literal : ∀ literal, .literal literal ∈ segments → ∀ before name raw after : String,
    literal = before ++ raw ++ after → IsWritten name.toList raw.toList →
      Odd (openingRun before.toList)

/-- Every text is cut at the placeholders in front of which opening braces pair up, and nowhere
else. -/
theorem isCut_segments (text : String) : IsCut text (segments text) where
  join_eq := by
    rw [← String.toList_inj, toList_join_text, segmentChars_segments]
  placeholder_iff := by
    intro before name raw
    have cut : CutAt (segmentsFrom 0 [] text.toList) before.toList (String.ofList name.toList)
        (String.ofList raw.toList) ↔ _ := cutAt_segmentsFrom_iff (.inl (by simp))
    rw [String.ofList_toList, String.ofList_toList, ← segments, CutAt] at cut
    simp only [← String.toList_inj, toList_join_text, cut, List.reverse_nil, List.nil_append,
      exists_eq_left', List.drop_zero, String.toList_append]
    constructor
    · rintro ⟨written, even, after, occurs⟩
      exact ⟨⟨String.ofList after, by simpa using occurs⟩, written, even⟩
    · rintro ⟨⟨after, occurs⟩, written, even⟩
      exact ⟨written, even, after.toList, occurs⟩
  literal_ne := fun _ member => ne_empty_of_literal_mem member
  literals_apart := literalsApart_segmentsFrom 0 [] text.toList
  odd_of_literal := by
    rintro literal member before name raw after rfl written
    have parts : (before ++ raw ++ after).toList = before.toList ++ raw.toList ++ after.toList := by
      simp
    exact odd_openingRun_of_literal member parts written

/-- A stray brace in front of a placeholder takes the place of its first brace, and the placeholder
is not found. -/
theorem not_forall_cut :
    ¬∀ text before name raw after : String, text = before ++ raw ++ after →
      IsWritten name.toList raw.toList →
        ∃ earlier later, segments text = earlier ++ .placeholder name raw :: later ∧
          String.join (earlier.map Segment.text) = before := by
  intro always
  have written : IsWritten "A".toList "\x7b\x7bA\x7d\x7d".toList :=
    ⟨[], [], rfl, rfl, by decide, by decide⟩
  obtain ⟨earlier, later, cut, -⟩ :=
    always "\x7b\x7b\x7bA\x7d\x7d" "\x7b" "A" "\x7b\x7bA\x7d\x7d" "" (by decide) written
  have found : segments "\x7b\x7b\x7bA\x7d\x7d" = [.literal "\x7b\x7b\x7bA\x7d\x7d"] := by
    decide +kernel
  rw [found] at cut
  have member : Segment.placeholder "A" "\x7b\x7bA\x7d\x7d" ∈
      [Segment.literal "\x7b\x7b\x7bA\x7d\x7d"] := by
    rw [cut]
    simp
  simp at member

end FleetCompose.Template
