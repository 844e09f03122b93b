import FleetCompose.Template.Placeholder

/-!
# Segments of a text

Cutting a text into segments loses nothing, and what is cut out as a placeholder is written
as one: an identifier with padding between double braces.
-/

namespace FleetCompose

theorem Text.continuesIdentifier_of_mem {name : List Char}
    (identifier : Text.isIdentifierChars name = true) {c : Char} (member : c ∈ name) :
    Text.continuesIdentifier c = true := by
  cases name with
  | nil => cases member
  | cons first rest =>
      rw [Text.isIdentifierChars, Bool.and_eq_true, List.all_eq_true] at identifier
      rcases List.mem_cons.mp member with rfl | later
      · exact Text.continuesIdentifier_of_starts identifier.1
      · exact identifier.2 c later

namespace Template

/-- A placeholder as it is written. -/
def IsWritten (name raw : List Char) : Prop :=
  ∃ before after, before.all isPad = true ∧ after.all isPad = true ∧
    Text.isIdentifierChars name = true ∧
    raw = ['{', '{'] ++ before ++ name ++ after ++ ['}', '}']

/-- A match is a written placeholder at the front. -/
theorem match?_eq_some {cs : List Char} {found : Match} (matched : match? cs = some found) :
    IsWritten found.name found.raw ∧ cs = found.raw ++ found.rest := by
  unfold match? at matched
  split at matched
  · next inner =>
      dsimp only at matched
      split at matched
      · next rest closed =>
          split at matched
          · next named =>
              cases matched
              refine ⟨⟨_, _, List.all_takeWhile, List.all_takeWhile, named, rfl⟩, ?_⟩
              -- Every run of characters and what follows it are the list again.
              have name := List.takeWhile_append_dropWhile
                (p := match?.continuesName) (l := inner.dropWhile isPad)
              have after := List.takeWhile_append_dropWhile (p := isPad)
                (l := (inner.dropWhile isPad).dropWhile match?.continuesName)
              rw [closed] at after
              simp only [List.cons_append, List.append_assoc, List.nil_append, after, name,
                List.takeWhile_append_dropWhile]
          · cases matched
      · cases matched
  · cases matched

/-- What is skipped after a match is the rest of the match. -/
theorem drop_length_sub_two {cs : List Char} {found : Match}
    (matched : match? ('{' :: '{' :: cs) = some found) :
    cs.drop (found.raw.length - 2) = found.rest := by
  rcases match?_eq_some matched with ⟨⟨before, after, -, -, -, written⟩, whole⟩
  rw [written, List.append_assoc, List.append_assoc, List.append_assoc, List.append_assoc,
    List.cons_append, List.cons_append, List.cons.injEq, List.cons.injEq, List.nil_append] at whole
  rw [whole.2.2, written]
  simp

/-- The characters of a list of segments. -/
def segmentChars (segments : List Segment) : List Char :=
  segments.flatMap fun segment => segment.text.toList

theorem segmentChars_append (first second : List Segment) :
    segmentChars (first ++ second) = segmentChars first ++ segmentChars second :=
  List.flatMap_append

theorem segmentChars_cons (segment : Segment) (segments : List Segment) :
    segmentChars (segment :: segments) = segment.text.toList ++ segmentChars segments :=
  List.flatMap_cons

theorem segmentChars_literalSegment (reversed : List Char) :
    segmentChars (literalSegment reversed) = reversed.reverse := by
  rw [literalSegment]
  split
  · next empty => simp [List.isEmpty_iff.mp empty, segmentChars]
  · simp [segmentChars, Segment.text]

/-- Induction on the recursion of the cutter, which goes through the characters one by one:
what it has skipped is missing, and what it has kept in reverse is still to come. -/
theorem segmentChars_segmentsFrom (skip : Nat) (reversed cs : List Char) :
    segmentChars (segmentsFrom skip reversed cs) = reversed.reverse ++ cs.drop skip := by
  induction skip, reversed, cs using segmentsFrom.induct with
  | case1 skip reversed =>
      rw [segmentsFrom]
      simpa using segmentChars_literalSegment reversed
  | case2 reversed c cs skip ih =>
      rw [segmentsFrom, ih, List.drop_succ_cons]
  | case3 reversed cs found matched ih =>
      have whole := (match?_eq_some matched).2
      simp only [segmentsFrom, matched, segmentChars_append, segmentChars_literalSegment,
        segmentChars_cons, Segment.text, ih, String.toList_ofList, List.reverse_nil,
        List.nil_append, List.drop_zero]
      rw [drop_length_sub_two matched, ← whole]
  | case4 reversed cs matched ih =>
      simp only [segmentsFrom, matched, ih]
      simp
  | case5 reversed c cs notBraces ih =>
      rw [segmentsFrom, ih]
      · simp
      · exact notBraces

/-- The segments of a text, one after the other, are the text. -/
theorem segmentChars_segments (text : String) : segmentChars (segments text) = text.toList :=
  segmentChars_segmentsFrom 0 [] text.toList

/-- Every placeholder among the segments is written as one. -/
theorem isWritten_of_mem_segmentsFrom {skip : Nat} {reversed cs : List Char} {name raw : String}
    (member : .placeholder name raw ∈ segmentsFrom skip reversed cs) :
    IsWritten name.toList raw.toList := by
  have literal : ∀ reversed, Segment.placeholder name raw ∉ literalSegment reversed := by
    intro reversed listed
    rw [literalSegment] at listed
    split at listed <;> simp at listed
  induction skip, reversed, cs using segmentsFrom.induct with
  | case1 skip reversed =>
      rw [segmentsFrom] at member
      exact absurd member (literal reversed)
  | case2 reversed c cs skip ih =>
      rw [segmentsFrom] at member
      exact ih member
  | case3 reversed cs found matched ih =>
      simp only [segmentsFrom, matched, List.mem_append, List.mem_cons] at member
      rcases member with listed | same | later
      · exact absurd listed (literal reversed)
      · rcases Segment.placeholder.inj same with ⟨rfl, rfl⟩
        simpa using (match?_eq_some matched).1
      · exact ih later
  | case4 reversed cs matched ih =>
      simp only [segmentsFrom, matched] at member
      exact ih member
  | case5 reversed c cs notBraces ih =>
      rw [segmentsFrom] at member
      · exact ih member
      · exact notBraces

theorem toList_join_text (cut : List Segment) :
    (String.join (cut.map Segment.text)).toList = segmentChars cut := by
  rw [String.toList_join, List.flatMap_map]
  rfl

/-- No placeholder has a colon in it: neither braces nor padding nor identifiers do. -/
theorem IsWritten.colon_notMem {name raw : List Char} (written : IsWritten name raw) :
    ':' ∉ raw := by
  rcases written with ⟨before, after, beforePad, afterPad, identifier, rfl⟩
  have pad : ∀ cs : List Char, cs.all isPad = true → ':' ∉ cs := by
    intro cs all member
    have colon := List.all_eq_true.mp all ':' member
    revert colon
    decide
  have named : ':' ∉ name := by
    intro member
    have colon := Text.continuesIdentifier_of_mem identifier member
    revert colon
    decide
  simp [pad before beforePad, pad after afterPad, named]

end Template

end FleetCompose
