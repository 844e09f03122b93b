import FleetCompose.Compose.Dockerfile
import FleetCompose.Proofs.Texts

/-!
# Lines of texts

A text is put together from lines by ending each of them with a line feed, and it is broken into
lines at its line feeds. Lines without line feeds are found again.
-/

namespace FleetCompose

open BuildSpec (linesText)

theorem BuildSpec.linesText_append (first second : List String) :
    linesText (first ++ second) = linesText first ++ linesText second := by
  rw [linesText, List.map_append, String.join_append]
  rfl

theorem BuildSpec.linesText_cons (line : String) (lines : List String) :
    linesText (line :: lines) = line ++ "\n" ++ linesText lines := String.join_cons

theorem BuildSpec.linesText_flatMap {α : Type} (lines : α → List String) (items : List α) :
    linesText (items.flatMap lines) =
      String.join (items.map fun item => linesText (lines item)) := by
  induction items with
  | nil => rfl
  | cons item items ih =>
      rw [List.flatMap_cons, linesText_append, ih, List.map_cons, String.join_cons]

namespace Text

/-- The parts of a text between its line feeds. -/
def splitLines (text : String) : List String := (splitOnChars '\n' text.toList).map String.ofList

theorem splitLines_ne_nil (text : String) : splitLines text ≠ [] := by
  simp [splitLines, splitOnChars_ne_nil]

/-- The text has no line feed. -/
def OneLine (text : String) : Prop := '\n' ∉ text.toList

instance : DecidablePred OneLine := fun text => inferInstanceAs (Decidable ('\n' ∉ text.toList))

@[simp] theorem oneLine_append {first second : String} :
    OneLine (first ++ second) ↔ OneLine first ∧ OneLine second := by
  simp [OneLine]

theorem oneLine_intercalate {separator : String} (oneLine : OneLine separator)
    {texts : List String} :
    OneLine (separator.intercalate texts) ↔ ∀ text ∈ texts, OneLine text := by
  induction texts with
  | nil => simp [OneLine]
  | cons first rest ih =>
      cases rest with
      | nil => simp
      | cons second rest =>
          rw [String.intercalate_cons_cons, oneLine_append, oneLine_append, ih,
            List.forall_mem_cons]
          simp [oneLine]

theorem splitLines_of_oneLine {text : String} (oneLine : OneLine text) :
    splitLines text = [text] := by
  simp [splitLines, splitOnChars_of_notMem oneLine]

theorem oneLine_of_mem_splitLines {text line : String} (member : line ∈ splitLines text) :
    OneLine line := by
  rcases List.mem_map.mp member with ⟨part, split, rfl⟩
  rw [OneLine, String.toList_ofList]
  exact notMem_of_mem_splitOnChars split

/-- Lines that hold line feeds themselves are broken there, and nowhere else. -/
theorem splitLines_linesText (lines : List String) :
    splitLines (BuildSpec.linesText lines) = lines.flatMap splitLines ++ [""] := by
  induction lines with
  | nil => rfl
  | cons line rest ih =>
      have chars : (linesText (line :: rest)).toList =
          line.toList ++ '\n' :: (BuildSpec.linesText rest).toList := by
        simp [BuildSpec.linesText]
      rw [splitLines, chars, splitOnChars_append_cons, List.map_append, List.flatMap_cons,
        List.append_assoc, ← ih]
      rfl

/-- Lines stay as they are exactly if none has a line feed. -/
theorem splitLines_linesText_eq_iff {lines : List String} :
    splitLines (BuildSpec.linesText lines) = lines ++ [""] ↔ ∀ line ∈ lines, OneLine line := by
  rw [splitLines_linesText, List.append_cancel_right_eq]
  constructor
  · intro same line member
    rw [← same] at member
    rcases List.mem_flatMap.mp member with ⟨broken, -, part⟩
    exact oneLine_of_mem_splitLines part
  · intro free
    have single : lines.flatMap splitLines = lines.flatMap fun line => [line] := by
      apply List.flatMap_congr
      intro line member
      exact splitLines_of_oneLine (free line member)
    rw [single, List.flatMap_singleton']

/-- What stands in front of a line feed is broken into lines on its own. -/
theorem splitLines_append_lineFeed (first rest : String) :
    splitLines (first ++ "\n" ++ rest) = splitLines first ++ splitLines rest := by
  have chars : (first ++ "\n" ++ rest).toList = first.toList ++ '\n' :: rest.toList := by simp
  rw [splitLines, chars, splitOnChars_append_cons, List.map_append]
  rfl

theorem splitLines_injective : Function.Injective splitLines := by
  intro first second same
  have parts := List.map_injective_iff.mpr (fun _ _ => String.ofList_inj.mp) same
  have chars := congrArg (List.intercalate ['\n']) parts
  rw [intercalate_splitOnChars, intercalate_splitOnChars] at chars
  exact String.toList_inj.mp chars

/-! ## Lines with their ends -/

/-- Every part but the last one is ended by a separator. -/
theorem intercalate_concat (separator : List Char) (front : List (List Char)) (last : List Char) :
    List.intercalate separator (front ++ [last]) = front.flatMap (· ++ separator) ++ last := by
  induction front with
  | nil => exact List.intercalate_singleton
  | cons part front ih =>
      rcases List.exists_cons_of_ne_nil (List.concat_ne_nil last front) with ⟨next, more, parts⟩
      rw [parts] at ih
      rw [List.cons_append, parts, List.intercalate_cons_cons, ih, List.flatMap_cons,
        List.append_assoc, List.append_assoc, List.append_assoc]

/-- In a text without carriage returns the lines are the parts between the line feeds, less an
empty one at the end. -/
theorem lines_of_splitOnChars {text : String} {front : List (List Char)} {last : List Char}
    (free : '\r' ∉ text.toList) (parts : splitOnChars '\n' text.toList = front ++ [last]) :
    lines text = (front ++ if last.isEmpty then [] else [last]).map String.ofList := by
  have joined := intercalate_splitOnChars '\n' text.toList
  rw [parts, intercalate_concat] at joined
  have kept : ∀ line ∈ front,
      (if line.getLast? = some '\r' then line.dropLast else line) = line := by
    intro line member
    rw [if_neg]
    intro isLast
    apply free
    rw [← joined, List.mem_append]
    exact .inl (List.mem_flatMap.mpr
      ⟨line, member, List.mem_append_left _ (List.mem_of_getLast? isLast)⟩)
  simp only [lines, parts, List.dropLast_concat, List.getLastD_concat]
  rw [List.map_congr_left kept, List.map_id']

theorem oneLine_of_mem_lines {text line : String} (member : line ∈ lines text) : OneLine line := by
  rcases List.mem_map.mp member with ⟨cs, given, rfl⟩
  rw [OneLine, String.toList_ofList]
  rcases List.mem_append.mp given with inFront | isLast
  · rcases List.mem_map.mp inFront with ⟨part, inParts, rfl⟩
    have free := notMem_of_mem_splitOnChars (List.dropLast_subset _ inParts)
    split
    · exact fun inside => free (List.dropLast_subset _ inside)
    · exact free
  · split at isLast
    · cases isLast
    · rw [List.mem_singleton.mp isLast, List.getLastD_eq_getLast?,
        List.getLast?_eq_getLast_of_ne_nil (splitOnChars_ne_nil _ _)]
      exact notMem_of_mem_splitOnChars (List.getLast_mem _)

theorem toList_linesText (lines : List String) :
    (linesText lines).toList = lines.flatMap fun line => line.toList ++ ['\n'] := by
  rw [linesText, String.toList_join, List.flatMap_map]
  simp

/-- Lines that are joined, with an empty one behind them, are lines that are each ended. -/
theorem intercalate_lineFeed (lines : List String) :
    "\n".intercalate (lines ++ [""]) = linesText lines := by
  rw [← String.toList_inj, String.toList_intercalate, List.map_append, List.map_singleton,
    intercalate_concat, toList_linesText, List.flatMap_map]
  exact List.append_nil _

/-- The lines of a text, each ended by a line feed, are the text again; at its end a line feed may
be added. -/
theorem linesText_lines {text : String} (free : '\r' ∉ text.toList) :
    linesText (lines text) =
      text ++ if text.toList.getLast?.all (· = '\n') then "" else "\n" := by
  rcases List.eq_nil_or_concat' (splitOnChars '\n' text.toList) with none | ⟨front, last, parts⟩
  · exact absurd none (splitOnChars_ne_nil _ _)
  have joined := intercalate_splitOnChars '\n' text.toList
  rw [parts, intercalate_concat] at joined
  have noLineFeed : '\n' ∉ last :=
    notMem_of_mem_splitOnChars (parts ▸ List.mem_append_right front List.mem_cons_self)
  rw [← String.toList_inj, lines_of_splitOnChars free parts, toList_linesText, List.flatMap_map,
    String.toList_append, ← joined]
  simp only [String.toList_ofList]
  rcases List.eq_nil_or_concat' last with rfl | ⟨initial, c, rfl⟩
  · rcases List.eq_nil_or_concat' front with rfl | ⟨front, line, rfl⟩
    · rfl
    · simp
  · have other : c ≠ '\n' := by
      rintro rfl
      exact noLineFeed (List.mem_append_right initial List.mem_cons_self)
    simp [other]

end Text

end FleetCompose
