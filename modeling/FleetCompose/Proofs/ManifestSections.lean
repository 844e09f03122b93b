import FleetCompose.Proofs.IndentedLines

/-!
# Sections of a manifest

Services, networks and volumes are written by themselves and pasted into the manifest line by line.
Whatever the lines are, they are moved out of the first column, so the only top-level lines of a
manifest are its own headers, and the services can be taken out of it again.
-/

namespace FleetCompose

open BuildSpec (linesText linesText_append linesText_cons linesText_flatMap)
open Text (splitLines)
open Yaml

namespace Manifest

/-! ## What is pasted -/

/-- A line without the two spaces in front of it; a line that has none stays as it is. -/
def outdentedLine (line : String) : String :=
  match line.toList with
  | ' ' :: ' ' :: cs => String.ofList cs
  | _ => line

/-- A text whose lines are moved back. -/
def outdent (text : String) : String := "\n".intercalate ((splitLines text).map outdentedLine)

/-- Is the line one that is not empty and has no two spaces in front? -/
def isTopLevel (line : String) : Bool :=
  !line.isEmpty && !"  ".toList.isPrefixOf line.toList

/-- The text stands between the header of the services and the empty line in front of the header of
the networks. -/
def IsServicesPart (body part : String) : Prop :=
  ∃ rest, body = "services:\n" ++ part ++ "\nnetworks:\n" ++ rest

/-- A text has the sections of a manifest, with the given services in the first one. -/
structure HasSections (volumes : List String) (texts : List String) (body : String) : Prop where
  headers_eq : (splitLines body).filter isTopLevel =
    ["services:", "networks:"] ++ if volumes.isEmpty then [] else ["volumes:"]
  exists_unique : ∃! part, IsServicesPart body part
  outdent_eq_iff : ∀ part, IsServicesPart body part →
    (outdent part = String.join texts ↔ ∀ text ∈ texts, EndsLine text.toList)

/-! ## Lines that are moved -/

/-- A line, with two spaces in front unless it is empty. -/
def indentedLine (line : String) : String := (if line.isEmpty then "" else "  ") ++ line

/-- The lines of a text, each of them moved. -/
def indentedLines (text : String) : List String := (Text.lines text).map indentedLine

theorem outdentedLine_indentedLine (line : String) :
    outdentedLine (indentedLine line) = line := by
  rw [indentedLine]
  split
  next empty =>
    rw [String.isEmpty_iff.mp empty]
    rfl
  next => simp [outdentedLine]

theorem isTopLevel_indentedLine (line : String) : isTopLevel (indentedLine line) = false := by
  rw [indentedLine]
  split
  next empty =>
    rw [String.isEmpty_iff.mp empty]
    rfl
  next => simp [isTopLevel]

theorem oneLine_indentedLine {line : String} (oneLine : Text.OneLine line) :
    Text.OneLine (indentedLine line) := by
  rw [indentedLine, Text.oneLine_append]
  refine ⟨?_, oneLine⟩
  split
  · decide
  · decide

theorem isTopLevel_of_mem_indentedLines {text line : String}
    (member : line ∈ indentedLines text) : isTopLevel line = false := by
  rcases List.mem_map.mp member with ⟨original, -, rfl⟩
  exact isTopLevel_indentedLine original

theorem filter_indentedLines (text : String) : (indentedLines text).filter isTopLevel = [] := by
  rw [List.filter_eq_nil_iff]
  intro line member
  rw [isTopLevel_of_mem_indentedLines member]
  exact Bool.false_ne_true

theorem oneLine_of_mem_indentedLines {text line : String} (member : line ∈ indentedLines text) :
    Text.OneLine line := by
  rcases List.mem_map.mp member with ⟨original, isLine, rfl⟩
  exact oneLine_indentedLine (Text.oneLine_of_mem_lines isLine)

theorem indent_eq (text : String) : indent text = linesText (indentedLines text) := by
  rw [indent, indentedLines, linesText, List.map_map]
  rfl

theorem oneLine_of_mem_flatMap_indentedLines {texts : List String} {line : String}
    (member : line ∈ texts.flatMap indentedLines) : Text.OneLine line := by
  rcases List.mem_flatMap.mp member with ⟨text, -, inText⟩
  exact oneLine_of_mem_indentedLines inText

theorem splitLines_flatMap_indentedLines (texts : List String) :
    splitLines (linesText (texts.flatMap indentedLines)) =
      texts.flatMap indentedLines ++ [""] :=
  Text.splitLines_linesText_eq_iff.mpr fun _ => oneLine_of_mem_flatMap_indentedLines

/-- Moved lines are moved back to what they were, each with its end. -/
theorem outdent_linesText (texts : List String) :
    outdent (linesText (texts.flatMap indentedLines)) =
      String.join (texts.map fun text => linesText (Text.lines text)) := by
  have back : (texts.flatMap indentedLines).map outdentedLine = texts.flatMap Text.lines := by
    rw [List.map_flatMap]
    apply List.flatMap_congr
    intro text _
    have same : outdentedLine ∘ indentedLine = id := funext outdentedLine_indentedLine
    rw [indentedLines, List.map_map, same, List.map_id]
  have empty : [""].map outdentedLine = [""] := rfl
  rw [outdent, splitLines_flatMap_indentedLines, List.map_append, back, empty,
    Text.intercalate_lineFeed, linesText_flatMap]

/-! ## Lines of a manifest -/

/-- The lines behind the header of the networks. -/
def laterLines (networks : List Network) (volumes : List String) : List String :=
  indentedLines (networksText networks) ++
    if volumes.isEmpty then [] else "" :: "volumes:" :: indentedLines (volumesText volumes)

/-- The lines of a manifest from the header of the services on. -/
def sectionLines (texts : List String) (networks : List Network) (volumes : List String) :
    List String :=
  "services:" :: (texts.flatMap indentedLines ++ "" :: "networks:" :: laterLines networks volumes)

variable {texts : List String} {networks : List Network} {volumes : List String}

theorem sections_eq (part rest : String) :
    "services:\n" ++ part ++ "\nnetworks:\n" ++ rest =
      "services:" ++ "\n" ++ (part ++ "\n" ++ ("networks:" ++ "\n" ++ rest)) := by
  have servicesHeader : "services:\n" = "services:" ++ "\n" := rfl
  have networksHeader : "\nnetworks:\n" = "\n" ++ ("networks:" ++ "\n") := rfl
  rw [servicesHeader, networksHeader]
  simp only [String.append_assoc]

theorem linesText_sectionLines (texts : List String) (networks : List Network)
    (volumes : List String) :
    linesText (sectionLines texts networks volumes) =
      "services:\n" ++ linesText (texts.flatMap indentedLines) ++ "\nnetworks:\n" ++
        linesText (laterLines networks volumes) := by
  rw [sections_eq, sectionLines, linesText_cons, linesText_append, linesText_cons, linesText_cons]
  simp only [String.append_assoc, String.empty_append]

theorem linesText_laterLines (networks : List Network) (volumes : List String) :
    linesText (laterLines networks volumes) = indent (networksText networks) ++
      if volumes.isEmpty then "" else "\nvolumes:\n" ++ indent (volumesText volumes) := by
  rw [laterLines, linesText_append, indent_eq, indent_eq]
  split
  · rfl
  · have header : "\nvolumes:\n" = "" ++ "\n" ++ ("volumes:" ++ "\n") := rfl
    rw [linesText_cons, linesText_cons, header]
    simp only [String.append_assoc]

/-- Behind its version a manifest is put together from lines. -/
theorem assemble_eq (version : Option String) (texts : List String) (networks : List Network)
    (volumes : List String) :
    assemble version texts networks volumes =
      versionText version ++ linesText (sectionLines texts networks volumes) := by
  have services : String.join (texts.map indent) = linesText (texts.flatMap indentedLines) := by
    rw [linesText_flatMap, funext indent_eq]
  rw [linesText_sectionLines, linesText_laterLines, assemble, services]
  simp only [String.append_assoc]

theorem splitLines_sectionLines :
    splitLines (linesText (sectionLines texts networks volumes)) =
      sectionLines texts networks volumes ++ [""] := by
  rw [Text.splitLines_linesText_eq_iff]
  have moved {text line : String} (member : line ∈ indentedLines text) : Text.OneLine line :=
    oneLine_of_mem_indentedLines member
  have later : ∀ line ∈ laterLines networks volumes, Text.OneLine line := by
    rw [laterLines, List.forall_mem_append]
    refine ⟨fun line member => moved member, ?_⟩
    split
    · exact List.forall_mem_nil _
    · rw [List.forall_mem_cons, List.forall_mem_cons]
      exact ⟨by decide, by decide, fun line member => moved member⟩
  rw [sectionLines, List.forall_mem_cons, List.forall_mem_append, List.forall_mem_cons,
    List.forall_mem_cons]
  exact ⟨by decide, fun line => oneLine_of_mem_flatMap_indentedLines, by decide, by decide, later⟩

/-- The headers are the only top-level lines. -/
theorem filter_sectionLines (texts : List String) (networks : List Network)
    (volumes : List String) :
    (sectionLines texts networks volumes).filter isTopLevel =
      ["services:", "networks:"] ++ if volumes.isEmpty then [] else ["volumes:"] := by
  have services : (texts.flatMap indentedLines).filter isTopLevel = [] := by
    rw [List.filter_flatMap, List.flatMap_eq_nil_iff]
    exact fun text _ => filter_indentedLines text
  have later : (laterLines networks volumes).filter isTopLevel =
      if volumes.isEmpty then [] else ["volumes:"] := by
    rw [laterLines, List.filter_append, filter_indentedLines, List.nil_append]
    split
    · rfl
    · rw [List.filter_cons_of_neg (by decide), List.filter_cons_of_pos (by decide),
        filter_indentedLines]
  rw [sectionLines, List.filter_cons_of_pos (by decide), List.filter_append, services,
    List.filter_cons_of_neg (by decide), List.filter_cons_of_pos (by decide), later]
  rfl

theorem networksHeader_notMem_laterLines : "networks:" ∉ laterLines networks volumes := by
  rw [laterLines, List.mem_append, not_or]
  have moved (text : String) : "networks:" ∉ indentedLines text := fun member =>
    absurd (isTopLevel_of_mem_indentedLines member) (by decide)
  refine ⟨moved _, ?_⟩
  split
  · exact List.not_mem_nil
  · rw [List.mem_cons, List.mem_cons, not_or, not_or]
    exact ⟨by decide, by decide, moved _⟩

theorem networksHeader_notMem_indentedLines : "networks:" ∉ texts.flatMap indentedLines := by
  intro member
  rcases List.mem_flatMap.mp member with ⟨text, -, inText⟩
  exact absurd (isTopLevel_of_mem_indentedLines inText) (by decide)

/-- Nothing but the lines of the services stands between the headers. -/
theorem isServicesPart_iff {part : String} :
    IsServicesPart (linesText (sectionLines texts networks volumes)) part ↔
      part = linesText (texts.flatMap indentedLines) := by
  constructor
  · intro given
    rcases given with ⟨rest, equal⟩
    have servicesHeader : splitLines "services:" = ["services:"] :=
      Text.splitLines_of_oneLine (by decide)
    have networksHeader : splitLines "networks:" = ["networks:"] :=
      Text.splitLines_of_oneLine (by decide)
    have lines := congrArg splitLines equal
    rw [splitLines_sectionLines, sections_eq, Text.splitLines_append_lineFeed,
      Text.splitLines_append_lineFeed, Text.splitLines_append_lineFeed, servicesHeader,
      networksHeader] at lines
    have around : (texts.flatMap indentedLines ++ [""]) ++
        "networks:" :: (laterLines networks volumes ++ [""]) =
          splitLines part ++ "networks:" :: splitLines rest := by
      simpa [sectionLines] using lines
    have front : "networks:" ∉ texts.flatMap indentedLines ++ [""] := by
      rw [List.mem_append, not_or]
      exact ⟨networksHeader_notMem_indentedLines, by decide⟩
    have back : "networks:" ∉ laterLines networks volumes ++ [""] := by
      rw [List.mem_append, not_or]
      exact ⟨networksHeader_notMem_laterLines, by decide⟩
    -- The header of the networks is a line only once, so both texts are split there.
    have same := ((List.append_cons_inj_of_notMem front back).mp around).1
    rw [← splitLines_flatMap_indentedLines] at same
    exact (Text.splitLines_injective same).symm
  · rintro rfl
    exact ⟨linesText (laterLines networks volumes), linesText_sectionLines texts networks volumes⟩

/-! ## Texts of services -/

theorem documentText_ne_empty (key value : Value) : Value.documentText [(key, value)] ≠ "" := by
  have colon : ':' ∈ (Value.documentText [(key, value)]).toList := by
    rw [Value.documentText, if_neg (by simp), String.toList_ofList, Value.entryLines_cons,
      Value.entryText]
    split
    · simp
    · simp
  intro empty
  rw [empty] at colon
  cases colon

/-- Texts with something added behind each of them are the texts exactly if nothing is added. -/
theorem join_map_append_eq_iff (texts : List String) (ending : String → String) :
    String.join (texts.map fun text => text ++ ending text) = String.join texts ↔
      ∀ text ∈ texts, ending text = "" := by
  have longer : (String.join (texts.map fun text => text ++ ending text)).length =
      (String.join texts).length + (texts.map fun text => (ending text).length).sum := by
    induction texts with
    | nil => rfl
    | cons text texts ih =>
        rw [List.map_cons, String.join_cons, String.length_append, ih, String.length_append,
          String.join_cons, String.length_append, List.map_cons, List.sum_cons]
        omega
  constructor
  · intro same text member
    rw [same] at longer
    have none : (texts.map fun text => (ending text).length).sum = 0 := by omega
    have zero := List.sum_eq_zero_iff_forall_eq_nat.mp none _
      (List.mem_map.mpr ⟨text, member, rfl⟩)
    exact String.length_eq_zero_iff.mp zero
  · intro none
    rw [List.map_congr_left fun text member => by rw [none text member, String.append_empty],
      List.map_id']

/-- Behind its version the manifest of a model has the sections of the model, with the texts of its
services in the first one. -/
theorem exists_hasSections_of_ofModel {model : Model} {manifest : String}
    (rendered : ofModel model = .ok manifest) :
    ∃ texts body, traverse serviceText model.services = .ok texts ∧
      manifest = versionText model.version ++ body ∧ HasSections model.volumes texts body := by
  rw [ofModel, map_eq_ok_iff] at rendered
  rcases rendered with ⟨texts, written, rfl⟩
  refine ⟨texts, linesText (sectionLines texts model.networks model.volumes), written,
    assemble_eq _ _ _ _, ?headers, ?unique, ?services⟩
  case headers =>
    rw [splitLines_sectionLines, List.filter_append, filter_sectionLines,
      List.filter_cons_of_neg (by decide), List.filter_nil, List.append_nil]
  case unique =>
    simp only [isServicesPart_iff]
    exact existsUnique_eq
  case services =>
    intro part isPart
    have free : ∀ text ∈ texts, '\r' ∉ text.toList ∧ text ≠ "" := by
      rw [texts_eq_of_traverse written, List.forall_mem_map]
      intro service _
      exact ⟨carriageReturn_notMem (printed_documentText _), documentText_ne_empty _ _⟩
    have lines := List.map_congr_left fun text member => Text.linesText_lines (free text member).1
    rw [isServicesPart_iff.mp isPart, outdent_linesText, lines, join_map_append_eq_iff]
    apply forall₂_congr
    intro text member
    have nonempty : text.toList ≠ [] := fun none =>
      (free text member).2 (String.toList_eq_nil_iff.mp none)
    rw [EndsLine, List.getLast?_eq_getLast_of_ne_nil nonempty]
    simp

/-- A model whose names and texts have lines like the headers, one of them behind an empty line. -/
def headed : Model where
  version := some "3.8"
  services := [
    ⟨"camera", .image, some "carrier",
      .ofList [("command", .string "services:\n\nnetworks:\n  volumes:\n")]⟩,
    ⟨"networks:", .global, none, .empty⟩]
  networks := [⟨"ros_yard", some "yard"⟩, ⟨"uplink\nvolumes:", none⟩]
  volumes := ["maps"]
  builds := []
  robots := []

theorem headed_hasSections :
    ∃ manifest texts body part, ofModel headed = .ok manifest ∧
      traverse serviceText headed.services = .ok texts ∧
      manifest = versionText (some "3.8") ++ body ∧ HasSections ["maps"] texts body ∧
      IsServicesPart body part ∧ outdent part = String.join texts := by
  have renders : (ofModel headed).toOption.isSome = true := by decide +kernel
  rcases exists_ok_of_isSome renders with ⟨manifest, rendered⟩
  rcases exists_hasSections_of_ofModel rendered with ⟨texts, body, written, equal, sections⟩
  rcases sections.exists_unique.exists with ⟨part, isPart⟩
  refine ⟨manifest, texts, body, part, rendered, written, equal, sections, isPart, ?_⟩
  rw [sections.outdent_eq_iff part isPart, texts_eq_of_traverse written]
  unfold EndsLine
  decide +kernel

end Manifest

end FleetCompose
