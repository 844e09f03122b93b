import FleetCompose.Compose.Manifest
import FleetCompose.Proofs.Checks
import FleetCompose.Proofs.TextLines
import FleetCompose.Proofs.WrittenCharacters

/-!
# Indented texts

Indenting the lines of a written value gives what would have been written for it two columns
further to the right, also where a text of the value has several lines.
-/

namespace FleetCompose

open Yaml
open Yaml.Value (spaces Place firstPad nodeLines itemLines entryLines shortKey? entryText
  itemLines_cons entryLines_cons isLegible itemsLegible entriesLegible)

namespace Manifest

/-- Characters with two spaces in front of every line that is not empty. -/
def indentChars : (lineStart : Bool) → List Char → List Char
  | _, [] => []
  | lineStart, c :: cs =>
      if c = '\n' then c :: indentChars true cs
      else (if lineStart then spaces 2 else []) ++ c :: indentChars false cs

/-- A line, indented and ended. -/
def indentLine (line : List Char) : List Char :=
  (if line.isEmpty then [] else spaces 2) ++ line ++ ['\n']

variable {lineStart : Bool} {cs rest : List Char} {c : Char}

@[simp] theorem indentChars_lineEnd :
    indentChars lineStart ('\n' :: rest) = '\n' :: indentChars true rest := if_pos rfl

theorem indentChars_cons (inside : c ≠ '\n') :
    indentChars lineStart (c :: rest) =
      (if lineStart then spaces 2 else []) ++ c :: indentChars false rest := if_neg inside

/-- The rest of a line stays as it is. -/
theorem indentChars_append (inside : '\n' ∉ cs) :
    indentChars false (cs ++ rest) = cs ++ indentChars false rest := by
  induction cs with
  | nil => rfl
  | cons c cs ih =>
      rw [List.mem_cons, not_or] at inside
      rw [List.cons_append, indentChars_cons (Ne.symm inside.1), ih inside.2]
      rfl

/-- The indentation of a line grows by two. -/
theorem indentChars_spaces (inside : c ≠ '\n') (n : Nat) :
    indentChars true (spaces n ++ c :: rest) = spaces (n + 2) ++ c :: indentChars false rest := by
  cases n with
  | zero => exact indentChars_cons inside
  | succ n =>
      have noEnd : '\n' ∉ spaces n := fun member =>
        absurd (List.eq_of_mem_replicate member) (by decide)
      rw [show spaces (n + 1) ++ c :: rest = ' ' :: (spaces n ++ c :: rest) from rfl,
        indentChars_cons (by decide), indentChars_append noEnd, indentChars_cons inside]
      rw [show n + 1 + 2 = 2 + (n + 1) by omega, spaces, spaces, spaces, List.replicate_add,
        List.replicate_succ, List.append_assoc]
      rfl

/-! ## Lines of a text -/

/-- Cut into lines, indented and joined again. -/
theorem indentChars_eq_flatMap (lineStart : Bool) (cs : List Char) :
    ∃ line lines, Text.splitOnChars '\n' cs = line :: lines ∧
      indentChars lineStart (cs ++ ['\n']) =
        (if lineStart && !line.isEmpty then spaces 2 else []) ++ line ++ '\n' ::
          lines.flatMap indentLine := by
  induction cs generalizing lineStart with
  | nil => exact ⟨[], [], rfl, by simp [indentChars]⟩
  | cons c cs ih =>
      by_cases isEnd : c = '\n'
      · subst isEnd
        obtain ⟨line, lines, split, indented⟩ := ih true
        refine ⟨[], line :: lines, by rw [Text.splitOnChars, if_pos rfl, split], ?_⟩
        rw [List.cons_append, indentChars_lineEnd, indented, List.flatMap_cons, indentLine]
        cases line <;> simp
      · obtain ⟨line, lines, split, indented⟩ := ih false
        refine ⟨c :: line, lines, by rw [Text.splitOnChars, if_neg isEnd, split], ?_⟩
        rw [List.cons_append, indentChars_cons isEnd, indented]
        simp

/-- A text that ends in a line feed and has no carriage returns is indented line by line. -/
theorem toList_indent {text : String} (ended : text.toList = cs ++ ['\n']) (free : '\r' ∉ cs) :
    (indent text).toList = indentChars true text.toList := by
  have parts : Text.splitOnChars '\n' text.toList = Text.splitOnChars '\n' cs ++ [[]] := by
    rw [ended, Text.splitOnChars_append_cons]
    rfl
  have lines : Text.lines text = (Text.splitOnChars '\n' cs).map String.ofList := by
    rw [Text.lines_of_splitOnChars (by simp [ended, free]) parts, List.isEmpty_nil, if_pos rfl,
      List.append_nil]
  obtain ⟨line, more, split, indented⟩ := indentChars_eq_flatMap true cs
  have joined (line : List Char) :
      ((if (String.ofList line).isEmpty then "" else "  ") ++ String.ofList line ++ "\n").toList =
        indentLine line := by
    cases line <;> simp [indentLine, spaces]
  rw [indent, lines, ended, indented, split, String.toList_join, List.map_map, List.flatMap_map]
  simp only [Function.comp_apply, joined, List.flatMap_cons]
  rw [indentLine]
  cases line <;> simp

/-! ## Lines of a value -/

theorem lineFeed_notMem (inline : Inline cs) : '\n' ∉ cs :=
  fun member => absurd (inline _ member).2 (by decide)

/-- The lines of a literal block that ends with a line feed. -/
theorem indentChars_literalLines (feeds : ∀ c ∈ cs, isBreak c = true → c = '\n') (n : Nat) :
    indentChars lineStart (literalLines (spaces n) lineStart (cs ++ ['\n']) ++ rest) =
      literalLines (spaces (n + 2)) lineStart (cs ++ ['\n']) ++ indentChars true rest := by
  induction cs generalizing lineStart with
  | nil => simp [literalLines, isBreak]
  | cons c cs ih =>
      obtain ⟨first, more⟩ := List.forall_mem_cons.mp feeds
      rw [List.cons_append, literalLines, literalLines]
      cases isEnd : isBreak c with
      | true =>
          cases first isEnd
          simp only [↓reduceIte, List.cons_append, indentChars_lineEnd, ih more]
      | false =>
          have inside : c ≠ '\n' := by
            rintro rfl
            cases isEnd
          cases lineStart with
          | true =>
              simp only [↓reduceIte, Bool.false_eq_true, List.append_assoc, List.cons_append,
                indentChars_spaces inside, ih more]
          | false =>
              simp only [↓reduceIte, Bool.false_eq_true, List.nil_append, List.cons_append,
                indentChars_cons inside, ih more]

theorem literalLines_append_lineEnd (pad : List Char) (lineStart : Bool) (cs : List Char) :
    literalLines pad lineStart (cs ++ ['\n']) = literalLines pad lineStart cs ++ ['\n'] := by
  induction cs generalizing lineStart with
  | nil => rfl
  | cons c cs ih =>
      rw [List.cons_append, literalLines, literalLines]
      split
      next => rw [ih, List.cons_append]
      next => rw [ih, List.append_assoc, List.cons_append]

/-- A literal block is a line of indicators and lines of text, each ended by a line feed. -/
theorem exists_literalBlock_eq (feeds : ∀ c ∈ cs, isBreak c = true → c = '\n') :
    ∃ first ds, Inline first ∧ (∀ c ∈ ds, isBreak c = true → c = '\n') ∧
      ∀ pad, literalBlock pad cs = first ++ '\n' :: literalLines pad true (ds ++ ['\n']) := by
  refine ⟨['|'] ++ indentationIndicator cs ++ chompingIndicator cs, ?_⟩
  rcases List.eq_nil_or_concat' cs with rfl | ⟨front, last, rfl⟩
  · exact ⟨[], inline_blockIndicators [], List.forall_mem_nil _, fun _ => rfl⟩
  cases isEnd : isBreak last with
  | true =>
      cases feeds last (by simp) isEnd
      refine ⟨front, inline_blockIndicators _, fun c member => feeds c (by simp [member]),
        fun pad => ?_⟩
      simp [literalBlock, isEnd]
  | false =>
      refine ⟨front ++ [last], inline_blockIndicators _, feeds, fun pad => ?_⟩
      rw [literalLines_append_lineEnd]
      simp [literalBlock, isEnd]

theorem indentChars_literalBlock {text : String} (free : separatorFree text.toList = true)
    (style : Style.ofText text = .literal) (n : Nat) :
    indentChars false (literalBlock (spaces n) text.toList ++ rest) =
      literalBlock (spaces (n + 2)) text.toList ++ indentChars true rest := by
  obtain ⟨-, feeds, -⟩ := Style.lines_of_literal free style
  obtain ⟨first, ds, inline, feeds, block_eq⟩ := exists_literalBlock_eq feeds
  rw [block_eq, block_eq, List.append_assoc, List.append_assoc, List.cons_append, List.cons_append,
    indentChars_append (lineFeed_notMem inline), indentChars_lineEnd,
    indentChars_literalLines feeds]

theorem indentChars_textLine {text : String} (free : separatorFree text.toList = true) (n : Nat) :
    indentChars false (textLine (spaces n) text ++ rest) =
      textLine (spaces (n + 2)) text ++ indentChars true rest := by
  have line {ds : List Char} (inline : Inline ds) :
      indentChars false (ds ++ ['\n'] ++ rest) = ds ++ ['\n'] ++ indentChars true rest := by
    rw [List.append_assoc, List.append_assoc, indentChars_append (lineFeed_notMem inline)]
    simp
  simp only [textLine]
  cases style : Style.ofText text with
  | plain => exact line (inline_of_plain style)
  | singleQuoted =>
      have inline := Style.inline_of_singleQuoted free style
      have same (pad : List Char) : singleQuoted pad text.toList = singleQuoted [] text.toList := by
        have unbroken : ∀ c ∈ text.toList, isBreak c = false := fun c member => (inline c member).2
        rw [singleQuoted, singleQuoted, Token.singleQuotedFrom_eq unbroken,
          Token.singleQuotedFrom_eq unbroken]
      simp only [same (spaces _)]
      exact line (inline_singleQuoted inline)
  | doubleQuoted => exact line (inline_doubleQuoted _)
  | literal => exact indentChars_literalBlock free style n

theorem indentChars_firstPad (inside : c ≠ '\n') (place : Place) (n : Nat) :
    indentChars false (firstPad place n ++ c :: rest) =
      firstPad place (n + 2) ++ c :: indentChars false rest := by
  rw [firstPad, firstPad]
  split
  · simp [indentChars_cons, inside]
  · rw [List.cons_append, indentChars_lineEnd, indentChars_spaces inside, List.cons_append]

/-- What `pad` in front of a line becomes when the line is indented. -/
def Moves (lineStart : Bool) (pad pad' : List Char) : Prop :=
  ∀ c rest, c ≠ '\n' →
    indentChars lineStart (pad ++ c :: rest) = pad' ++ c :: indentChars false rest

theorem moves_spaces (n : Nat) : Moves true (spaces n) (spaces (n + 2)) :=
  fun _ _ inside => indentChars_spaces inside n

theorem moves_firstPad (place : Place) (n : Nat) :
    Moves false (firstPad place n) (firstPad place (n + 2)) :=
  fun _ _ inside => indentChars_firstPad inside place n

theorem Moves.line {pad pad' front : List Char} (moves : Moves lineStart pad pad')
    (inline : Inline front) (inside : c ≠ '\n') :
    indentChars lineStart (pad ++ (front ++ c :: rest)) =
      pad' ++ (front ++ c :: indentChars false rest) := by
  cases front with
  | nil => exact moves c rest inside
  | cons first front =>
      obtain ⟨firstInline, frontInline⟩ := List.forall_mem_cons.mp inline
      have firstInside : first ≠ '\n' := by
        rintro rfl
        exact lineFeed_notMem inline List.mem_cons_self
      rw [List.cons_append, moves _ _ firstInside, indentChars_append (lineFeed_notMem frontInline),
        indentChars_cons inside]
      rfl

mutual

/-- A value whose lines are indented is the value as it is written two columns further. -/
theorem indentChars_nodeLines : ∀ (value : Yaml.Value) (depth : Nat) (place : Place) (n : Nat)
    (rest : List Char), value.isLegible depth = true →
      indentChars false (nodeLines place n value ++ rest) =
        nodeLines place (n + 2) value ++ indentChars true rest
  | .null, _, _, _, _, _ => rfl
  | .bool true, _, _, _, _, _ => rfl
  | .bool false, _, _, _, _, _ => rfl
  | .number number, _, _, _, rest, _ => by
      have inline := inline_cons (⟨rfl, rfl⟩ : IsInline ' ') (inline_number number)
      simp only [nodeLines, List.append_assoc]
      rw [indentChars_append (lineFeed_notMem inline)]
      simp
  | .string text, _, _, n, rest, legible => by
      rw [isLegible] at legible
      rw [nodeLines, nodeLines, List.cons_append, indentChars_cons (by decide),
        indentChars_textLine legible]
      rfl
  | .sequence [], _, _, _, _, _ => rfl
  | .sequence (item :: items), depth, place, n, rest, legible => by
      rw [isLegible, Bool.and_eq_true] at legible
      rw [nodeLines, nodeLines]
      rotate_left
      · exact List.cons_ne_nil _ _
      · exact List.cons_ne_nil _ _
      split
      · exact indentChars_itemLines (item :: items) _ n rest (moves_firstPad place n)
          (fun none => absurd none (List.cons_ne_nil _ _)) legible.2
      · exact indentChars_itemLines (item :: items) _ (n + 2) rest (moves_firstPad place (n + 2))
          (fun none => absurd none (List.cons_ne_nil _ _)) legible.2
  | .mapping [], _, _, _, _, _ => rfl
  | .mapping (entry :: entries), depth, place, n, rest, legible => by
      rw [isLegible, Bool.and_eq_true] at legible
      rw [nodeLines, nodeLines]
      · exact indentChars_entryLines (entry :: entries) _ (n + 2) rest
          (moves_firstPad place (n + 2)) (fun none => absurd none (List.cons_ne_nil _ _)) legible.2
      · exact List.cons_ne_nil _ _
      · exact List.cons_ne_nil _ _
  | .tagged tag value, _, _, _, _, legible => by cases legible

theorem indentChars_itemLines : ∀ (items : List Yaml.Value) (depth n : Nat) (rest : List Char)
    {lineStart : Bool} {pad pad' : List Char}, Moves lineStart pad pad' →
      (items = [] → lineStart = true) → itemsLegible depth items = true →
      indentChars lineStart (itemLines pad n items ++ rest) =
        itemLines pad' (n + 2) items ++ indentChars true rest
  | [], _, _, _, _, _, _, _, starts, _ => by rw [starts rfl]; rfl
  | item :: items, depth, n, rest, _, _, _, moves, _, legible => by
      rw [itemsLegible, Bool.and_eq_true] at legible
      rw [itemLines_cons, itemLines_cons, List.append_assoc, List.cons_append,
        moves '-' _ (by decide), List.append_assoc,
        indentChars_nodeLines item depth .afterDash n _ legible.1,
        indentChars_itemLines items depth n rest (moves_spaces n) (fun _ => rfl) legible.2]
      simp

theorem indentChars_entryLines : ∀ (entries : List (Yaml.Value × Yaml.Value)) (depth n : Nat)
    (rest : List Char) {lineStart : Bool} {pad pad' : List Char}, Moves lineStart pad pad' →
      (entries = [] → lineStart = true) → entriesLegible depth entries = true →
      indentChars lineStart (entryLines pad n entries ++ rest) =
        entryLines pad' (n + 2) entries ++ indentChars true rest
  | [], _, _, _, _, _, _, _, starts, _ => by rw [starts rfl]; rfl
  | (key, value) :: entries, depth, n, rest, _, pad, pad', moves, _, legible => by
      rw [entriesLegible, Bool.and_eq_true, Bool.and_eq_true] at legible
      obtain ⟨⟨keyLegible, valueLegible⟩, moreLegible⟩ := legible
      have more := indentChars_entryLines entries depth n rest (moves_spaces n) (fun _ => rfl)
        moreLegible
      have valueLines (place : Place) (rest : List Char) :=
        indentChars_nodeLines value depth place n rest valueLegible
      rw [entryLines_cons, entryLines_cons, entryText, entryText]
      cases short : shortKey? key with
      | some text =>
          simp only [List.append_assoc, List.cons_append]
          rw [moves.line (inline_shortKey short) (by decide), valueLines, more]
      | none =>
          simp only [List.append_assoc, List.cons_append]
          rw [moves '?' _ (by decide), indentChars_nodeLines key depth .afterMark n _ keyLegible,
            moves_spaces n ':' _ (by decide), valueLines, more]

end

/-! ## Ends of lines -/

/-- The characters end with a line feed. -/
def EndsLine (cs : List Char) : Prop := cs.getLast? = some '\n'

theorem endsLine_append {front : List Char} (ends : EndsLine cs) : EndsLine (front ++ cs) := by
  rw [EndsLine, List.getLast?_append, ends, Option.some_or]

theorem endsLine_cons (ends : EndsLine cs) : EndsLine (c :: cs) := @endsLine_append _ [c] ends

theorem endsLine_textLine {text : String} (free : separatorFree text.toList = true)
    (pad : List Char) : EndsLine (textLine pad text) := by
  rw [textLine]
  cases style : Style.ofText text with
  | plain => exact List.getLast?_concat
  | singleQuoted => exact List.getLast?_concat
  | doubleQuoted => exact List.getLast?_concat
  | literal =>
      obtain ⟨-, feeds, -⟩ := Style.lines_of_literal free style
      obtain ⟨first, ds, -, -, block_eq⟩ := exists_literalBlock_eq feeds
      simp only [block_eq, literalLines_append_lineEnd]
      exact endsLine_append (endsLine_cons List.getLast?_concat)

mutual

/-- What is written for a value ends a line. -/
theorem endsLine_nodeLines : ∀ (value : Yaml.Value) (depth : Nat) (place : Place) (n : Nat),
    value.isLegible depth = true → EndsLine (nodeLines place n value)
  | .null, _, _, _, _ => rfl
  | .bool true, _, _, _, _ => rfl
  | .bool false, _, _, _, _ => rfl
  | .number _, _, _, _, _ => List.getLast?_concat
  | .string text, _, _, n, legible => by
      rw [isLegible] at legible
      exact endsLine_cons (endsLine_textLine legible _)
  | .sequence [], _, _, _, _ => rfl
  | .sequence (item :: items), depth, place, n, legible => by
      rw [isLegible, Bool.and_eq_true] at legible
      rw [nodeLines]
      · exact @endsLine_itemLines (item :: items) _ _ _ []
          (fun none => absurd none (List.cons_ne_nil _ _)) legible.2
      · exact List.cons_ne_nil _ _
  | .mapping [], _, _, _, _ => rfl
  | .mapping (entry :: entries), depth, place, n, legible => by
      rw [isLegible, Bool.and_eq_true] at legible
      rw [nodeLines]
      · exact @endsLine_entryLines (entry :: entries) _ _ _ []
          (fun none => absurd none (List.cons_ne_nil _ _)) legible.2
      · exact List.cons_ne_nil _ _
  | .tagged tag value, _, _, _, legible => by cases legible

theorem endsLine_itemLines : ∀ (items : List Yaml.Value) (depth n : Nat) (pad : List Char)
    {front : List Char}, (items = [] → EndsLine front) → itemsLegible depth items = true →
      EndsLine (front ++ itemLines pad n items)
  | [], _, _, _, _, ends, _ => (List.append_nil _).symm ▸ ends rfl
  | item :: items, depth, n, pad, front, _, legible => by
      rw [itemsLegible, Bool.and_eq_true] at legible
      have line := endsLine_nodeLines item depth .afterDash n legible.1
      rw [itemLines_cons]
      exact endsLine_append (endsLine_append (endsLine_cons
        (endsLine_itemLines items depth n (spaces n) (fun _ => line) legible.2)))

theorem endsLine_entryLines : ∀ (entries : List (Yaml.Value × Yaml.Value)) (depth n : Nat)
    (pad : List Char) {front : List Char}, (entries = [] → EndsLine front) →
      entriesLegible depth entries = true → EndsLine (front ++ entryLines pad n entries)
  | [], _, _, _, _, ends, _ => (List.append_nil _).symm ▸ ends rfl
  | (key, value) :: entries, depth, n, pad, front, _, legible => by
      rw [entriesLegible, Bool.and_eq_true, Bool.and_eq_true] at legible
      have valueLines (place : Place) := endsLine_nodeLines value depth place n legible.1.2
      have line : EndsLine (entryText n key value) := by
        rw [entryText]
        split
        · exact endsLine_append (endsLine_cons (valueLines _))
        · exact endsLine_cons (endsLine_append (endsLine_append (endsLine_cons (valueLines _))))
      rw [entryLines_cons]
      exact endsLine_append (endsLine_append
        (endsLine_entryLines entries depth n (spaces n) (fun _ => line) legible.2))

end

/-! ## Documents -/

/-- Services that can be written are written as documents of their own. -/
theorem texts_eq_of_traverse {services : List Service} {texts : List String}
    (written : traverse serviceText services = .ok texts) :
    texts = services.map fun service =>
      Value.documentText [(.string service.name, ofFields service.fields)] := by
  induction services generalizing texts with
  | nil =>
      cases written
      rfl
  | cons service services ih =>
      obtain ⟨text, more, first, later, rfl⟩ := traverse_cons_eq_ok_iff.mp written
      rw [ih later, List.map_cons]
      congr 1
      rw [serviceText, mapError_eq_ok_iff, Value.writeDocument] at first
      simp only at first
      split at first
      · cases first
      · cases first
        rfl

theorem carriageReturn_notMem (printed : Printed cs) : '\r' ∉ cs :=
  fun member => absurd (printed _ member) (by decide)

/-- The entries of a document, indented, are those of a mapping on the second column. -/
theorem toList_indent_documentText {depth : Nat} {entry : Yaml.Value × Yaml.Value}
    {entries : List (Yaml.Value × Yaml.Value)}
    (legible : entriesLegible depth (entry :: entries) = true) :
    (indent (Value.documentText (entry :: entries))).toList =
      entryLines (spaces 2) 2 (entry :: entries) := by
  have written : (Value.documentText (entry :: entries)).toList =
      entryLines [] 0 (entry :: entries) := String.toList_ofList
  have printed : Printed (entryLines [] 0 (entry :: entries)) :=
    written ▸ printed_documentText (entry :: entries)
  obtain ⟨lines, ended⟩ : ∃ lines, entryLines [] 0 (entry :: entries) = lines ++ ['\n'] :=
    List.getLast?_eq_some_iff.mp
      (@endsLine_entryLines (entry :: entries) depth 0 [] []
        (fun none => absurd none (List.cons_ne_nil _ _)) legible)
  have free : '\r' ∉ lines := fun member =>
    carriageReturn_notMem printed (ended ▸ List.mem_append_left _ member)
  have moved := indentChars_entryLines (entry :: entries) depth 0 [] (moves_spaces 0)
    (fun none => absurd none (List.cons_ne_nil _ _)) legible
  rw [List.append_nil] at moved
  rw [toList_indent (written.trans ended) free, written]
  exact moved.trans (List.append_nil _)

end Manifest

end FleetCompose
