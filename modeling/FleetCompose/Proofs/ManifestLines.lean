import FleetCompose.Proofs.IndentedLines
import FleetCompose.Proofs.RoundTrip

/-!
# Lines of a manifest

A manifest starts with its version, and an empty line stands in front of every section but the
first. It is read like a document without these lines, unless the text in front of them is a block
that keeps its line ends.
-/

namespace FleetCompose.Yaml

open Value (spaces nodeLines entryText nodeKinds entryKinds entriesLegible isLegible keepsLineEnds
  shortKey?)

/-- A text that can be put between double quotes as it is. -/
def isQuotable (text : String) : Bool :=
  text.toList.all fun c => isPrintable c && !isBreak c && c != '"' && c != '\\'

theorem isQuotable_iff {text : String} :
    isQuotable text = true ↔ ∀ c ∈ text.toList, IsInline c ∧ c ≠ '"' ∧ c ≠ '\\' := by
  simp only [isQuotable, List.all_eq_true, Bool.and_eq_true, Bool.not_eq_true', bne_iff_ne,
    IsInline, and_assoc]

/-- A text between double quotes, as it is. -/
def quotedRaw (text : String) : List Char := '"' :: (text.toList ++ ['"'])

/-- The lines of entries that have empty lines between them. -/
def Value.spacedLines : List (Value × Value) → List Char
  | [] => []
  | (key, value) :: entries =>
      entryText 0 key value ++ if entries.isEmpty then [] else '\n' :: spacedLines entries

open Value (spacedLines)

/-! ## Characters -/

theorem inline_quotedRaw {text : String} (quotable : isQuotable text = true) :
    Inline (quotedRaw text) :=
  inline_cons ⟨rfl, rfl⟩ (inline_append
    (fun c member => (isQuotable_iff.mp quotable c member).1) (inline_singleton ⟨rfl, rfl⟩))

theorem printed_entryText (n : Nat) (key value : Value) : Printed (entryText n key value) := by
  have printed := printed_entryLines [(key, value)] n printed_nil
  rwa [Value.entryLines_cons, Value.entryLines, List.nil_append, List.append_nil] at printed

theorem printed_spacedLines (entries : List (Value × Value)) : Printed (spacedLines entries) := by
  induction entries with
  | nil => exact printed_nil
  | cons entry entries ih =>
      rw [spacedLines]
      refine printed_append (printed_entryText 0 _ _) ?_
      split
      · exact printed_nil
      · exact printed_cons rfl ih

/-! ## Tokens -/

namespace Token

theorem encodes_raw {c : Char} (inline : IsInline c) (other : c ≠ ' ' ∧ c ≠ '"' ∧ c ≠ '\\') :
    Encodes false (fun c => [c]) c where
  solid := ⟨c, [], rfl, inline.isSpaceOrTab_eq_false other.1, inline.2⟩
  reads := by
    intro since fuel reversed rest mark
    simp [quotedWord, other.2, inline.isSpaceOrTab_eq_false other.1, inline.2]

end Token

namespace Lexer

variable {indent : Int} {indents indents' : List Int} {reversed : List Token}
variable {rest behind : List Char} {mark : Mark} {opened : List TokenKind}

theorem onLine_quotedRaw {text : String} (quotable : isQuotable text = true) (tail : List Char) :
    OnLine (quotedRaw text) tail [.scalar text .quoted] := by
  have scanned := @onLine_quoted false (quotedRaw text) tail text.toList rfl fun mark => by
    have read := @Token.quotedScalar_flatMap mark (fun c => [c]) text.toList tail
      (fun c member other =>
        have inside := isQuotable_iff.mp quotable c member
        Token.encodes_raw inside.1 ⟨other, inside.2⟩) rfl
    rwa [List.flatMap_singleton'] at read
  rwa [String.ofList_toList] at scanned

/-- A plain key with a text between double quotes. -/
theorem reaches_quotedEntry {key text : String} (plain : IsPlain key.toList)
    (short : bytes key.toList ≤ Lexer.longestPending) (quotable : isQuotable text = true)
    {emptyLines column : Nat} (next : NextLine behind emptyLines column rest)
    (opening : Opening .blockMappingStart mark.column indent indents opened indents') :
    Reaches (stand true none ⟨key.toList ++ ':' :: ' ' :: (quotedRaw text ++ '\n' :: behind), mark⟩
        indent indents reversed)
      (opened ++ [.key, .scalar key .plain, .value, .scalar text .quoted]) rest column mark.column
      indents' := by
  have separates : Separates (' ' :: (quotedRaw text ++ '\n' :: behind)) := ⟨_, _, rfl, .inl rfl⟩
  have keyOnLine := onLine_plain plain separates.endsWord
  rw [String.ofList_toList] at keyOnLine
  obtain ⟨reversed', added, steps⟩ := @exists_steps_key indent indents reversed mark opened
    indents' _ key.toList _ keyOnLine separates
    (by rw [index_advance]; exact Nat.add_le_add_left short _) opening
  have reaches := @OnLine.reaches false mark.column indents' reversed' rest behind
    (mark.advance (key.toList ++ [':'])) emptyLines column _ _ (onLine_quotedRaw quotable _) next
    (by rw [Mark.column_advance, List.length_append, List.length_singleton]; omega)
  have whole := Reaches.of_steps steps added reaches
  simpa using whole

/-- Entries with empty lines between them are read as the entries. -/
theorem reaches_spacedLines {depth : Nat} (entries : List (Value × Value)) (nonempty : entries ≠ [])
    (legible : entriesLegible depth entries = true)
    (unkept : ∀ entry ∈ entries.dropLast, entry.2.keepsLineEnds = false)
    (column_eq : mark.column = 0)
    (opening : Opening .blockMappingStart 0 indent indents opened indents') :
    Reaches (stand true none ⟨spacedLines entries, mark⟩ indent indents reversed)
      (opened ++ entryKinds entries) [] 0 0 indents' := by
  induction entries generalizing indent indents opened reversed mark with
  | nil => exact absurd rfl nonempty
  | cons entry entries ih =>
      obtain ⟨key, value⟩ := entry
      rw [entriesLegible, Bool.and_eq_true, Bool.and_eq_true] at legible
      obtain ⟨⟨keyLegible, valueLegible⟩, moreLegible⟩ := legible
      have entry {behind rest : List Char} {emptyLines : Nat}
          (next : NextLine behind emptyLines 0 rest)
          (keeps : value.keepsLineEnds = true → emptyLines = 0) :
          Reaches (stand true none ⟨entryText 0 key value ++ behind, mark⟩ indent indents reversed)
            (opened ++ .key :: (nodeKinds .afterMark key ++ .value ::
              nodeKinds (if (shortKey? key).isSome then .afterKey else .afterMark) value))
            rest 0 0 indents' := by
        rw [← column_eq] at opening
        have reaches := @reaches_entry indent indents reversed rest behind mark emptyLines 0 opened
          indents' depth key value (nodeReaches key) (nodeReaches value) keyLegible valueLegible
          next (Nat.zero_le _) keeps opening
        rwa [column_eq] at reaches
      rw [spacedLines, entryKinds]
      cases entries with
      | nil =>
          have reaches := @entry [] [] 0 ⟨opens_nil, rfl⟩ fun _ => rfl
          simpa [entryKinds] using reaches
      | cons second entries =>
          obtain ⟨nextKey, nextValue⟩ := second
          have opens : Opens (spacedLines ((nextKey, nextValue) :: entries)) := by
            rw [entriesLegible, Bool.and_eq_true, Bool.and_eq_true] at moreLegible
            exact opens_entryText moreLegible.1.1 _ _
          have first := @entry _ _ 1 ⟨opens, rfl⟩ fun keeps => by
            rw [unkept (key, value) (by simp)] at keeps
            cases keeps
          have whole := first.trans fun place reversed column_eq =>
            @ih 0 indents' reversed place [] (List.cons_ne_nil _ _) moreLegible
              (fun entry member => unkept entry (by simp [member])) column_eq (.goesOn indents')
          simpa using whole

end Lexer

/-! ## Documents -/

namespace Value

variable {entries : List (Value × Value)}

theorem ofSource_spacedLines (nonempty : entries ≠ [])
    (legible : entriesLegible depthBelowRoot entries = true)
    (unkept : ∀ entry ∈ entries.dropLast, entry.2.keepsLineEnds = false) :
    ofSource (String.ofList (spacedLines entries)) = .ok (.mapping entries) :=
  ofSource_of_reaches (printed_spacedLines entries)
    (Lexer.reaches_spacedLines entries nonempty legible unkept rfl (.starts [] (by decide)))
    (Reading.entriesRead entries depthBelowRoot legible)

/-- A line in front of the entries gives an entry with a text. -/
theorem ofSource_quotedEntry {key text : String} (style : Style.ofText key = .plain)
    (short : bytes key.toList ≤ Lexer.longestPending) (quotable : isQuotable text = true)
    (nonempty : entries ≠ []) (legible : entriesLegible depthBelowRoot entries = true)
    (unkept : ∀ entry ∈ entries.dropLast, entry.2.keepsLineEnds = false) :
    ofSource (String.ofList
      (key.toList ++ ':' :: ' ' :: (quotedRaw text ++ '\n' :: spacedLines entries))) =
        .ok (.mapping ((.string key, .string text) :: entries)) := by
  obtain ⟨⟨firstKey, firstValue⟩, more, rfl⟩ := List.exists_cons_of_ne_nil nonempty
  have opens : Opens (spacedLines ((firstKey, firstValue) :: more)) := by
    rw [entriesLegible, Bool.and_eq_true, Bool.and_eq_true] at legible
    exact Lexer.opens_entryText legible.1.1 _ _
  have first := @Lexer.reaches_quotedEntry (-1) [] [-1] [⟨.streamStart, .start, .start⟩] _ _ .start
    [.blockMappingStart] key text (Style.isPlain_of_plain style) short quotable 0 0 ⟨opens, rfl⟩
    (.starts [] (by decide))
  have whole := first.trans fun place reversed column_eq =>
    Lexer.reaches_spacedLines _ nonempty legible unkept column_eq (.goesOn [-1])
  refine ofSource_of_reaches ?_ whole ?_
  · exact printed_append (inline_of_plain style).printed (printed_cons rfl (printed_cons rfl
      (printed_append (inline_quotedRaw quotable).printed
        (printed_cons rfl (printed_spacedLines _)))))
  · have keyForm := Reading.scalarValue_text key
    rw [textForm, if_pos style] at keyForm
    exact Reading.entryKindsRead_cons (Reading.kindsRead_scalar .afterMark keyForm)
      (Reading.kindsRead_scalar .afterKey rfl) (Reading.entriesRead _ _ legible)
      (by simp [entryKinds])

end Value

end FleetCompose.Yaml
