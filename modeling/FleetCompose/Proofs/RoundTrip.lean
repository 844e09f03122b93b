import FleetCompose.Proofs.ParsedValues
import FleetCompose.Proofs.WrittenCharacters

/-!
# Reading back what was written

A mapping that is written as a document is read back as the mapping, provided that its texts do
not hold line or paragraph separators, that its numbers are written so that they can be read, and
that it has no tags and is not nested too deep.
-/

namespace FleetCompose

/-- Read the value of a source, which has to be a single document. -/
def Yaml.Value.ofSource (source : String) : Except ReadError Yaml.Value :=
  let tree := Tree.ofSource source
  match (Read.value Read.depthLimit [] tree.root tree).run 0 with
  | .error error => .error error
  | .ok (value, _) =>
      match tree.failure with
      | some cause => .error (.brokenOff cause)
      | none => if tree.followed then .error .severalDocuments else .ok value

namespace Yaml

open Value (spaces entryLines entriesLegible entryKinds itemsLegible isLegible)

namespace Lexer

theorem firstForbidden?_eq_none {cs : List Char} (printed : Printed cs) (position : Nat) :
    firstForbidden? position cs = none := by
  induction cs generalizing position with
  | nil => rfl
  | cons c cs ih =>
      obtain ⟨first, more⟩ := List.forall_mem_cons.mp printed
      rw [firstForbidden?, if_pos (isAllowed_of_isPrintable first), ih more]

theorem opens_nil : Opens [] := ⟨fun c head => (by cases head), by simp, by simp⟩

/-- At the end of a document its mapping ends. -/
theorem exists_run_end {place : Mark} {reversed : List Token} (column : place.column = 0) :
    ∃ tokens, tokens.map Token.kind = kinds reversed ++ [.blockEnd, .streamEnd] ∧
      ∀ fuel, 0 < fuel →
        run fuel (stand true none ⟨[], place⟩ 0 [-1] reversed) = ⟨tokens, none⟩ := by
  let ended : Lexer := { stand false none ⟨[], place⟩ (-1) []
    (⟨.streamEnd, place, place⟩ :: ⟨.blockEnd, place, place⟩ :: reversed) with ended := true }
  have fetched : (stand true none ⟨[], place⟩ 0 [-1] reversed).fetch = .ok ended := by
    rw [fetch_stand opens_nil, unindentTo_of_le (.inr (by rw [column]; exact Int.le_refl 0)),
      fetchHere]
    simp only [stand, Cursor.next?_mk, List.head?_nil, fetchEnd, Lexer.mark, column, ↓reduceIte]
    rfl
  have fresh : ended.dropStale = .ok ended := dropStale_of_fresh (by simp [ended, stand])
  refine ⟨ended.reversed.reverse, by simp [ended, stand, kinds], fun fuel positive => ?_⟩
  obtain ⟨fuel, rfl⟩ := Nat.exists_eq_add_of_le' positive
  rw [run, fetched]
  simp only [Except.bind, fresh]
  rfl

/-- A document whose mapping is gone through up to the end is cut into the tokens found there. -/
theorem exists_lex {source : String} {more : List TokenKind} (printed : Printed source.toList)
    (reaches : Reaches (start source) more [] 0 0 [-1]) :
    ∃ tokens, tokens.map Token.kind = .streamStart :: (more ++ [.blockEnd, .streamEnd]) ∧
      lex source = ⟨tokens, none⟩ := by
  obtain ⟨place, reversed, column, kinds_eq, steps⟩ := reaches
  obtain ⟨tokens, tokens_eq, ends⟩ := @exists_run_end place reversed column
  refine ⟨tokens, ?_, ?_⟩
  · rw [tokens_eq, kinds_eq]
    rfl
  · rw [lex, firstForbidden?_eq_none printed]
    refine run_of_steps steps (fun fuel enough => ends fuel (Nat.zero_lt_of_lt enough)) _ ?_
    simp only [start, Cursor.ofSource, String.length_toList]
    omega

end Lexer

namespace Value

/-- How deep the collections in a document may be nested below the root. -/
def depthBelowRoot : Nat := Read.depthLimit - 1

/-- A document is read as a mapping if its tokens are. -/
theorem ofSource_of_lex {source : String} {tokens : List Token} {kinds : List TokenKind}
    {entries : List (Value × Value)} (lexed : lex source = ⟨tokens, none⟩)
    (kinds_eq : tokens.map Token.kind =
      .streamStart :: .blockMappingStart :: (kinds ++ [.blockEnd, .streamEnd]))
    (reads : Reading.EntryKindsRead depthBelowRoot kinds entries) :
    ofSource source = .ok (.mapping entries) := by
  obtain ⟨streamStart, rest, rfl, -, rest_eq⟩ := List.map_eq_cons_iff.mp kinds_eq
  obtain ⟨start, rest, rfl, start_eq, rest_eq⟩ := List.map_eq_cons_iff.mp rest_eq
  rw [show kinds ++ [TokenKind.blockEnd, .streamEnd] = (kinds ++ [.blockEnd]) ++ [.streamEnd] by
    simp] at rest_eq
  obtain ⟨front, behind, rfl, front_eq, behind_eq⟩ := List.map_eq_append_iff.mp rest_eq
  obtain ⟨streamEnd, rest, rfl, end_eq, rest_eq⟩ := List.map_eq_cons_iff.mp behind_eq
  cases List.map_eq_nil_iff.mp rest_eq
  let initial : Reading :=
    ⟨[], .syntaxError (.bare .quotedEnd .start), none, Reading.standardHandles, [], [], []⟩
  have document (fuel : Nat) : Reading.document fuel
      { initial.withTokens ((start :: front) ++ [streamEnd]) with handles := [] } =
        Reading.node fuel true false (initial.withTokens ((start :: front) ++ [streamEnd])) := by
    obtain ⟨kind, first, last⟩ := start
    cases start_eq
    rfl
  obtain ⟨root, root_eq, denotes⟩ := @Reading.EntryKindsRead.exists_node initial
    (start :: front) [streamEnd] (4 * (streamStart :: start :: (front ++ [streamEnd])).length + 4)
    false depthBelowRoot kinds entries reads rfl (by rw [List.map_cons, start_eq, front_eq])
    (by simp; omega)
  have tree : Tree.ofSource source = ⟨root, [], none, false⟩ := by
    simp only [Tree.ofSource, lexed, List.drop_succ_cons, List.drop_zero, Option.getD_none]
    rw [show (⟨start :: (front ++ [streamEnd]), .syntaxError (.bare .quotedEnd .start), none, [],
      [], [], []⟩ : Reading) = { initial.withTokens ((start :: front) ++ [streamEnd]) with
        handles := [] } from rfl, document, root_eq]
    simp [Reading.finish, Reading.skipEnds, Reading.withTokens, Reading.peek?, end_eq, initial]
  have value := denotes [] ⟨root, [], none, false⟩ 0
  have run : (Read.value Read.depthLimit [] root ⟨root, [], none, false⟩).run 0 =
    .ok (.mapping entries, 0) := value
  simp only [ofSource, tree, run]
  rfl

/-- The lexer in front of the characters of a document. -/
def atStart (cs : List Char) : Lexer :=
  Lexer.stand true none ⟨cs, .start⟩ (-1) [] [⟨.streamStart, .start, .start⟩]

theorem ofSource_of_reaches {cs : List Char} {kinds : List TokenKind}
    {entries : List (Value × Value)} (printed : Printed cs)
    (reaches : Lexer.Reaches (atStart cs) (.blockMappingStart :: kinds) [] 0 0 [-1])
    (reads : Reading.EntryKindsRead depthBelowRoot kinds entries) :
    ofSource (String.ofList cs) = .ok (.mapping entries) := by
  have source : Lexer.start (String.ofList cs) = atStart cs := by
    rw [Lexer.start, Cursor.ofSource, String.toList_ofList]
    rfl
  obtain ⟨tokens, kinds_eq, lexed⟩ := @Lexer.exists_lex (String.ofList cs) _
    (by rwa [String.toList_ofList]) (source ▸ reaches)
  exact ofSource_of_lex lexed kinds_eq reads

/-- What the writer writes for a mapping is read back as the mapping. -/
theorem ofSource_documentText {entries : List (Value × Value)}
    (legible : (Value.mapping entries).isLegible Read.depthLimit = true) :
    ofSource (documentText entries) = .ok (.mapping entries) := by
  cases entries with
  | nil => rfl
  | cons entry entries =>
      rw [isLegible, Bool.and_eq_true] at legible
      have reaches := Lexer.entriesReach (entry :: entries) depthBelowRoot 0 0 (-1) [] [-1]
        [.blockMappingStart] [⟨.streamStart, .start, .start⟩] [] [] .start (List.cons_ne_nil _ _)
        legible.2 ⟨Lexer.opens_nil, rfl⟩ (Nat.le_refl 0) (fun _ => rfl) (.starts [] (by decide))
      rw [List.append_nil] at reaches
      exact ofSource_of_reaches (printed_entryLines _ 0 printed_nil) reaches
        (Reading.entriesRead _ depthBelowRoot legible.2)

end Value

end Yaml

end FleetCompose
