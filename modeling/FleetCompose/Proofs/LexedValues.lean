import FleetCompose.Document.Read
import FleetCompose.Proofs.LexedLines
import FleetCompose.Proofs.WrittenTexts

/-!
# Lexing written values

The tokens of a written value can be told from the value. The lexer finds them line by line: one
lemma for each kind of value, put together along the tree.
-/

namespace FleetCompose.Yaml

open Value (spaces Place)

/-! ## Values that can be read back -/

/-- Does the written form of a number stand for the number? -/
def Number.isLegible : Number → Bool
  | .int value => Read.fits value && Plain.resolve (Number.int value).text == .integer value
  | .float value => Plain.resolve (Number.float value).text == .float value

namespace Value

mutual

/-- Is the value one that can be written and read back? Its collections must not be nested more
than `depth` deep, its texts must not hold separators, and it must not have tags. -/
def isLegible (depth : Nat) : Value → Bool
  | .null | .bool _ => true
  | .number n => n.isLegible
  | .string text => separatorFree text.toList
  | .sequence items => 0 < depth && itemsLegible (depth - 1) items
  | .mapping entries => 0 < depth && entriesLegible (depth - 1) entries
  | .tagged _ _ => false

def itemsLegible (depth : Nat) : List Value → Bool
  | [] => true
  | item :: items => isLegible depth item && itemsLegible depth items

def entriesLegible (depth : Nat) : List (Value × Value) → Bool
  | [] => true
  | (key, value) :: entries =>
      (isLegible depth key && isLegible depth value) && entriesLegible depth entries

end

theorem entriesLegible_append {depth : Nat} (front back : List (Value × Value)) :
    entriesLegible depth (front ++ back) =
      (entriesLegible depth front && entriesLegible depth back) := by
  induction front with
  | nil => rfl
  | cons entry front ih =>
      rw [List.cons_append, entriesLegible, entriesLegible, ih]
      simp only [Bool.and_assoc]

mutual

/-- Does the written value end with a block that keeps the empty lines behind it? -/
def keepsLineEnds : Value → Bool
  | .string text => Style.ofText text == .literal && chompingIndicator text.toList == ['+']
  | .sequence items => itemsKeepLineEnds items
  | .mapping entries => entriesKeepLineEnds entries
  | .tagged _ value => keepsLineEnds value
  | .null | .bool _ | .number _ => false

def itemsKeepLineEnds : List Value → Bool
  | [] => false
  | item :: items => if items.isEmpty then keepsLineEnds item else itemsKeepLineEnds items

def entriesKeepLineEnds : List (Value × Value) → Bool
  | [] => false
  | (_, value) :: entries =>
      if entries.isEmpty then keepsLineEnds value else entriesKeepLineEnds entries

end

/-! ## Tokens of a value -/

/-- Is a text written plain or in another form? -/
def textForm (text : String) : ScalarForm :=
  if Style.ofText text = .plain then .plain else .quoted

mutual

/-- The kinds of the tokens of a value. The items of a sequence that is not indented have no
tokens around them. -/
def nodeKinds (place : Place) : Value → List TokenKind
  | .null => [.scalar "null" .plain]
  | .bool value => [.scalar (if value then "true" else "false") .plain]
  | .number n => [.scalar n.text .plain]
  | .string text => [.scalar text (textForm text)]
  | .sequence [] => [.flowSequenceStart, .flowSequenceEnd]
  | .sequence items =>
      if place.inEntry && !place.fresh then itemKinds items
      else .blockSequenceStart :: itemKinds items ++ [.blockEnd]
  | .mapping [] => [.flowMappingStart, .flowMappingEnd]
  | .mapping entries => .blockMappingStart :: entryKinds entries ++ [.blockEnd]
  | .tagged _ value => nodeKinds place.afterTag value

def itemKinds : List Value → List TokenKind
  | [] => []
  | item :: items => .blockEntry :: nodeKinds .afterDash item ++ itemKinds items

def entryKinds : List (Value × Value) → List TokenKind
  | [] => []
  | (key, value) :: entries =>
      .key :: nodeKinds .afterMark key ++
        .value :: nodeKinds (if (shortKey? key).isSome then .afterKey else .afterMark) value ++
        entryKinds entries

end

/-! ## Lines of a value -/

theorem itemLines_cons (pad : List Char) (m : Nat) (item : Value) (items : List Value) :
    itemLines pad m (item :: items) =
      pad ++ '-' :: (nodeLines .afterDash m item ++ itemLines (spaces m) m items) := by
  rw [itemLines]
  simp

/-- The lines of an entry. -/
def entryText (m : Nat) (key value : Value) : List Char :=
  match shortKey? key with
  | some text => text ++ ':' :: nodeLines .afterKey m value
  | none =>
      '?' :: (nodeLines .afterMark m key ++
        (spaces m ++ ':' :: nodeLines .afterMark m value))

theorem entryLines_cons (pad : List Char) (m : Nat) (key value : Value)
    (entries : List (Value × Value)) :
    entryLines pad m ((key, value) :: entries) =
      pad ++ (entryText m key value ++ entryLines (spaces m) m entries) := by
  rw [entryLines, entryText]
  cases shortKey? key <;> simp

end Value

namespace Lexer

open Value

variable {keyAllowed : Bool} {indent : Int} {indents : List Int} {reversed : List Token}
variable {rest behind after : List Char} {mark : Mark} {n emptyLines column : Nat}

/-! ## Pieces of lines -/

theorem onLine_doubleQuoted (text : String) (tail : List Char) :
    OnLine (doubleQuoted text.toList) tail [.scalar text .quoted] := by
  have scanned := @onLine_quoted false _ tail text.toList (by simp [doubleQuoted, Token.quote])
    fun mark => Token.quotedScalar_doubleQuoted
  rwa [String.ofList_toList] at scanned

theorem onLine_singleQuoted {text : String} {tail : List Char} (pad : List Char)
    (free : separatorFree text.toList = true) (style : Style.ofText text = .singleQuoted)
    (apart : tail.head? ≠ some '\'') :
    OnLine (singleQuoted pad text.toList) tail [.scalar text .quoted] := by
  have scanned := @onLine_quoted true (singleQuoted pad text.toList) tail text.toList
    (by simp [singleQuoted, Token.quote]) fun mark =>
      Token.quotedScalar_singleQuoted (Style.inline_of_singleQuoted free style) apart
  rwa [String.ofList_toList] at scanned

theorem onLine_keyText {text : String} (free : separatorFree text.toList = true)
    (separates : Separates after) :
    OnLine (keyText text) (':' :: after) [.scalar text (textForm text)] := by
  rw [keyText, textForm]
  cases style : Style.ofText text with
  | plain =>
      have scanned := onLine_plain (Style.isPlain_of_plain style) separates.endsWord
      rwa [String.ofList_toList] at scanned
  | singleQuoted => exact onLine_singleQuoted [] free style (by simp)
  | doubleQuoted => exact onLine_doubleQuoted text _
  | literal => exact onLine_doubleQuoted text _

theorem numberLike_of_isLegible {number : Number} (legible : number.isLegible = true) :
    Plain.NumberLike number.text.toList := by
  have resolved : Plain.resolve number.text ≠ .text ∧ Plain.resolve number.text ≠ .null := by
    cases number with
    | int value =>
        simp only [Number.isLegible, Bool.and_eq_true, beq_iff_eq] at legible
        rw [legible.2]
        exact ⟨Plain.noConfusion, Plain.noConfusion⟩
    | float value =>
        simp only [Number.isLegible, beq_iff_eq] at legible
        rw [legible]
        exact ⟨Plain.noConfusion, Plain.noConfusion⟩
  refine Plain.numberLike_of_resolve (fun empty => resolved.2 ?_) resolved.1
  rw [empty]
  rfl

/-- The words for null and for the truth values are plain. -/
theorem isPlain_of_word {text : String} (word : text ∈ ["null", "true", "false"]) :
    IsPlain text.toList :=
  (Plain.numberLike_of_mem word (by decide)).isPlain

theorem onLine_plainKey {text : String} (plain : IsPlain text.toList)
    (size : text.length ≤ longestKey) (separates : Separates after) :
    OnLine text.toList (':' :: after) [.scalar text .plain] ∧
      bytes text.toList ≤ longestPending := by
  have scanned := onLine_plain plain separates.endsWord
  have bound := bytes_le_length text.toList
  rw [String.length_toList] at bound
  rw [String.ofList_toList] at scanned
  simp only [longestKey] at size
  simp only [longestPending]
  exact ⟨scanned, by omega⟩

/-- A key on a line is read from there, and is not too long for its colon. -/
theorem onLine_lineKey {key : Value} {cs : List Char} {depth size : Nat}
    (legible : key.isLegible depth = true) (line : lineKey? key = some (cs, size))
    (small : size ≤ longestKey) (separates : Separates after) :
    OnLine cs (':' :: after) (nodeKinds .afterMark key) ∧ bytes cs ≤ longestPending := by
  cases key with
  | null =>
      cases line
      exact onLine_plainKey (isPlain_of_word (by decide)) small separates
  | bool value =>
      cases value <;> cases line <;>
        exact onLine_plainKey (isPlain_of_word (by decide)) small separates
  | number number =>
      rw [isLegible] at legible
      cases line
      exact onLine_plainKey (numberLike_of_isLegible legible).isPlain small separates
  | string text =>
      rw [isLegible] at legible
      rw [lineKey?] at line
      split at line
      next => cases line
      next =>
        cases line
        exact ⟨onLine_keyText legible separates, bytes_keyText_le legible small⟩
  | sequence items =>
      cases items with
      | nil =>
          cases line
          exact ⟨onLine_emptySequence _, by decide⟩
      | cons item items => cases line
  | mapping entries =>
      cases entries with
      | nil =>
          cases line
          exact ⟨onLine_emptyMapping _, by decide⟩
      | cons entry entries => cases line
  | tagged tag value => cases legible

theorem onLine_shortKey {key : Value} {cs : List Char} {depth : Nat}
    (legible : key.isLegible depth = true) (short : shortKey? key = some cs)
    (separates : Separates after) :
    OnLine cs (':' :: after) (nodeKinds .afterMark key) ∧ bytes cs ≤ longestPending := by
  unfold shortKey? at short
  split at short
  next => cases legible
  next =>
    split at short
    next text size line =>
      split at short
      next small =>
        cases short
        exact onLine_lineKey legible line small separates
      next => cases short
    next => cases short

/-! ## Lines of values -/

/-- The lexer comes to the start of a line, and reads tokens of the kinds on its way. -/
def Reaches (first : Lexer) (more : List TokenKind) (rest : List Char) (column : Nat)
    (indent : Int) (indents : List Int) : Prop :=
  ∃ place reversed, place.column = column ∧ kinds reversed = kinds first.reversed ++ more ∧
    Steps first (stand true none ⟨rest, place⟩ indent indents reversed)

theorem Reaches.of_steps {first second : Lexer} {front back : List TokenKind}
    (steps : Steps first second) (added : kinds second.reversed = kinds first.reversed ++ front)
    (reaches : Reaches second back rest column indent indents) :
    Reaches first (front ++ back) rest column indent indents := by
  obtain ⟨place, reversed, column_eq, kinds_eq, more⟩ := reaches
  exact ⟨place, reversed, column_eq, by rw [kinds_eq, added, List.append_assoc], steps.trans more⟩

theorem Reaches.of_pass {first second : Lexer} {more : List TokenKind}
    (same : first.fetch = second.fetch)
    (shorter : second.cursor.rest.length ≤ first.cursor.rest.length)
    (unchanged : second.reversed = first.reversed)
    (reaches : Reaches second more rest column indent indents) :
    Reaches first more rest column indent indents := by
  obtain ⟨place, reversed, column_eq, kinds_eq, steps⟩ := reaches
  exact ⟨place, reversed, column_eq, unchanged ▸ kinds_eq, .pass same shorter steps⟩

/-- A block collection ends at a line that is indented less. -/
theorem Reaches.close {first : Lexer} {more : List TokenKind} {outer : Int} (opens : Opens rest)
    (less : column < indent)
    (reaches : Reaches first more rest column indent (outer :: indents)) :
    Reaches first (more ++ [.blockEnd]) rest column outer indents := by
  obtain ⟨place, reversed, rfl, kinds_eq, steps⟩ := reaches
  refine ⟨place, ⟨.blockEnd, place, place⟩ :: reversed, rfl, ?_,
    steps.trans (.of_pass (fetch_less opens less) (Nat.le_refl _))⟩
  rw [kinds_cons, kinds_eq, List.append_assoc]

/-- What can be read from a piece of a line is read from the end of a line. -/
theorem OnLine.reaches {cs : List Char} {more : List TokenKind}
    (onLine : OnLine cs ('\n' :: behind) more) (next : NextLine behind emptyLines column rest)
    (inside : indent < mark.column) :
    Reaches (stand keyAllowed none ⟨' ' :: (cs ++ '\n' :: behind), mark⟩ indent indents reversed)
      more rest column indent indents := by
  refine .of_pass (fetch_spaces onLine.opens 1) (by simp [stand]) rfl ?_
  have inside' : indent < (mark.advance (spaces 1)).column := by
    rw [Mark.column_advance]
    omega
  obtain ⟨tokens, pending, kinds_eq, kept, steps⟩ := onLine.steps keyAllowed indent indents
    reversed (mark.advance (spaces 1)) (Int.le_of_lt inside') (.inl inside')
  refine ⟨_, tokens ++ reversed, rfl, ?_, steps.trans
    (.of_pass (fetch_lineEnd (kept.optional inside') next) ?_)⟩
  · have forward : kinds tokens = more := by rw [kinds, kinds_eq, List.reverse_reverse]
    rw [kinds_append, forward]
    rfl
  · simp only [stand, next.eq, List.length_append, List.length_cons]
    omega

theorem reaches_plain {text : String} (plain : IsPlain text.toList)
    (next : NextLine behind emptyLines column rest) (less : column ≤ indent)
    (inside : indent < mark.column) :
    Reaches (stand keyAllowed none ⟨' ' :: (text.toList ++ '\n' :: behind), mark⟩ indent indents
      reversed) [.scalar text .plain] rest column indent indents := by
  refine .of_pass (fetch_spaces (plain.opens _) 1) (by simp [stand]) rfl ?_
  obtain ⟨token, kind, steps⟩ := @steps_plain keyAllowed indent indents reversed rest behind
    (mark.advance (spaces 1)) _ emptyLines column plain next less
    (by rw [Mark.column_advance]; omega)
  rw [String.ofList_toList] at kind
  exact ⟨_, token :: reversed, rfl, by rw [kinds_cons, kind]; rfl, steps⟩

/-- The lines of a text. -/
theorem reaches_text {text : String} (free : separatorFree text.toList = true)
    (next : NextLine behind emptyLines column rest) (less : column ≤ n) (inside : n < mark.column)
    (keeps : keepsLineEnds (.string text) = true → emptyLines = 0) :
    Reaches (stand keyAllowed none ⟨' ' :: textLine (spaces (n + 2)) text ++ behind, mark⟩ n indents
      reversed) [.scalar text (textForm text)] rest column n indents := by
  have less' : (column : Int) ≤ n := Int.ofNat_le.mpr less
  have inside' : (n : Int) < mark.column := Int.ofNat_lt.mpr inside
  rw [keepsLineEnds] at keeps
  rw [textLine, textForm]
  cases style : Style.ofText text with
  | plain =>
      have read := @reaches_plain keyAllowed n indents reversed rest behind mark emptyLines column
        text (Style.isPlain_of_plain style) next less' inside'
      simpa using read
  | singleQuoted =>
      have read := @OnLine.reaches keyAllowed n indents reversed rest behind mark emptyLines column
        _ _ (onLine_singleQuoted (spaces (n + 2)) free style (by simp)) next inside'
      simpa using read
  | doubleQuoted =>
      have read := @OnLine.reaches keyAllowed n indents reversed rest behind mark emptyLines column
        _ _ (onLine_doubleQuoted text _) next inside'
      simpa using read
  | literal =>
      obtain ⟨multiline, feeds, tabFree⟩ := Style.lines_of_literal free style
      have opens : Opens (literalBlock (spaces (n + 2)) text.toList ++ behind) := by
        simp only [literalBlock, List.append_assoc, List.cons_append]
        exact .of_head '|' (by decide)
      refine .of_pass (fetch_spaces opens 1) (by simp [stand]) rfl ?_
      obtain ⟨token, place, kind, column_eq, steps⟩ := @exists_steps_block keyAllowed indents
        reversed rest behind (mark.advance (spaces 1)) text.toList n emptyLines column multiline
        feeds tabFree next less (by rw [Mark.column_advance]; omega)
        fun indicator => keeps (by simp [style, indicator])
      rw [String.ofList_toList] at kind
      exact ⟨place, token :: reversed, column_eq, by rw [kinds_cons, kind]; rfl, steps⟩

theorem Reaches.trans {first : Lexer} {front back : List TokenKind} {line : List Char}
    {column' : Nat} {indent' : Int} {indents' : List Int}
    (reaches : Reaches first front line column indent indents)
    (more : ∀ place reversed, place.column = column →
      Reaches (stand true none ⟨line, place⟩ indent indents reversed) back rest column' indent'
        indents') : Reaches first (front ++ back) rest column' indent' indents' := by
  obtain ⟨place, reversed, column_eq, kinds_eq, steps⟩ := reaches
  exact .of_steps steps kinds_eq (more place reversed column_eq)

/-- A nested collection starts on its column. -/
theorem reaches_pad {place : Place} {m : Nat} {line : List Char} {more : List TokenKind}
    {indent' : Int} {indents' : List Int} (opens : Opens line)
    (fresh : place.fresh = true → mark.column + 1 = m)
    (reaches : ∀ mark : Mark, mark.column = m →
      Reaches (stand true none ⟨line, mark⟩ indent indents reversed) more rest column indent'
        indents') :
    Reaches (stand place.fresh none ⟨firstPad place m ++ line, mark⟩ indent indents reversed) more
      rest column indent' indents' := by
  rw [firstPad]
  cases isFresh : place.fresh with
  | true => exact .of_pass (fetch_spaces opens 1) (by simp [stand]) rfl (reaches _ (fresh isFresh))
  | false =>
      have next : NextLine (spaces m ++ line) 0 m line := ⟨opens, rfl⟩
      exact .of_pass (fetch_lineEnd (optional_none _) next)
        (by simp [stand]; omega) rfl (reaches _ rfl)

/-- A nested collection that is indented ends at a line that is indented less. -/
theorem reaches_nested {place : Place} {line : List Char} {more : List TokenKind}
    (opens : Opens line) (fresh : place.fresh = true → mark.column = n + 1) (next : Opens rest)
    (less : column ≤ n)
    (reaches : ∀ mark : Mark, mark.column = n + 2 →
      Reaches (stand true none ⟨line, mark⟩ n indents reversed) more rest column
        (n + 2 : Nat) (n :: indents)) :
    Reaches (stand place.fresh none ⟨firstPad place (n + 2) ++ line, mark⟩ n indents reversed)
      (more ++ [.blockEnd]) rest column n indents := by
  refine reaches_pad opens (fun isFresh => by rw [fresh isFresh]) fun mark column_eq => ?_
  exact (reaches mark column_eq).close next (by omega)

/-! ## Trees -/

theorem separates_firstPad (place : Place) (m : Nat) (line : List Char) :
    Separates (firstPad place m ++ line) := by
  rw [firstPad]
  split
  next => exact ⟨' ', _, rfl, .inl rfl⟩
  next => exact ⟨'\n', _, rfl, .inr rfl⟩

/-- What a written value starts with ends the token in front of it. -/
theorem separates_nodeLines (place : Place) (n : Nat) (value : Value) (behind : List Char) :
    Separates (nodeLines place n value ++ behind) := by
  have space {cs : List Char} : Separates (' ' :: cs) := ⟨' ', cs, rfl, .inl rfl⟩
  cases value with
  | null => exact space
  | bool value => cases value <;> exact space
  | number number => exact space
  | string text => exact space
  | sequence items =>
      cases items with
      | nil => exact space
      | cons item items =>
          rw [nodeLines, itemLines_cons, List.append_assoc]
          · exact separates_firstPad _ _ _
          · exact List.cons_ne_nil _ _
  | mapping entries =>
      cases entries with
      | nil => exact space
      | cons entry entries =>
          rw [nodeLines, entryLines_cons, List.append_assoc]
          · exact separates_firstPad _ _ _
          · exact List.cons_ne_nil _ _
  | tagged tag value => exact space

/-- The lines of a value are read as its tokens, wherever the value stands. -/
def NodeReaches (value : Value) : Prop :=
  ∀ (depth : Nat) (place : Place) (n emptyLines column : Nat) (indents : List Int)
    (reversed : List Token) (rest behind : List Char) (mark : Mark),
    value.isLegible depth = true → NextLine behind emptyLines column rest → column ≤ n →
    n < mark.column → (place.fresh = true → mark.column = n + 1) →
    (value.keepsLineEnds = true → emptyLines = 0) →
    Reaches (stand place.fresh none ⟨nodeLines place n value ++ behind, mark⟩ n indents reversed)
      (nodeKinds place value) rest column n indents

variable {opened : List TokenKind} {indents' : List Int} {depth : Nat}

theorem reaches_item {item : Value} (node : NodeReaches item)
    (legible : item.isLegible depth = true) (next : NextLine behind emptyLines column rest)
    (less : column ≤ mark.column) (keeps : item.keepsLineEnds = true → emptyLines = 0)
    (opening : Opening .blockSequenceStart mark.column indent indents opened indents') :
    Reaches (stand true none ⟨'-' :: (nodeLines .afterDash mark.column item ++ behind), mark⟩ indent
        indents reversed)
      (opened ++ .blockEntry :: nodeKinds .afterDash item) rest column mark.column indents' := by
  obtain ⟨reversed', added, steps⟩ := @exists_steps_dash indent indents reversed mark opened
    indents' (nodeLines .afterDash mark.column item ++ behind) opening
    (separates_nodeLines _ _ _ _)
  have reaches := node depth .afterDash mark.column emptyLines column indents' reversed' rest
    behind (mark.advance ['-']) legible next less (Nat.lt_succ_self _) (fun _ => rfl) keeps
  rw [List.append_assoc] at added
  have whole := Reaches.of_steps steps added reaches
  rwa [List.append_assoc] at whole

theorem opens_entryText {key value : Value} (legible : key.isLegible depth = true) (m : Nat)
    (behind : List Char) : Opens (entryText m key value ++ behind) := by
  rw [entryText]
  cases short : shortKey? key with
  | some text =>
      obtain ⟨onLine, -⟩ := onLine_shortKey legible short
        (separates_nodeLines .afterKey m value behind)
      simpa using onLine.opens
  | none => exact .of_head '?' (by decide)

theorem reaches_entry {key value : Value} (keyNode : NodeReaches key)
    (valueNode : NodeReaches value) (keyLegible : key.isLegible depth = true)
    (legible : value.isLegible depth = true) (next : NextLine behind emptyLines column rest)
    (less : column ≤ mark.column) (keeps : value.keepsLineEnds = true → emptyLines = 0)
    (opening : Opening .blockMappingStart mark.column indent indents opened indents') :
    Reaches (stand true none ⟨entryText mark.column key value ++ behind, mark⟩ indent indents
        reversed)
      (opened ++ .key :: (nodeKinds .afterMark key ++ .value ::
        nodeKinds (if (shortKey? key).isSome then .afterKey else .afterMark) value))
      rest column mark.column indents' := by
  rw [entryText]
  cases short : shortKey? key with
  | some text =>
      have separates := separates_nodeLines .afterKey mark.column value behind
      obtain ⟨onLine, size⟩ := onLine_shortKey keyLegible short separates
      obtain ⟨reversed', added, steps⟩ := @exists_steps_key indent indents reversed mark opened
        indents' _ text _ onLine separates
        (by rw [index_advance]; exact Nat.add_le_add_left size _) opening
      have reaches := valueNode depth .afterKey mark.column emptyLines column indents' reversed'
        rest behind (mark.advance (text ++ [':'])) legible next less
        (by simp) (fun isFresh => by cases isFresh) keeps
      have whole := Reaches.of_steps steps added reaches
      simpa using whole
  | none =>
      have separates := separates_nodeLines .afterMark mark.column value behind
      have colon : Opens (':' :: (nodeLines .afterMark mark.column value ++ behind)) :=
        .of_head ':' (by decide)
      obtain ⟨reversed', added, steps⟩ := @exists_steps_question indent indents reversed mark opened
        indents' (nodeLines .afterMark mark.column key ++ (spaces mark.column ++
          ':' :: (nodeLines .afterMark mark.column value ++ behind))) opening
        (separates_nodeLines _ _ _ _)
      have reachesKey := keyNode depth .afterMark mark.column 0 mark.column indents' reversed' _ _
        (mark.advance ['?']) keyLegible ⟨colon, rfl⟩ (Nat.le_refl _) (Nat.lt_succ_self _)
        (fun _ => rfl) (fun _ => rfl)
      rw [List.append_assoc] at added
      have whole := Reaches.of_steps steps added <| reachesKey.trans fun place reversed
          column_eq => by
        obtain ⟨reversed', added, steps⟩ := @exists_steps_colon indents' reversed place _ separates
        have reaches := valueNode depth .afterMark mark.column emptyLines column indents' reversed'
          rest behind (place.advance [':']) legible next less
          (by rw [Mark.column_advance, column_eq]; exact Nat.lt_succ_self _)
          (fun _ => by rw [Mark.column_advance, column_eq]; rfl) keeps
        rw [column_eq] at steps
        exact .of_steps steps added reaches
      simpa using whole

/-- The lines of the items of a sequence are read as their tokens. -/
def ItemsReach (items : List Value) : Prop :=
  ∀ (depth emptyLines column : Nat) (indent : Int) (indents indents' : List Int)
    (opened : List TokenKind) (reversed : List Token) (rest behind : List Char) (mark : Mark),
    items ≠ [] → itemsLegible depth items = true → NextLine behind emptyLines column rest →
    column ≤ mark.column → (itemsKeepLineEnds items = true → emptyLines = 0) →
    Opening .blockSequenceStart mark.column indent indents opened indents' →
    Reaches (stand true none ⟨itemLines [] mark.column items ++ behind, mark⟩ indent indents
      reversed) (opened ++ itemKinds items) rest column mark.column indents'

/-- The lines of the entries of a mapping are read as their tokens. -/
def EntriesReach (entries : List (Value × Value)) : Prop :=
  ∀ (depth emptyLines column : Nat) (indent : Int) (indents indents' : List Int)
    (opened : List TokenKind) (reversed : List Token) (rest behind : List Char) (mark : Mark),
    entries ≠ [] → entriesLegible depth entries = true → NextLine behind emptyLines column rest →
    column ≤ mark.column → (entriesKeepLineEnds entries = true → emptyLines = 0) →
    Opening .blockMappingStart mark.column indent indents opened indents' →
    Reaches (stand true none ⟨entryLines [] mark.column entries ++ behind, mark⟩ indent indents
      reversed) (opened ++ entryKinds entries) rest column mark.column indents'

theorem itemsReach_cons {item : Value} {items : List Value} (node : NodeReaches item)
    (more : ItemsReach items) : ItemsReach (item :: items) := by
  intro depth emptyLines column indent indents indents' opened reversed rest behind mark _ legible
    next less keeps opening
  rw [itemsLegible, Bool.and_eq_true] at legible
  rw [itemsKeepLineEnds] at keeps
  rw [itemLines_cons, itemKinds]
  cases items with
  | nil =>
      have reaches := @reaches_item indent indents reversed rest behind mark emptyLines column
        opened indents' depth item node legible.1 next less keeps opening
      simpa [itemLines, itemKinds] using reaches
  | cons second items =>
      have opens : Opens (itemLines [] mark.column (second :: items) ++ behind) := by
        rw [itemLines_cons]
        exact .of_head '-' (by decide)
      have separate : itemLines (spaces mark.column) mark.column (second :: items) =
          spaces mark.column ++ itemLines [] mark.column (second :: items) := by
        rw [itemLines_cons, itemLines_cons, List.nil_append]
      have first := @reaches_item indent indents reversed _ _ mark 0 mark.column opened indents'
        depth item node legible.1 ⟨opens, rfl⟩ (Nat.le_refl _) (fun _ => rfl) opening
      have whole := first.trans fun place reversed column_eq => column_eq ▸
        more depth emptyLines column place.column indents' indents' [] reversed rest behind place
          (List.cons_ne_nil _ _) legible.2 next (column_eq ▸ less) keeps (.goesOn indents')
      rw [separate]
      simpa using whole

theorem entriesReach_cons {key value : Value} {entries : List (Value × Value)}
    (keyNode : NodeReaches key) (valueNode : NodeReaches value) (more : EntriesReach entries) :
    EntriesReach ((key, value) :: entries) := by
  intro depth emptyLines column indent indents indents' opened reversed rest behind mark _ legible
    next less keeps opening
  rw [entriesLegible, Bool.and_eq_true, Bool.and_eq_true] at legible
  obtain ⟨⟨keyLegible, valueLegible⟩, moreLegible⟩ := legible
  rw [entriesKeepLineEnds] at keeps
  rw [entryLines_cons, entryKinds]
  cases entries with
  | nil =>
      have reaches := @reaches_entry indent indents reversed rest behind mark emptyLines column
        opened indents' depth key value keyNode valueNode keyLegible valueLegible next less keeps
        opening
      simpa [entryLines, entryKinds] using reaches
  | cons second entries =>
      obtain ⟨nextKey, nextValue⟩ := second
      have opens :
          Opens (entryLines [] mark.column ((nextKey, nextValue) :: entries) ++ behind) := by
        rw [entriesLegible, Bool.and_eq_true, Bool.and_eq_true] at moreLegible
        rw [entryLines_cons, List.nil_append, List.append_assoc]
        exact opens_entryText moreLegible.1.1 _ _
      have separate :
          entryLines (spaces mark.column) mark.column ((nextKey, nextValue) :: entries) =
            spaces mark.column ++ entryLines [] mark.column ((nextKey, nextValue) :: entries) := by
        rw [entryLines_cons, entryLines_cons, List.nil_append]
      have first := @reaches_entry indent indents reversed _ _ mark 0 mark.column opened indents'
        depth key value keyNode valueNode keyLegible valueLegible ⟨opens, rfl⟩ (Nat.le_refl _)
        (fun _ => rfl) opening
      have whole := first.trans fun place reversed column_eq => column_eq ▸
        more depth emptyLines column place.column indents' indents' [] reversed rest behind place
          (List.cons_ne_nil _ _) moreLegible next (column_eq ▸ less) keeps (.goesOn indents')
      rw [separate]
      simpa using whole

theorem nodeReaches_sequence {items : List Value} (more : ItemsReach items) :
    NodeReaches (.sequence items) := by
  intro depth place n emptyLines column indents reversed rest behind mark legible next less inside
    fresh keeps
  rw [isLegible, Bool.and_eq_true] at legible
  rw [keepsLineEnds] at keeps
  cases items with
  | nil =>
      exact @OnLine.reaches place.fresh n indents reversed rest behind mark emptyLines column _ _
        (onLine_emptySequence _) next (Int.ofNat_lt.mpr inside)
  | cons item items =>
      have opens (m : Nat) : Opens (itemLines [] m (item :: items) ++ behind) := by
        rw [itemLines_cons]
        exact .of_head '-' (by decide)
      have split (m : Nat) : itemLines (firstPad place m) m (item :: items) ++ behind =
          firstPad place m ++ (itemLines [] m (item :: items) ++ behind) := by
        rw [itemLines_cons, itemLines_cons, List.nil_append, List.append_assoc]
      have nonempty : item :: items ≠ [] := List.cons_ne_nil item items
      rw [nodeLines, nodeKinds]
      rotate_left
      · exact List.cons_ne_nil _ _
      · exact List.cons_ne_nil _ _
      by_cases indentless : (place.inEntry && !place.fresh) = true
      · obtain ⟨-, stale⟩ : place.inEntry = true ∧ place.fresh = false := by simpa using indentless
        rw [if_pos indentless, if_pos indentless, split]
        refine reaches_pad (opens n) (by simp [stale]) fun mark column_eq => ?_
        have reaches := more _ emptyLines column n indents indents [] reversed rest behind mark
          nonempty legible.2 next (column_eq ▸ less) keeps (column_eq ▸ .goesOn indents)
        rwa [column_eq] at reaches
      · rw [if_neg indentless, if_neg indentless, split]
        refine reaches_nested (opens (n + 2)) fresh next.toOpens less fun mark column_eq => ?_
        have reaches := more _ emptyLines column n indents (n :: indents) [.blockSequenceStart]
          reversed rest behind mark nonempty legible.2 next (by omega) keeps
          (.starts indents (by omega))
        rwa [column_eq] at reaches

theorem nodeReaches_mapping {entries : List (Value × Value)} (more : EntriesReach entries) :
    NodeReaches (.mapping entries) := by
  intro depth place n emptyLines column indents reversed rest behind mark legible next less inside
    fresh keeps
  rw [isLegible, Bool.and_eq_true] at legible
  rw [keepsLineEnds] at keeps
  cases entries with
  | nil =>
      exact @OnLine.reaches place.fresh n indents reversed rest behind mark emptyLines column _ _
        (onLine_emptyMapping _) next (Int.ofNat_lt.mpr inside)
  | cons entry entries =>
      obtain ⟨key, value⟩ := entry
      have keyLegible := legible.2
      rw [entriesLegible, Bool.and_eq_true, Bool.and_eq_true] at keyLegible
      have opens : Opens (entryLines [] (n + 2) ((key, value) :: entries) ++ behind) := by
        rw [entryLines_cons, List.nil_append, List.append_assoc]
        exact opens_entryText keyLegible.1.1 _ _
      rw [nodeLines, nodeKinds]
      rotate_left
      · exact List.cons_ne_nil _ _
      · exact List.cons_ne_nil _ _
      rw [entryLines_cons, List.append_assoc, ← List.nil_append (entryText _ _ _ ++ _),
        ← entryLines_cons]
      refine reaches_nested opens fresh next.toOpens less fun mark column_eq => ?_
      have reaches := more _ emptyLines column n indents (n :: indents) [.blockMappingStart]
        reversed rest behind mark (List.cons_ne_nil _ _) legible.2 next (by omega) keeps
        (.starts indents (by omega))
      rwa [column_eq] at reaches

mutual

/-- The lines of a value are read as its tokens. -/
theorem nodeReaches : ∀ value : Value, NodeReaches value
  | .null => by
      intro depth place n emptyLines column indents reversed rest behind mark _ next less inside _ _
      exact reaches_plain (isPlain_of_word (by decide)) next
        (Int.ofNat_le.mpr less) (Int.ofNat_lt.mpr inside)
  | .bool value => by
      intro depth place n emptyLines column indents reversed rest behind mark _ next less inside _ _
      have plain : IsPlain (if value then "true" else "false").toList := by
        cases value <;> exact isPlain_of_word (by decide)
      have reaches := @reaches_plain place.fresh n indents reversed rest behind mark emptyLines
        column _ plain next (Int.ofNat_le.mpr less) (Int.ofNat_lt.mpr inside)
      cases value <;> exact reaches
  | .number n => by
      intro depth place m emptyLines column indents reversed rest behind mark legible next less
        inside _ _
      rw [isLegible] at legible
      have reaches := @reaches_plain place.fresh m indents reversed rest behind mark emptyLines
        column _ (numberLike_of_isLegible legible).isPlain next (Int.ofNat_le.mpr less)
        (Int.ofNat_lt.mpr inside)
      simpa [nodeLines, nodeKinds] using reaches
  | .string text => by
      intro depth place n emptyLines column indents reversed rest behind mark legible next less
        inside _ keeps
      rw [isLegible] at legible
      rw [nodeLines, nodeKinds]
      exact reaches_text legible next less inside keeps
  | .sequence items => nodeReaches_sequence (itemsReach items)
  | .mapping entries => nodeReaches_mapping (entriesReach entries)
  | .tagged tag value => by
      intro depth place n emptyLines column indents reversed rest behind mark legible
      cases legible

theorem itemsReach : ∀ items : List Value, ItemsReach items
  | [] => fun _ _ _ _ _ _ _ _ _ _ _ nonempty => absurd rfl nonempty
  | item :: items => itemsReach_cons (nodeReaches item) (itemsReach items)

theorem entriesReach : ∀ entries : List (Value × Value), EntriesReach entries
  | [] => fun _ _ _ _ _ _ _ _ _ _ _ nonempty => absurd rfl nonempty
  | (key, value) :: entries =>
      entriesReach_cons (nodeReaches key) (nodeReaches value) (entriesReach entries)

end

end Lexer

end FleetCompose.Yaml
