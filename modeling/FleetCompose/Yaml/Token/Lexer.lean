import FleetCompose.Yaml.Token.Properties
import FleetCompose.Yaml.Token.Scalars

/-!
# Cutting a document into tokens

Block collections have no brackets: their starts and ends are tokens that come from the
indentation. A key is known as such only when its colon is met; the token for the key, and
the start of its mapping, are then put in front of the tokens read since. A token that may
yet turn out to start a key is withheld until that is decided, so where a document breaks
off, the tokens from the first undecided one on are lost.
-/

namespace FleetCompose.Yaml

/-- A token that may turn out to start a key: its number among all tokens, and its mark.
Where it is the first token on the column of a block mapping it has to be a key. -/
structure PendingKey where
  required : Bool
  number : Nat
  mark : Mark

/-- The state of the lexer. There is one place for a pending key on every level of flow
collections, innermost first; tokens are kept in reverse. -/
structure Lexer where
  cursor : Cursor
  indent : Int
  indents : List Int
  keyAllowed : Bool
  pending : List (Option PendingKey)
  reversed : List Token
  count : Nat
  ended : Bool

/-- The tokens of a document, and what breaks it off. -/
structure Lexed where
  tokens : List Token
  failure : Option SyntaxError

namespace Lexer

/-- The lexer in front of a document. -/
def start (source : String) : Lexer where
  cursor := .ofSource source
  indent := -1
  indents := []
  keyAllowed := true
  pending := [none]
  reversed := [⟨.streamStart, .start, .start⟩]
  count := 1
  ended := false

/-- Is the lexer inside a flow collection? -/
def inFlow (lexer : Lexer) : Bool := 1 < lexer.pending.length

/-- The mark of the cursor. -/
def mark (lexer : Lexer) : Mark := lexer.cursor.mark

/-- Add a token at the end and move on. -/
def emit (lexer : Lexer) (kind : TokenKind) (after : Cursor) : Lexer :=
  { lexer with
    cursor := after
    reversed := ⟨kind, lexer.mark, after.mark⟩ :: lexer.reversed
    count := lexer.count + 1 }

/-- Add a token of some characters. -/
def emitChars (lexer : Lexer) (kind : TokenKind) (length : Nat) : Lexer :=
  lexer.emit kind (lexer.cursor.advance length)

/-- Put a token without extent in front of the token with the given number. -/
def insert (lexer : Lexer) (number : Nat) (kind : TokenKind) (mark : Mark) : Lexer :=
  let later := lexer.count - number
  { lexer with
    reversed := lexer.reversed.take later ++ ⟨kind, mark, mark⟩ :: lexer.reversed.drop later
    count := lexer.count + 1 }

/-! ## Pending keys -/

/-- The refusal of a key without a colon. -/
def missingColon (lexer : Lexer) (key : PendingKey) : SyntaxError :=
  .during .scanningSimpleKey key.mark .keyWithoutColon lexer.mark

/-- Give up the pending key of the innermost level. -/
def dropPending (lexer : Lexer) : Except SyntaxError Lexer :=
  match lexer.pending with
  | some key :: outer =>
      if key.required then .error (lexer.missingColon key)
      else .ok { lexer with pending := none :: outer }
  | _ => .ok lexer

/-- Let the next token be a pending key, if keys are allowed here. -/
def markPending (lexer : Lexer) : Except SyntaxError Lexer :=
  if lexer.keyAllowed then
    let required := !lexer.inFlow && lexer.indent == lexer.mark.column
    (dropPending lexer).map fun lexer =>
      { lexer with
        pending := some ⟨required, lexer.count, lexer.mark⟩ :: lexer.pending.drop 1 }
  else .ok lexer

/-- The longest key that may stand in front of a colon, in bytes. -/
def longestPending : Nat := 1024

/-- Is a pending key on an earlier line, or too far back? -/
def isStale (lexer : Lexer) (key : PendingKey) : Bool :=
  key.mark.line < lexer.mark.line || key.mark.index + longestPending < lexer.mark.index

/-- Give up the pending keys that are stale, outermost first. -/
def dropStale (lexer : Lexer) : Except SyntaxError Lexer :=
  let stale := lexer.pending.filterMap fun place => place.filter lexer.isStale
  match stale.reverse.find? PendingKey.required with
  | some key => .error (lexer.missingColon key)
  | none =>
      .ok { lexer with
        pending := lexer.pending.map fun place => place.filter fun key => !lexer.isStale key }

/-- How many tokens are decided: all in front of the first pending key. -/
def decided (lexer : Lexer) : Nat :=
  (lexer.pending.filterMap fun place => place.map PendingKey.number).foldl min lexer.count

/-! ## Indentation -/

/-- Start a block collection if the column is deeper than the current one; its start is put
in front of the token with the given number, or at the end. -/
def indentTo (lexer : Lexer) (column : Nat) (number : Option Nat) (kind : TokenKind)
    (mark : Mark) : Lexer :=
  if !lexer.inFlow && lexer.indent < column then
    let lexer :=
      { lexer with indent := column, indents := lexer.indent :: lexer.indents }
    lexer.insert (number.getD lexer.count) kind mark
  else lexer

/-- End the block collections that are indented more than the column. -/
def unindent (column : Int) : (indents : List Int) → Lexer → Lexer
  | [], lexer => lexer
  | outer :: indents, lexer =>
      if column < lexer.indent then
        unindent column indents
          { lexer.emit .blockEnd lexer.cursor with indent := outer, indents }
      else lexer

/-- End the block collections that are indented more than the column, unless inside a flow
collection. -/
def unindentTo (lexer : Lexer) (column : Int) : Lexer :=
  if lexer.inFlow then lexer else unindent column lexer.indents lexer

/-! ## Between tokens -/

/-- Go over blanks, comments and line ends. Outside flow collections a tab does not count as
a blank where a key may start, and behind a line end a key may start. -/
def skipSpace : (fuel : Nat) → Lexer → Lexer
  | 0, lexer => lexer
  | fuel + 1, lexer =>
      let cursor := lexer.cursor
      let cursor :=
        if cursor.mark.column == 0 && cursor.next? = some byteOrderMark then cursor.advance 1
        else cursor
      let tabs := lexer.inFlow || !lexer.keyAllowed
      let cursor := (cursor.span fun c => c == ' ' || (tabs && c == '\t')).2.skipComment
      if cursor.atBreak then
        skipSpace fuel
          { lexer with
            cursor := cursor.lineEnd.2
            keyAllowed := lexer.keyAllowed || !lexer.inFlow }
      else { lexer with cursor }

/-! ## Tokens -/

/-- Close everything at the end of the document or in front of a document indicator. -/
def closeAll (lexer : Lexer) : Except SyntaxError Lexer :=
  ((lexer.unindentTo (-1)).dropPending).map fun lexer => { lexer with keyAllowed := false }

/-- The end of the document; it starts a line of its own. -/
def fetchEnd (lexer : Lexer) : Except SyntaxError Lexer := do
  let mark := lexer.mark
  let mark := if mark.column = 0 then mark else ⟨mark.index, mark.line + 1, 0⟩
  let lexer ← closeAll { lexer with cursor := { lexer.cursor with mark } }
  return { lexer.emit .streamEnd lexer.cursor with ended := true }

/-- A directive. -/
def fetchDirective (lexer : Lexer) : Except SyntaxError Lexer := do
  let lexer ← lexer.closeAll
  let (token, after) ← Token.directive lexer.cursor
  return {
    lexer with
    cursor := after
    reversed := token :: lexer.reversed
    count := lexer.count + 1 }

/-- The start of a flow collection. -/
def fetchFlowStart (lexer : Lexer) (kind : TokenKind) : Except SyntaxError Lexer := do
  let lexer ← lexer.markPending
  return { lexer with pending := none :: lexer.pending, keyAllowed := true }.emitChars kind 1

/-- The end of a flow collection. -/
def fetchFlowEnd (lexer : Lexer) (kind : TokenKind) : Except SyntaxError Lexer := do
  let lexer ← lexer.dropPending
  let pending := if lexer.inFlow then lexer.pending.drop 1 else lexer.pending
  return { lexer with pending, keyAllowed := false }.emitChars kind 1

/-- A comma in a flow collection. -/
def fetchFlowEntry (lexer : Lexer) : Except SyntaxError Lexer := do
  let lexer ← lexer.dropPending
  return { lexer with keyAllowed := true }.emitChars .flowEntry 1

/-- An indicator that may start a block collection of the given kind on its column. -/
def startBlock (lexer : Lexer) (kind : TokenKind) (problem : Problem) :
    Except SyntaxError Lexer :=
  if lexer.inFlow then .ok lexer
  else if lexer.keyAllowed then
    .ok (lexer.indentTo lexer.mark.column none kind lexer.mark)
  else .error (.bare problem lexer.mark)

/-- The dash of a block sequence. -/
def fetchBlockEntry (lexer : Lexer) : Except SyntaxError Lexer := do
  let lexer ← lexer.startBlock .blockSequenceStart .blockEntryNotAllowed
  let lexer ← lexer.dropPending
  return { lexer with keyAllowed := true }.emitChars .blockEntry 1

/-- The question mark of a key. -/
def fetchKey (lexer : Lexer) : Except SyntaxError Lexer := do
  let lexer ← lexer.startBlock .blockMappingStart .keyNotAllowed
  let lexer ← lexer.dropPending
  return { lexer with keyAllowed := !lexer.inFlow }.emitChars .key 1

/-- The colon of a value. It decides a pending key. -/
def fetchValue (lexer : Lexer) : Except SyntaxError Lexer := do
  match lexer.pending with
  | some key :: outer =>
      let lexer := lexer.insert key.number .key key.mark
      let lexer :=
        lexer.indentTo key.mark.column (some key.number) .blockMappingStart key.mark
      return { lexer with pending := none :: outer, keyAllowed := false }.emitChars .value 1
  | _ =>
      let lexer ← lexer.startBlock .blockMappingStart .valueNotAllowed
      return { lexer with keyAllowed := !lexer.inFlow }.emitChars .value 1

/-- An anchor or an alias. -/
def fetchAnchor (lexer : Lexer) (activity : Activity) (kind : String → TokenKind) :
    Except SyntaxError Lexer := do
  let lexer ← lexer.markPending
  let (name, after) ← Token.anchorName activity lexer.cursor
  return { lexer with keyAllowed := false }.emit (kind name) after

/-- A tag. -/
def fetchTag (lexer : Lexer) : Except SyntaxError Lexer := do
  let lexer ← lexer.markPending
  let (handle, suffix, after) ← Token.tag lexer.inFlow lexer.cursor
  return { lexer with keyAllowed := false }.emit (.tag handle suffix) after

/-- A block scalar. Its last mark is where its last line ends. -/
def fetchBlockScalar (lexer : Lexer) (literal : Bool) : Except SyntaxError Lexer := do
  let lexer ← lexer.dropPending
  let scalar ← Token.blockScalar literal lexer.indent lexer.cursor
  return {
    lexer with
    keyAllowed := true
    cursor := scalar.cursor
    reversed :=
      ⟨.scalar (String.ofList scalar.text) .quoted, lexer.mark, scalar.last⟩ :: lexer.reversed
    count := lexer.count + 1 }

/-- A quoted scalar. -/
def fetchQuotedScalar (lexer : Lexer) (single : Bool) : Except SyntaxError Lexer := do
  let lexer ← lexer.markPending
  let (text, after) ← Token.quotedScalar single lexer.cursor
  return { lexer with keyAllowed := false }.emit (.scalar (String.ofList text) .quoted) after

/-- A plain scalar. Behind a line end a key may start. -/
def fetchPlainScalar (lexer : Lexer) : Except SyntaxError Lexer := do
  let lexer ← lexer.markPending
  let scalar ← Token.plainScalar lexer.inFlow lexer.indent lexer.cursor
  return {
    lexer with
    keyAllowed := scalar.broken
    cursor := scalar.cursor
    reversed :=
      ⟨.scalar (String.ofList scalar.text) .plain, lexer.mark, scalar.last⟩ :: lexer.reversed
    count := lexer.count + 1 }

/-- May a plain scalar start at the cursor? -/
def startsPlain (lexer : Lexer) (c : Char) : Bool :=
  let cursor := lexer.cursor
  !(isSpaceOrTab c || isBreak c || "-?:,[]\x7b\x7d#&*!|>'\"%@`".toList.contains c) ||
    (c == '-' && !((cursor.rest.drop 1).head?.map isSpaceOrTab).getD false) ||
    (!lexer.inFlow && (c == '?' || c == ':') && !cursor.separatorAt 1)

/-- Read the token at the cursor. -/
def fetchAt (lexer : Lexer) (c : Char) : Except SyntaxError Lexer :=
  let cursor := lexer.cursor
  let opensEntry := lexer.inFlow || cursor.separatorAt 1
  if cursor.mark.column == 0 && c == '%' then lexer.fetchDirective
  else if cursor.atIndicator then
    lexer.closeAll.map fun lexer =>
      lexer.emitChars (if c == '-' then .documentStart else .documentEnd) 3
  else if c == '[' then lexer.fetchFlowStart .flowSequenceStart
  else if c == '\x7b' then lexer.fetchFlowStart .flowMappingStart
  else if c == ']' then lexer.fetchFlowEnd .flowSequenceEnd
  else if c == '\x7d' then lexer.fetchFlowEnd .flowMappingEnd
  else if c == ',' then lexer.fetchFlowEntry
  else if c == '-' && cursor.separatorAt 1 then lexer.fetchBlockEntry
  else if c == '?' && opensEntry then lexer.fetchKey
  else if c == ':' && opensEntry then lexer.fetchValue
  else if c == '*' then lexer.fetchAnchor .scanningAlias .alias
  else if c == '&' then lexer.fetchAnchor .scanningAnchor .anchor
  else if c == '!' then lexer.fetchTag
  else if c == '|' && !lexer.inFlow then lexer.fetchBlockScalar true
  else if c == '>' && !lexer.inFlow then lexer.fetchBlockScalar false
  else if c == '\'' then lexer.fetchQuotedScalar true
  else if c == '"' then lexer.fetchQuotedScalar false
  else if lexer.startsPlain c then lexer.fetchPlainScalar
  else .error (.during .scanningToken lexer.mark .tokenStart lexer.mark)

/-- Read the next token, and what the indentation puts in front of it. -/
def fetch (lexer : Lexer) : Except SyntaxError Lexer := do
  let lexer := skipSpace (lexer.cursor.rest.length + 1) lexer
  let lexer ← lexer.dropStale
  let lexer := lexer.unindentTo lexer.mark.column
  match lexer.cursor.next? with
  | none => lexer.fetchEnd
  | some c => lexer.fetchAt c

/-- Read all tokens. -/
def run : (fuel : Nat) → Lexer → Lexed
  | 0, lexer => ⟨lexer.reversed.reverse, none⟩
  | fuel + 1, lexer =>
      match lexer.fetch.bind dropStale with
      | .error failure => ⟨lexer.reversed.reverse.take lexer.decided, some failure⟩
      | .ok next => if next.ended then ⟨next.reversed.reverse, none⟩ else run fuel next

/-- The position in bytes of the first character that no document may hold. -/
def firstForbidden? (position : Nat) : List Char → Option Nat
  | [] => none
  | c :: cs =>
      if isAllowed c then firstForbidden? (position + c.utf8Size) cs else some position

end Lexer

/-- Cut a document into tokens. A character that no document may hold spoils all of it. -/
def lex (source : String) : Lexed :=
  match Lexer.firstForbidden? 0 source.toList with
  | some position => ⟨[], some ⟨.controlCharacter, .start, position, none⟩⟩
  | none => Lexer.run (source.length + 2) (.start source)

end FleetCompose.Yaml
