import FleetCompose.Text.Hexadecimal
import FleetCompose.Yaml.Token

/-!
# Scanning scalars

Line ends inside a plain or quoted scalar are folded: one line end stands for a space, and
each further one for a line feed. A literal block keeps its line ends, and a folded block
folds those between lines that do not start with a blank.
-/

namespace FleetCompose.Yaml.Token

/-! ## Gaps -/

/-- The blanks and line ends between two words. -/
structure Gap where
  /-- The blanks, as long as there is no line end. -/
  blanks : List Char
  /-- Is there a line end? -/
  broken : Bool
  /-- The text of the first line end. -/
  firstBreak : List Char
  /-- The texts of the other line ends. -/
  moreBreaks : List Char

/-- No gap. -/
def Gap.none : Gap := ⟨[], false, [], []⟩

/-- The text that a gap stands for. -/
def Gap.text (gap : Gap) : List Char :=
  if gap.broken then
    if gap.firstBreak = ['\n'] then
      if gap.moreBreaks.isEmpty then [' '] else gap.moreBreaks
    else gap.firstBreak ++ gap.moreBreaks
  else gap.blanks

/-- Read a gap from the part read so far. Blanks after a line end do not count, but below
the column `tabLimit` a tab is refused there; the refusal says where. -/
def readGap (tabLimit : Int) : (fuel : Nat) → Gap → Cursor → Except Mark (Gap × Cursor)
  | 0, gap, cursor => .ok (gap, cursor)
  | fuel + 1, gap, cursor =>
      match cursor.next? with
      | some c =>
          if isSpaceOrTab c then
            if gap.broken then
              if cursor.mark.column < tabLimit && c == '\t' then .error cursor.mark
              else readGap tabLimit fuel gap (cursor.advance 1)
            else readGap tabLimit fuel { gap with blanks := gap.blanks ++ [c] } (cursor.advance 1)
          else if isBreak c then
            let (text, after) := cursor.lineEnd
            if gap.broken then
              readGap tabLimit fuel { gap with moreBreaks := gap.moreBreaks ++ text } after
            else readGap tabLimit fuel ⟨[], true, text, gap.moreBreaks⟩ after
          else .ok (gap, cursor)
      | Option.none => .ok (gap, cursor)

/-! ## Plain scalars -/

/-- Does a character end the word of a plain scalar? -/
def endsWord (inFlow : Bool) (cursor : Cursor) (c : Char) : Bool :=
  (c == ':' && cursor.separatorAt 1) || (inFlow && ",[]\x7b\x7d".toList.contains c)

/-- In a flow collection a colon must not stand directly in front of an indicator. -/
def isStrayColon (inFlow : Bool) (cursor : Cursor) (c : Char) : Bool :=
  inFlow && c == ':' &&
    ((cursor.rest.drop 1).head?.map fun d => ",?[]\x7b\x7d".toList.contains d).getD false

/-- Read a word of a plain scalar. The refusal of a stray colon says where it is. -/
def plainWord (inFlow : Bool) : (fuel : Nat) → (reversed : List Char) → Cursor →
    Except Mark (List Char × Cursor)
  | 0, reversed, cursor => .ok (reversed.reverse, cursor)
  | fuel + 1, reversed, cursor =>
      match cursor.next? with
      | some c =>
          if isSpaceOrTab c || isBreak c then .ok (reversed.reverse, cursor)
          else if isStrayColon inFlow cursor c then .error cursor.mark
          else if endsWord inFlow cursor c then .ok (reversed.reverse, cursor)
          else plainWord inFlow fuel (c :: reversed) (cursor.advance 1)
      | none => .ok (reversed.reverse, cursor)

/-- A plain scalar: its text, the end of its last word, the cursor behind the blanks that
follow, and whether there is a line end among those. -/
structure PlainScalar where
  text : List Char
  last : Mark
  cursor : Cursor
  broken : Bool

/-- Read the words of a plain scalar. A line that is indented less than `indent` does not
belong to it, unless it is inside a flow collection. -/
def plainWords (inFlow : Bool) (indent : Int) (since : Mark) :
    (fuel : Nat) → Gap → PlainScalar → Except SyntaxError PlainScalar
  | 0, _, scalar => .ok scalar
  | fuel + 1, gap, scalar =>
      let cursor := scalar.cursor
      if cursor.atIndicator || cursor.next? = some '#' then .ok scalar
      else
        match plainWord inFlow (cursor.rest.length + 1) [] cursor with
        | .error mark => .error (.during .scanningPlainScalar since .plainColon mark)
        | .ok ([], _) => .ok scalar
        | .ok (word, after) =>
            let scalar := ⟨scalar.text ++ gap.text ++ word, after.mark, after, false⟩
            if !(after.atBlank || after.atBreak) then .ok scalar
            else
              match readGap indent (after.rest.length + 1) .none after with
              | .error mark => .error (.during .scanningPlainScalar since .plainTab mark)
              | .ok (gap, next) =>
                  let scalar := { scalar with cursor := next, broken := gap.broken }
                  if !inFlow && next.mark.column < indent then .ok scalar
                  else plainWords inFlow indent since fuel gap scalar

/-- Read a plain scalar inside a block collection of the given indentation. -/
def plainScalar (inFlow : Bool) (indent : Int) (cursor : Cursor) :
    Except SyntaxError PlainScalar :=
  plainWords inFlow (indent + 1) cursor.mark (cursor.rest.length + 1) .none
    ⟨[], cursor.mark, cursor, false⟩

/-! ## Quoted scalars -/

/-- The character that a one-letter escape stands for. -/
def escapedChar? (c : Char) : Option Char :=
  match c with
  | '0' => some '\x00'
  | 'a' => some '\x07'
  | 'b' => some '\x08'
  | 't' | '\t' => some '\t'
  | 'n' => some '\n'
  | 'v' => some '\x0B'
  | 'f' => some '\x0C'
  | 'r' => some '\r'
  | 'e' => some '\x1B'
  | ' ' => some ' '
  | '"' => some '"'
  | '/' => some '/'
  | '\\' => some '\\'
  | 'N' => some '\u0085'
  | '_' => some '\u00A0'
  | 'L' => some '\u2028'
  | 'P' => some '\u2029'
  | _ => none

/-- How many digits follow an escape. -/
def escapeDigits? (c : Char) : Option Nat :=
  match c with
  | 'x' => some 2
  | 'u' => some 4
  | 'U' => some 8
  | _ => none

/-- The value of the hexadecimal digits of an escape. The refusal says where the digits
end. -/
def escapeValue (cursor : Cursor) : (count : Nat) → (done value : Nat) → Except Problem Nat
  | 0, _, value => .ok value
  | count + 1, done, value =>
      match (cursor.rest.drop done).head?.bind Text.hexValue? with
      | some digit => escapeValue cursor count (done + 1) (16 * value + digit)
      | none => .error .escapeDigits

/-- Read an escape from its backslash on. -/
def escape (since : Mark) (cursor : Cursor) : Except SyntaxError (Char × Cursor) :=
  let refuse (problem : Problem) (mark : Mark) : Except SyntaxError (Char × Cursor) :=
    .error (.during .readingQuotedScalar since problem mark)
  match (cursor.rest.drop 1).head? with
  | none => refuse .escapeName cursor.mark
  | some c =>
      match escapedChar? c, escapeDigits? c with
      | some image, _ => .ok (image, cursor.advance 2)
      | none, some count =>
          let digits := cursor.advance 2
          match escapeValue digits count 0 0 with
          | .error problem => refuse problem digits.mark
          | .ok value =>
              if (0xD800 ≤ value && value ≤ 0xDFFF) || 0x10FFFF < value then
                refuse .escapeValue digits.mark
              else .ok (Char.ofNat value, digits.advance count)
      | none, none => refuse .escapeName cursor.mark

/-- A stretch of a quoted scalar without blanks. -/
structure QuotedWord where
  text : List Char
  cursor : Cursor
  /-- Is the stretch followed by an escaped line end? -/
  joined : Bool

/-- Read a quoted scalar up to the next blank, line end or closing quote. -/
def quotedWord (single : Bool) (since : Mark) : (fuel : Nat) → (reversed : List Char) →
    Cursor → Except SyntaxError QuotedWord
  | 0, reversed, cursor => .ok ⟨reversed.reverse, cursor, false⟩
  | fuel + 1, reversed, cursor =>
      match cursor.rest with
      | [] => .ok ⟨reversed.reverse, cursor, false⟩
      | c :: cs =>
          if isSpaceOrTab c || isBreak c then .ok ⟨reversed.reverse, cursor, false⟩
          else if single then
            if c = '\'' then
              if cs.head? = some '\'' then
                quotedWord single since fuel ('\'' :: reversed) (cursor.advance 2)
              else .ok ⟨reversed.reverse, cursor, false⟩
            else quotedWord single since fuel (c :: reversed) (cursor.advance 1)
          else if c = '"' then .ok ⟨reversed.reverse, cursor, false⟩
          else if c = '\\' then
            if (cs.head?.map isBreak).getD false then
              .ok ⟨reversed.reverse, (cursor.advance 1).lineEnd.2, true⟩
            else
              match escape since cursor with
              | .error failure => .error failure
              | .ok (image, after) => quotedWord single since fuel (image :: reversed) after
          else quotedWord single since fuel (c :: reversed) (cursor.advance 1)

/-- Read a quoted scalar behind its opening quote. -/
def quotedWords (single : Bool) (since : Mark) : (fuel : Nat) → (text : List Char) → Cursor →
    Except SyntaxError (List Char × Cursor)
  | 0, text, cursor => .ok (text, cursor)
  | fuel + 1, text, cursor =>
      let refuse (problem : Problem) : Except SyntaxError (List Char × Cursor) :=
        .error (.during .scanningQuotedScalar since problem cursor.mark)
      if cursor.atIndicator then refuse .quotedIndicator
      else if cursor.rest.isEmpty then refuse .quotedEnd
      else
        match quotedWord single since (cursor.rest.length + 1) [] cursor with
        | .error failure => .error failure
        | .ok word =>
            let after := word.cursor
            if after.next? = some (if single then '\'' else '"') then
              .ok (text ++ word.text, after.advance 1)
            else
              match readGap 0 (after.rest.length + 1) { Gap.none with broken := word.joined }
                  after with
              | .error _ => .ok (text ++ word.text, after)
              | .ok (gap, next) =>
                  quotedWords single since fuel (text ++ word.text ++ gap.text) next

/-- Read a quoted scalar from its opening quote on. -/
def quotedScalar (single : Bool) (cursor : Cursor) : Except SyntaxError (List Char × Cursor) :=
  quotedWords single cursor.mark (cursor.rest.length + 1) [] (cursor.advance 1)

/-! ## Block scalars -/

/-- What becomes of the line ends behind the last line of a block. -/
inductive Chomping where
  | strip
  | clip
  | keep
  deriving DecidableEq, Repr

/-- The chomping indicator at the cursor. -/
def chomping? (cursor : Cursor) : Option Chomping :=
  match cursor.next? with
  | some '+' => some .keep
  | some '-' => some .strip
  | _ => none

/-- The indentation indicator at the cursor. -/
def indentation? (cursor : Cursor) : Option Nat :=
  match cursor.next? with
  | some c => if c.isDigit then some (c.toNat - 0x30) else none
  | none => none

/-- The indicators of a block. -/
structure BlockHeader where
  chomping : Chomping
  indentation : Option Nat
  cursor : Cursor

/-- Read the indicators of a block, in either order. -/
def blockIndicators (cursor : Cursor) : BlockHeader :=
  match chomping? cursor with
  | some chomping =>
      let cursor := cursor.advance 1
      match indentation? cursor with
      | some n => ⟨chomping, some n, if n = 0 then cursor else cursor.advance 1⟩
      | none => ⟨chomping, none, cursor⟩
  | none =>
      match indentation? cursor with
      | some 0 => ⟨.clip, some 0, cursor⟩
      | some n =>
          let cursor := cursor.advance 1
          match chomping? cursor with
          | some chomping => ⟨chomping, some n, cursor.advance 1⟩
          | none => ⟨.clip, some n, cursor⟩
      | none => ⟨.clip, none, cursor⟩

/-- Read the header line of a block from behind its first character. -/
def blockHeader (since : Mark) (cursor : Cursor) : Except SyntaxError BlockHeader :=
  let header := blockIndicators cursor
  if header.indentation = some 0 then
    .error (.during .scanningBlockScalar since .blockIndentZero header.cursor.mark)
  else
    let lineEnd := header.cursor.skipBlanks.skipComment
    if lineEnd.rest.isEmpty || lineEnd.atBreak then
      .ok { header with cursor := lineEnd.lineEnd.2 }
    else .error (.during .scanningBlockScalar since .blockHeaderEnd lineEnd.mark)

/-- The empty lines between the lines of a block. -/
structure BlockBreaks where
  /-- The texts of the line ends. -/
  text : List Char
  /-- The largest indentation among the lines. -/
  widest : Nat
  /-- The end of the last line end. -/
  last : Mark
  cursor : Cursor

/-- Read empty lines, and the indentation of the line behind them; `indent` is none as long
as the indentation is not known. -/
def blockBreaks (indent : Option Nat) (since : Mark) : (fuel : Nat) → BlockBreaks →
    Except SyntaxError BlockBreaks
  | 0, breaks => .ok breaks
  | fuel + 1, breaks =>
      let cursor := breaks.cursor
      let room := (indent.map (· - cursor.mark.column)).getD cursor.rest.length
      let pad := (cursor.rest.take room).takeWhile (· == ' ')
      let cursor := cursor.advance pad.length
      let column := cursor.mark.column
      let isPadding := match indent with | none => true | some n => column < n
      if isPadding && cursor.next? = some '\t' then
        .error (.during .scanningBlockScalar since .blockTab cursor.mark)
      else
        let breaks := { breaks with widest := max breaks.widest column, cursor }
        if cursor.atBreak then
          let (text, after) := cursor.lineEnd
          blockBreaks indent since fuel
            { breaks with text := breaks.text ++ text, last := after.mark, cursor := after }
        else .ok breaks

/-- The lines of a block read so far. -/
structure BlockLines where
  text : List Char
  /-- The line end behind the last line. -/
  lineEnd : List Char
  /-- Does the last line start with a blank? -/
  blankStart : Bool
  breaks : BlockBreaks

/-- Read the lines of a block that is indented by `indent`. -/
def blockLines (literal : Bool) (indent : Nat) (since : Mark) : (fuel : Nat) → BlockLines →
    Except SyntaxError BlockLines
  | 0, lines => .ok lines
  | fuel + 1, lines =>
      let cursor := lines.breaks.cursor
      if cursor.mark.column != indent || cursor.rest.isEmpty then .ok lines
      else
        let folds := !literal && lines.lineEnd = ['\n'] && !lines.blankStart && !cursor.atBlank
        let joint :=
          if folds then if lines.breaks.text.isEmpty then [' '] else lines.breaks.text
          else lines.lineEnd ++ lines.breaks.text
        let (line, after) := cursor.span fun c => !isBreak c
        let (lineEnd, next) := after.lineEnd
        match blockBreaks (some indent) since (next.rest.length + 1) ⟨[], 0, next.mark, next⟩ with
        | .error failure => .error failure
        | .ok breaks =>
            blockLines literal indent since fuel
              ⟨lines.text ++ joint ++ line, lineEnd, cursor.atBlank, breaks⟩

/-- A block scalar: its text, where its last line ends, and the cursor behind the empty
lines that follow. -/
structure BlockScalar where
  text : List Char
  last : Mark
  cursor : Cursor

/-- Read a block scalar from its indicator on, inside a block collection of the given
indentation. -/
def blockScalar (literal : Bool) (indent : Int) (cursor : Cursor) :
    Except SyntaxError BlockScalar := do
  let since := cursor.mark
  let header ← blockHeader since (cursor.advance 1)
  let start := header.cursor
  let fuel := cursor.rest.length + 1
  let known := header.indentation.map fun n => (max indent 0).toNat + n
  let breaks ← blockBreaks known since fuel ⟨[], 0, start.mark, start⟩
  let width := known.getD (max breaks.widest (max (indent + 1) 1).toNat)
  let lines ← blockLines literal width since fuel ⟨[], [], false, breaks⟩
  let tail :=
    match header.chomping with
    | .strip => []
    | .clip => lines.lineEnd
    | .keep => lines.lineEnd ++ lines.breaks.text
  return ⟨lines.text ++ tail, lines.breaks.last, lines.breaks.cursor⟩

end FleetCompose.Yaml.Token
