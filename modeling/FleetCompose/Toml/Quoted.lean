import FleetCompose.Text.Hexadecimal
import FleetCompose.Toml.Attempt

/-!
# Strings

A basic string stands between double quotes and may have escapes; a literal string stands
between single quotes and has none. With three quotes at each end a string may have several
lines, and one or two quotes among its characters. A line end right behind the opening quotes
does not count.
-/

namespace FleetCompose.Toml

/-- A character that stands for itself in a basic string. -/
def isBasicChar (c : Char) : Bool := isCommentChar c && c != '"' && c != '\\'

/-- A character that may stand in a literal string. -/
def isLiteralChar (c : Char) : Bool := isCommentChar c && c != '\''

/-! ## Escapes -/

/-- The character that an escape of one letter stands for. -/
def letterEscape? : Char → Option Char
  | 'b' => some '\x08'
  | 'f' => some '\x0C'
  | 'n' => some '\n'
  | 'r' => some '\r'
  | 't' => some '\t'
  | '\\' => some '\\'
  | '"' => some '"'
  | _ => none

/-- Read the number of a character in hexadecimal. -/
def characterCode (form : Form) (width : Nat) (cursor : Cursor) : Attempt (Char × Cursor) :=
  match (cursor.rest.take width).mapM Text.hexValue? with
  | some digits =>
      if digits.length = width then
        let code := digits.foldl (fun n digit => 16 * n + digit) 0
        if code.isValidChar then .found (Char.ofNat code, cursor.advance width)
        else brokenAt cursor ((Problem.refused .outOfRange).within form)
      else brokenAt cursor (.malformed form)
  | none => brokenAt cursor (.malformed form)

/-- What may stand behind a backslash. -/
def escapeLetters : List String :=
  ["b", "f", "n", "r", "t", "u", "U", "\\", "\""].map ticked

/-- Read an escape from its backslash on. A backslash at the end of the source is none. -/
def escape (cursor : Cursor) : Attempt (Char × Cursor) :=
  match cursor.rest with
  | '\\' :: c :: _ =>
      let after := cursor.advance 2
      match letterEscape? c with
      | some image => .found (image, after)
      | none =>
          if c = 'u' then characterCode .fourDigitCode 4 after
          else if c = 'U' then characterCode .eightDigitCode 8 after
          else
            -- The fault is behind the first byte, and that is inside `c` unless `c` is ASCII.
            let place := if c.utf8Size = 1 then after else cursor.advance 1
            brokenAt place (.lacking .escapeSequence escapeLetters)
  | _ => absentAt cursor .bare

/-! ## Strings of one line -/

/-- Read a basic string behind the characters read so far. -/
def basicStringFrom : (fuel : Nat) → (reversed : List Char) → Cursor → Attempt (String × Cursor)
  | 0, _, cursor => brokenAt cursor (.malformed .basicString)
  | fuel + 1, reversed, cursor =>
      match cursor.next? with
      | some '"' => .found (String.ofList reversed.reverse, cursor.advance 1)
      | some c =>
          if isBasicChar c then basicStringFrom fuel (c :: reversed) (cursor.advance 1)
          else
            match escape cursor with
            | .found (image, after) => basicStringFrom fuel (image :: reversed) after
            | .broken fault => .broken fault
            | .absent _ => brokenAt cursor (.malformed .basicString)
      | none => brokenAt cursor (.malformed .basicString)

/-- Read a basic string from its opening quote on. -/
def basicString (cursor : Cursor) : Attempt (String × Cursor) :=
  basicStringFrom (cursor.rest.length + 1) [] (cursor.advance 1)

/-- Read a literal string from its opening quote on. -/
def literalString (cursor : Cursor) : Attempt (String × Cursor) :=
  let (text, after) := (cursor.advance 1).span isLiteralChar
  if after.next? = some '\'' then .found (String.ofList text, after.advance 1)
  else brokenAt after (.malformed .literalString)

/-! ## Strings of several lines -/

/-- Go over spaces, tabs and line ends. -/
def skipBlankLines : (fuel : Nat) → Cursor → Cursor
  | 0, cursor => cursor
  | fuel + 1, cursor =>
      match cursor.skipPads.overLineEnd? with
      | some after => skipBlankLines fuel after
      | none => cursor.skipPads

/-- Go over a backslash at the end of a line and all blank lines behind it. -/
def lineContinuation? (cursor : Cursor) : Option Cursor :=
  if cursor.next? = some '\\' then
    (cursor.advance 1).skipPads.overLineEnd?.map (skipBlankLines cursor.rest.length)
  else none

/-- One piece of a string of several lines: a character, a line end or an escape, but not a
quote. -/
def multilinePiece (basic : Bool) (cursor : Cursor) : Attempt (List Char × Cursor) :=
  match cursor.next? with
  | none => absentAt cursor .bare
  | some c =>
      if if basic then isBasicChar c else isLiteralChar c then .found ([c], cursor.advance 1)
      else
        match cursor.overLineEnd? with
        | some after => .found (['\n'], after)
        | none =>
            if basic then
              match lineContinuation? cursor with
              | some after => .found ([], after)
              | none => do
                  let (image, after) ← escape cursor
                  return ([image], after)
            else absentAt cursor .bare

/-- Read a string of several lines behind the characters read so far. Fewer than three quotes
count as characters if another piece follows; of more than three quotes at the end, two may
be characters. -/
def multilineStringFrom (basic : Bool) :
    (fuel : Nat) → (reversed : List Char) → Cursor → Attempt (String × Cursor)
  | 0, _, cursor => brokenAt cursor .bare
  | fuel + 1, reversed, cursor =>
      let quote := if basic then '"' else '\''
      let quotes := cursor.rest.takeWhile (· == quote)
      if 3 ≤ quotes.length then
        let inside := min (quotes.length - 3) 2
        .found (String.ofList (reversed.reverse ++ quotes.take inside), cursor.advance (inside + 3))
      else
        let after := cursor.advance quotes.length
        match multilinePiece basic after with
        | .found (piece, rest) =>
            multilineStringFrom basic fuel (piece.reverse ++ quotes ++ reversed) rest
        | .broken fault =>
            .broken (if quotes.isEmpty then fault else Fault.atCursor after fault.problem)
        | .absent _ => brokenAt cursor .bare

/-- Read a string of several lines from its opening quotes on. -/
def multilineString (basic : Bool) (cursor : Cursor) : Attempt (String × Cursor) :=
  let opened := cursor.advance 3
  (multilineStringFrom basic (cursor.rest.length + 1) []
    (opened.overLineEnd?.getD opened)).within
      (if basic then .multilineBasicString else .multilineLiteralString)

/-- Read a string from its opening quotes on. -/
def string (cursor : Cursor) : Attempt (String × Cursor) :=
  if (cursor.over? "\"\"\"").isSome then multilineString true cursor
  else if (cursor.over? "'''").isSome then multilineString false cursor
  else if cursor.next? = some '"' then basicString cursor
  else literalString cursor

end FleetCompose.Toml
