import FleetCompose.Toml.DateTime
import FleetCompose.Toml.Number
import FleetCompose.Toml.Quoted
import FleetCompose.Toml.Table

/-!
# The grammar of settings files

A settings file has a declaration a line: the header of a table, or a key and its value.
Behind a declaration there may be a comment. Arrays and tables may be nested, up to a limit.
-/

namespace FleetCompose.Toml

/-- So many arrays and tables between braces are not nested in each other any more. -/
def depthLimit : Nat := 80

/-! ## Keys -/

/-- Read one name of a key. -/
def name (cursor : Cursor) : Attempt (Key × Cursor) :=
  let keyOf (text : String) (after : Cursor) : Key × Cursor := (⟨text, cursor.spanTo after⟩, after)
  match cursor.next? with
  | some '"' => do
      let (text, after) ← basicString cursor
      return keyOf text after
  | some '\'' => do
      let (text, after) ← literalString cursor
      return keyOf text after
  | _ =>
      let (cs, after) := cursor.span isBareKeyChar
      if cs.isEmpty then absentAt cursor .bare else .found (keyOf (String.ofList cs) after)

/-- Read one name of a key and the blanks around it. -/
def paddedName (cursor : Cursor) : Attempt (Key × Cursor) := do
  let (key, after) ← name cursor.skipPads
  return (key, after.skipPads)

/-- Read the further names of a key, each behind a dot. A dot without a name does not belong to
the key. -/
def moreNames : (fuel : Nat) → Cursor → Attempt (List Key × Cursor)
  | 0, cursor => .found ([], cursor)
  | fuel + 1, cursor =>
      match cursor.next? with
      | some '.' =>
          match paddedName (cursor.advance 1) with
          | .found (key, after) => do
              let (keys, after) ← moreNames fuel after
              return (key :: keys, after)
          | .absent _ => .found ([], cursor)
          | .broken fault => .broken fault
      | _ => .found ([], cursor)

/-- Read a key: the names on the way, and the last name. -/
def keyPath (cursor : Cursor) : Attempt (List Key × Key × Cursor) := do
  let (first, keys, after) ← Attempt.within .key do
    let (first, after) ← paddedName cursor
    let (keys, after) ← moreNames cursor.rest.length after
    return (first, keys, after)
  if depthLimit ≤ keys.length + 1 then absentAt cursor (.refused .tooDeep)
  else
    match keys.getLast? with
    | some last => return (first :: keys.dropLast, last, after)
    | none => return ([], first, after)

/-- Read the equals sign behind a key. -/
def equalsSign (cursor : Cursor) : Attempt Cursor :=
  ((character '=' cursor).expecting [ticked ".", ticked "="]).require

/-! ## Values -/

/-- Go over blanks, line ends and comments inside an array. -/
def skipTrivia : (fuel : Nat) → Cursor → Attempt Cursor
  | 0, cursor => .found cursor
  | fuel + 1, cursor =>
      let here := cursor.skipPads
      match here.next? with
      | some c =>
          if c = '#' || c = '\n' || c = '\r' then
            let lineEnd := here.skipComment
            match lineEnd.overLineEnd? with
            | some after => skipTrivia fuel after
            | none => absentAt lineEnd .bare
          else .found here
      | none => .found here

/-- Go over blanks, line ends and comments. -/
def trivia (cursor : Cursor) : Attempt Cursor := skipTrivia (cursor.rest.length + 1) cursor

/-- Go over a word that begins with the next character. -/
def word (text : String) (cursor : Cursor) : Attempt Cursor :=
  match cursor.over? text with
  | some after => .found after
  | none => absentAt cursor .bare

/-- There is no value here. -/
def withoutValue {α : Type} (attempt : Attempt α) : Attempt α :=
  (attempt.within .value).expecting [ticked "\"", ticked "'"]

/-- Read a date, a time or a number. -/
def numeric (cursor : Cursor) : Attempt (Node × Cursor) :=
  Attempt.orElse
    (do
      let after ← dateTime cursor
      return (.dateTime (cursor.spanTo after), after))
    fun _ => Attempt.orElse
      (do
        let (value, after) ← float cursor
        return (.float (cursor.spanTo after) value, after))
      fun _ => do
        let (value, after) ← integer cursor
        return (.integer (cursor.spanTo after) value, after)

/-- Read a value that is no array and no table. -/
def scalar (c : Char) (cursor : Cursor) : Attempt (Node × Cursor) :=
  if c = '"' || c = '\'' then do
    let (text, after) ← string cursor
    return (.string (cursor.spanTo after) text, after)
  else if c.isDigit || c = '+' || c = '-' then numeric cursor
  else if c = '_' then do
    let (value, after) ← (integer cursor).expecting ["leading digit"]
    return (.integer (cursor.spanTo after) value, after)
  else if c = '.' then do
    let (value, after) ← (float cursor).expecting ["leading digit"]
    return (.float (cursor.spanTo after) value, after)
  else if c = 't' then withoutValue do
    let after ← (word "true" cursor).require
    return (.boolean (cursor.spanTo after) true, after)
  else if c = 'f' then withoutValue do
    let after ← (word "false" cursor).require
    return (.boolean (cursor.spanTo after) false, after)
  else if c = 'i' then withoutValue do
    let after ← word "inf" cursor
    return (.float (cursor.spanTo after) .infinity, after)
  else if c = 'n' then withoutValue do
    let after ← word "nan" cursor
    return (.float (cursor.spanTo after) .nan, after)
  else withoutValue (absentAt cursor .bare)

/-- Collect the entries of a table between braces. -/
def inlineTable (entries : List (List Key × Key × Node)) : Except Reason Table :=
  entries.foldlM (fun table (path, key, node) => table.addDotted .inlineKey path key node none)
    (TableOf.empty none .inline)

mutual

/-- Read a value; `depth` arrays and tables are around it. -/
def value : (fuel : Nat) → (depth : Nat) → Cursor → Attempt (Node × Cursor)
  | 0, _, cursor => absentAt cursor .bare
  | fuel + 1, depth, cursor =>
      match cursor.next? with
      | none => absentAt cursor .bare
      | some '[' =>
          if depthLimit ≤ depth + 1 then brokenAt cursor (.refused .tooDeep)
          else Attempt.require do
            let (items, behindItems) ← items fuel (depth + 1) (cursor.advance 1)
            let behindComma :=
              if items.isEmpty || behindItems.next? != some ',' then behindItems
              else behindItems.advance 1
            let closing ← trivia behindComma
            let after ← ((character ']' closing).within .array).expecting [ticked "]"]
            return (.array (cursor.spanTo after) items, after)
      | some '{' =>
          if depthLimit ≤ depth + 1 then brokenAt cursor (.refused .tooDeep)
          else Attempt.require do
            let inside := cursor.advance 1
            let (entries, behindEntries) ← entries fuel (depth + 1) inside
            match inlineTable entries with
            | .error reason => brokenAt inside (.refused reason)
            | .ok table =>
                let after ← ((character '}' behindEntries.skipPads).within .inlineTable).expecting
                  [ticked "\x7d"]
                return (.table { table with span := some (cursor.spanTo after) }, after)
      | some c => scalar c cursor

/-- Read an item of an array and what is around it. -/
def item : (fuel : Nat) → (depth : Nat) → Cursor → Attempt (Node × Cursor)
  | 0, _, cursor => absentAt cursor .bare
  | fuel + 1, depth, cursor => do
      let start ← trivia cursor
      let (node, after) ← value fuel depth start
      let after ← trivia after
      return (node, after)

/-- Read the items of an array up to the last comma. -/
def items : (fuel : Nat) → (depth : Nat) → Cursor → Attempt (List Node × Cursor)
  | 0, _, cursor => .found ([], cursor)
  | fuel + 1, depth, cursor =>
      match item fuel depth cursor with
      | .broken fault => .broken fault
      | .absent _ => .found ([], cursor)
      | .found (node, after) => do
          let (rest, after) ← moreItems fuel depth after
          return (node :: rest, after)

/-- Read further items, each behind a comma. A comma without an item is left. -/
def moreItems : (fuel : Nat) → (depth : Nat) → Cursor → Attempt (List Node × Cursor)
  | 0, _, cursor => .found ([], cursor)
  | fuel + 1, depth, cursor =>
      if cursor.next? = some ',' then
        match item fuel depth (cursor.advance 1) with
        | .broken fault => .broken fault
        | .absent _ => .found ([], cursor)
        | .found (node, after) => do
            let (rest, after) ← moreItems fuel depth after
            return (node :: rest, after)
      else .found ([], cursor)

/-- Read an entry of a table between braces. -/
def entry : (fuel : Nat) → (depth : Nat) → Cursor → Attempt ((List Key × Key × Node) × Cursor)
  | 0, _, cursor => absentAt cursor .bare
  | fuel + 1, depth, cursor => do
      let (path, key, after) ← keyPath cursor
      let after ← equalsSign after
      let (node, after) ← (value fuel depth after.skipPads).require
      return ((path, key, node), after.skipPads)

/-- Read the entries of a table between braces up to the last comma. -/
def entries : (fuel : Nat) → (depth : Nat) → Cursor →
    Attempt (List (List Key × Key × Node) × Cursor)
  | 0, _, cursor => .found ([], cursor)
  | fuel + 1, depth, cursor =>
      match entry fuel depth cursor with
      | .broken fault => .broken fault
      | .absent _ => .found ([], cursor)
      | .found (first, after) => do
          let (rest, after) ← moreEntries fuel depth after
          return (first :: rest, after)

/-- Read further entries, each behind a comma. A comma without an entry is left. -/
def moreEntries : (fuel : Nat) → (depth : Nat) → Cursor →
    Attempt (List (List Key × Key × Node) × Cursor)
  | 0, _, cursor => .found ([], cursor)
  | fuel + 1, depth, cursor =>
      if cursor.next? = some ',' then
        match entry fuel depth (cursor.advance 1) with
        | .broken fault => .broken fault
        | .absent _ => .found ([], cursor)
        | .found (first, after) => do
            let (rest, after) ← moreEntries fuel depth after
            return (first :: rest, after)
      else .found ([], cursor)

end

/-! ## Declarations -/

/-- Read the rest of the line behind a declaration. -/
def lineRest (cursor : Cursor) : Attempt Cursor :=
  let lineEnd := cursor.skipPads.skipComment
  if lineEnd.rest.isEmpty then .found lineEnd
  else
    match lineEnd.overLineEnd? with
    | some after => .found after
    | none => brokenAt lineEnd .bare

/-- A declaration: the header of a table, the header of another table of an array, or a key and
its value. -/
inductive Declaration where
  | table (path : List Key) (key : Key) (span : Span)
  | item (path : List Key) (key : Key) (span : Span)
  | value (path : List Key) (key : Key) (node : Node)

/-- Read a header. -/
def header (cursor : Cursor) : Attempt (Declaration × Cursor) :=
  Attempt.within .tableHeader <| Attempt.require <|
    if byteLength (cursor.rest.take 2) < 2 then brokenAt cursor .bare
    else
      let brackets := if (cursor.over? "[[").isSome then 2 else 1
      let closing := "".pushn ']' brackets
      do
        let (path, key, after) ← keyPath (cursor.advance brackets)
        let after ← (word closing after).expecting [ticked ".", ticked closing]
        let span := cursor.spanTo after
        let after ← (lineRest after).expecting ["newline", ticked "#"]
        return (if brackets = 2 then .item path key span else .table path key span, after)

/-- Read a key and its value. -/
def keyValue (cursor : Cursor) : Attempt (Declaration × Cursor) := do
  let (path, key, after) ← keyPath cursor
  let after ← equalsSign after
  let start := after.skipPads
  let (node, after) ← value (6 * (start.rest.length + 1)) 0 start
  let after ← (lineRest after).expecting ["newline", ticked "#"]
  return (.value path key node, after)

/-! ## Files -/

/-- What was declared so far, and the path of the last header. -/
structure Progress where
  root : Table
  opened : List Key

/-- Carry out a declaration. A value goes into the table of the last header. -/
def Progress.declare (progress : Progress) : Declaration → Except Reason Progress
  | .table path key span => do
      let root ← progress.root.changeAt .header (TableOf.openTable path key span) [] path
      return ⟨root, path ++ [key]⟩
  | .item path key span => do
      let root ← progress.root.changeAt .header (TableOf.openItem path key span) [] path
      return ⟨root, path ++ [key]⟩
  | .value path key node => do
      let owner := progress.opened.map Key.text
      let change (table : Table) : Except Reason Table := do
        return (← table.addDotted .dottedKey path key node (some owner)).stretch node
      let root ← progress.root.changeAt .header change [] progress.opened
      return { progress with root }

/-- The problem of a declaration that cannot be carried out. -/
def Declaration.refusal (reason : Reason) : Declaration → Problem
  | .value _ _ _ => .refused reason
  | _ => (Problem.refused reason).within .tableHeader

/-- Read the lines from a cursor on. -/
def declarations : (fuel : Nat) → Progress → Cursor → Except Fault Table
  | 0, progress, _ => .ok progress.root
  | fuel + 1, progress, cursor =>
      let here := cursor.skipPads
      match here.next? with
      | none => .ok progress.root
      | some c =>
          if c = '#' || c = '\n' || c = '\r' then
            match (lineRest here).toExcept with
            | .error fault => .error fault
            | .ok after => declarations fuel progress after
          else
            match (if c = '[' then header here else keyValue here).toExcept with
            | .error fault => .error fault
            | .ok (declaration, after) =>
                match progress.declare declaration with
                | .error reason => .error (Fault.atCursor here (declaration.refusal reason))
                | .ok progress => declarations fuel progress after

/-- Read a settings file. -/
def Table.ofSource (source : String) : Except Fault Table :=
  let cursor := Cursor.ofSource source
  declarations (cursor.rest.length + 1) ⟨TableOf.empty none .header, []⟩ cursor

end FleetCompose.Toml
