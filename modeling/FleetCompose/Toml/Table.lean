import FleetCompose.Decimal.Shortest
import FleetCompose.Toml.Fault

/-!
# Tables

A settings file is a table of values by name, in the order in which they are declared. Tables
may be declared by a header, by dotted keys or inline, and no two of these ways may add to one
table. Declaring something twice is refused.
-/

namespace FleetCompose.Toml

/-- The name of an entry and where it stands. -/
structure Key where
  text : String
  span : Span
  deriving DecidableEq, Repr

/-- How a table came to be: by a header of its own, by the header of a table inside it, by a
dotted key, or between braces. -/
inductive Origin where
  | header
  | innerHeader
  | dotted
  | inline
  deriving DecidableEq, Repr

/-- A table. Tables without a header or braces of their own have no span. -/
structure TableOf (ν : Type) where
  span : Option Span
  origin : Origin
  entries : List (Key × ν)

/-- A value and where it stands. -/
inductive Node where
  | string (span : Span) (text : String)
  | integer (span : Span) (value : Int)
  | float (span : Span) (value : Binary64)
  | boolean (span : Span) (value : Bool)
  | dateTime (span : Span)
  | array (span : Span) (items : List Node)
  | table (table : TableOf Node)
  | tables (tables : List (TableOf Node))

/-- A table of values. -/
abbrev Table := TableOf Node

/-- Where a value stands. -/
def Node.span? : Node → Option Span
  | .string span _ | .integer span _ | .float span _ | .boolean span _ | .dateTime span
  | .array span _ => some span
  | .table inner => inner.span
  | .tables inners =>
      match inners.head?.bind TableOf.span, inners.getLast?.bind TableOf.span with
      | some first, some last => some ⟨first.start, last.stop⟩
      | _, _ => none

/-- The kind of a value. -/
def Node.kind : Node → String
  | .string _ _ => "string"
  | .integer _ _ => "integer"
  | .float _ _ => "float"
  | .boolean _ _ => "boolean"
  | .dateTime _ => "datetime"
  | .array _ _ => "array"
  | .table inner => if inner.origin = .inline then "inline table" else "table"
  | .tables _ => "array of tables"

/-- Characters of a key without quotes. -/
def isBareKeyChar (c : Char) : Bool := c.isAlphanum || c == '-' || c == '_'

/-- A key as it is shown: between quotes if it needs them. -/
def Key.shown (key : Key) : String :=
  if !key.text.isEmpty && key.text.toList.all isBareKeyChar then key.text
  else "\"" ++ key.text ++ "\""

namespace TableOf

/-- An empty table. -/
def empty (span : Option Span) (origin : Origin) : Table := ⟨span, origin, []⟩

/-- The value of a name. -/
def get? (table : Table) (name : String) : Option Node :=
  (table.entries.find? fun entry => entry.1.text == name).map Prod.snd

/-- Put an entry at the end. -/
def append (table : Table) (key : Key) (node : Node) : Table :=
  { table with entries := table.entries ++ [(key, node)] }

/-- Change the value of a name. -/
def replace (table : Table) (name : String) (node : Node) : Table :=
  { table with
    entries := table.entries.map fun entry =>
      if entry.1.text == name then (entry.1, node) else entry }

/-- Take an entry away. -/
def erase (table : Table) (name : String) : Table :=
  { table with entries := table.entries.filter fun entry => entry.1.text != name }

/-- How a table is reached: by the path of a header, or by a dotted key, in the file or between
braces. -/
inductive Approach where
  | header
  | dottedKey
  | inlineKey
  deriving DecidableEq, Repr

/-- The origin of the tables that are missing on the way. -/
def Approach.origin : Approach → Origin
  | .header => .innerHeader
  | _ => .dotted

/-- May a table be entered? A table between braces is finished behind them, and dotted keys
add to no table with a header of its own. -/
def enter (approach : Approach) (path : List Key) (key : Key) (table : Table) :
    Except Reason Unit :=
  match approach, table.origin with
  | .header, .inline | .dottedKey, .inline =>
      .error (.extendsValue ((path ++ [key]).map Key.text) "inline table")
  | .dottedKey, .header | .inlineKey, .header | .inlineKey, .inline =>
      .error (.duplicateKey key.text none)
  | _, _ => .ok ()

/-- Change the table at a path, and make the tables that are missing on the way. `path` is the
way so far. An array of tables is entered at its last table. -/
def changeAt (approach : Approach) (change : Table → Except Reason Table) (path : List Key) :
    List Key → Table → Except Reason Table
  | [], table => change table
  | key :: keys, table =>
      let onward := changeAt approach change (path ++ [key]) keys
      match table.get? key.text with
      | none => do
          let inner ← onward (empty none approach.origin)
          return table.append key (.table inner)
      | some (.table inner) => do
          enter approach path key inner
          return table.replace key.text (.table (← onward inner))
      | some (.tables inners) =>
          match inners.getLast? with
          | none => .ok table
          | some last => do
              let last ← onward last
              return table.replace key.text (.tables (inners.dropLast ++ [last]))
      | some node => .error (.extendsValue ((path ++ [key]).map Key.text) node.kind)

/-- Add a value to a table that was reached by a path. `owner` is the table named when the key
is there already. -/
def add (path : List Key) (key : Key) (node : Node) (owner : Option (List String))
    (table : Table) : Except Reason Table :=
  if (table.origin == .dotted) == path.isEmpty then .error (.duplicateKey key.text none)
  else if (table.get? key.text).isSome then .error (.duplicateKey key.text owner)
  else .ok (table.append key node)

/-- A value of a table that was opened by a header makes the table reach to its end. -/
def stretch (node : Node) (table : Table) : Table :=
  match table.span, node.span? with
  | some span, some last => { table with span := some ⟨span.start, last.stop⟩ }
  | _, _ => table

/-- Add a value to a table under a dotted key. -/
def addDotted (approach : Approach) (path : List Key) (key : Key) (node : Node)
    (owner : Option (List String)) (table : Table) : Except Reason Table :=
  changeAt approach (add path key node owner) [] path table

/-- Open a table by a header. It may have tables with headers of their own already. -/
def openTable (path : List Key) (key : Key) (span : Span) (table : Table) :
    Except Reason Table :=
  match table.get? key.text with
  | none => .ok (table.append key (.table (empty (some span) .header)))
  | some (.table inner) =>
      if inner.origin = .innerHeader then
        .ok ((table.erase key.text).append key (.table ⟨some span, .header, inner.entries⟩))
      else .error (.duplicateKey key.shown (some (path.map Key.text)))
  | some _ => .error (.duplicateKey key.shown (some (path.map Key.text)))

/-- Open another table of an array by a header. -/
def openItem (path : List Key) (key : Key) (span : Span) (table : Table) :
    Except Reason Table :=
  let new := empty (some span) .header
  match table.get? key.text with
  | none => .ok (table.append key (.tables [new]))
  | some (.tables inners) => .ok (table.replace key.text (.tables (inners ++ [new])))
  | some _ => .error (.duplicateKey key.shown (some (path.map Key.text)))

end TableOf

end FleetCompose.Toml
