import FleetCompose.Toml.Cursor

/-!
# Faults in a settings file

A fault is a place in a settings file and the problem there: the form that was being read,
what could have stood there, and the reason for which something well written is refused. Its
text shows the line with carets under the place.
-/

namespace FleetCompose.Toml

/-- The forms that a settings file is made of. -/
inductive Form where
  | key
  | tableHeader
  | array
  | inlineTable
  | basicString
  | multilineBasicString
  | literalString
  | multilineLiteralString
  | escapeSequence
  | fourDigitCode
  | eightDigitCode
  | value
  | integer
  | hexadecimalInteger
  | octalInteger
  | binaryInteger
  | floatingPoint
  | dateTime
  | time
  | timeOffset
  deriving DecidableEq, Repr

/-- The name of a form. Where there is no value at all, a string is missed. -/
def Form.name : Form → String
  | .key => "key"
  | .tableHeader => "table header"
  | .array => "array"
  | .inlineTable => "inline table"
  | .basicString => "basic string"
  | .multilineBasicString => "multiline basic string"
  | .literalString => "literal string"
  | .multilineLiteralString => "multiline literal string"
  | .escapeSequence => "escape sequence"
  | .fourDigitCode => "unicode 4-digit hex code"
  | .eightDigitCode => "unicode 8-digit hex code"
  | .value => "string"
  | .integer => "integer"
  | .hexadecimalInteger => "hexadecimal integer"
  | .octalInteger => "octal integer"
  | .binaryInteger => "binary integer"
  | .floatingPoint => "floating-point number"
  | .dateTime => "date-time"
  | .time => "time"
  | .timeOffset => "time offset"

/-- Why something that is well written is refused. A table is given by its path. -/
inductive Reason where
  | duplicateKey (key : String) (table : Option (List String))
  | extendsValue (path : List String) (kind : String)
  | outOfRange
  | integerTooLarge
  | integerTooSmall
  | tooDeep
  | wrongType (found expected : String)
  | wrongValue (found expected : String)
  | wrongLength (length : Nat) (expected : String)
  | unknownField (name : String) (known : List String)
  deriving DecidableEq, Repr

/-- A name between backticks. -/
def ticked (name : String) : String := "\x60" ++ name ++ "\x60"

/-- The names of fields as alternatives. -/
def alternatives : List String → String
  | [a] => ticked a
  | [a, b] => ticked a ++ " or " ++ ticked b
  | names => "one of " ++ ", ".intercalate (names.map ticked)

/-- The text of a reason. -/
def Reason.message : Reason → String
  | .duplicateKey key none => "duplicate key " ++ ticked key
  | .duplicateKey key (some []) => "duplicate key " ++ ticked key ++ " in document root"
  | .duplicateKey key (some path) =>
      "duplicate key " ++ ticked key ++ " in table " ++ ticked (".".intercalate path)
  | .extendsValue path kind =>
      "dotted key " ++ ticked (".".intercalate path) ++
        " attempted to extend non-table type (" ++ kind ++ ")"
  | .outOfRange => "value is out of range"
  | .integerTooLarge => "number too large to fit in target type"
  | .integerTooSmall => "number too small to fit in target type"
  | .tooDeep => "recursion limit exceeded"
  | .wrongType found expected => "invalid type: " ++ found ++ ", expected " ++ expected
  | .wrongValue found expected => "invalid value: " ++ found ++ ", expected " ++ expected
  | .wrongLength length expected =>
      "invalid length " ++ Nat.repr length ++ ", expected " ++ expected
  | .unknownField name known =>
      "unknown field " ++ ticked name ++ ", expected " ++ alternatives known

/-- What is wrong at a place. -/
structure Problem where
  form : Option Form
  expected : List String
  reason : Option Reason
  deriving DecidableEq, Repr

namespace Problem

/-- Nothing can be said but that the source does not go on like this. -/
def bare : Problem := ⟨none, [], none⟩

/-- A form is malformed. -/
def malformed (form : Form) : Problem := ⟨some form, [], none⟩

/-- A form is malformed, for something else should stand there. -/
def lacking (form : Form) (expected : List String) : Problem := ⟨some form, expected, none⟩

/-- Something else should stand there. -/
def expecting (expected : List String) : Problem := ⟨none, expected, none⟩

/-- Something that is well written is refused. -/
def refused (reason : Reason) : Problem := ⟨none, [], some reason⟩

/-- Say in which form the problem is, unless the problem says it already. -/
def within (form : Form) (problem : Problem) : Problem :=
  { problem with form := some (problem.form.getD form) }

/-- Say what could have stood there as well. -/
def orElse (expected : List String) (problem : Problem) : Problem :=
  { problem with expected := problem.expected ++ expected }

/-- The lines of a problem: the form, what was expected, and the reason. -/
def message (problem : Problem) : String :=
  let form := problem.form.toList.map fun form => "invalid " ++ form.name
  let expected :=
    if problem.expected.isEmpty then [] else ["expected " ++ ", ".intercalate problem.expected]
  "\n".intercalate (form ++ expected ++ problem.reason.toList.map Reason.message)

end Problem

/-- A problem and where it is. -/
structure Fault where
  span : Span
  problem : Problem
  deriving DecidableEq, Repr

namespace Fault

/-- A problem with the next character. -/
def atCursor (cursor : Cursor) (problem : Problem) : Fault :=
  let size := (cursor.next?.map Char.utf8Size).getD 0
  ⟨⟨cursor.offset, cursor.offset + size⟩, problem⟩

end Fault

/-! ## Text -/

/-- Line and column of a position, both counted from zero. -/
structure Location where
  line : Nat
  column : Nat
  deriving DecidableEq, Repr

/-- The location of a byte offset behind some characters of a source, the last line in
reverse. Columns count characters, but bytes when the character there is not ASCII. The end
of a source that ends with a line end is behind that line end. -/
def locate (target : Nat) (offset line : Nat) (reversed : List Char) : List Char → Location
  | [] => ⟨line, reversed.length⟩
  | c :: cs =>
      if target ≤ offset then
        ⟨line, if c.utf8Size = 1 then reversed.length else byteLength reversed⟩
      else if c = '\n' && !cs.isEmpty then locate target (offset + 1) (line + 1) [] cs
      else locate target (offset + c.utf8Size) line (c :: reversed) cs

/-- The line with a number, counted from zero. -/
def sourceLine (source : String) (line : Nat) : String :=
  ((source.splitOn "\n")[line]?).getD ""

/-- The text of a fault: the location, the line, the carets and the problem. -/
def Fault.text (source : String) (fault : Fault) : String :=
  let location := locate fault.span.start 0 0 [] source.toList
  let number := Nat.repr (location.line + 1)
  let line := sourceLine source location.line
  let margin := "".pushn ' ' (number.length + 1) ++ "|"
  let stop := min fault.span.stop (fault.span.start + line.utf8ByteSize)
  let carets := "^".pushn '^' (stop - (fault.span.start + 1))
  "TOML parse error at line " ++ number ++ ", column " ++ Nat.repr (location.column + 1) ++ "\n" ++
    margin ++ "\n" ++
    number ++ " | " ++ line ++ "\n" ++
    margin ++ "".pushn ' ' (location.column + 1) ++ carets ++ "\n" ++
    fault.problem.message ++ "\n"

end FleetCompose.Toml
