import FleetCompose.Text.Quoted
import FleetCompose.Yaml.Node
import FleetCompose.Yaml.Value

/-!
# Why a source is not a document

A source may break off with a syntax error, or have values of the wrong types. The second
kind of error says at which path of the document the value is.
-/

namespace FleetCompose

/-- A step of a path in a document. Keys other than scalars are not shown. -/
inductive PathStep where
  | item (index : Nat)
  | key (name : String)
  | otherKey
  deriving DecidableEq, Repr

/-- A path in a document, from the root on. -/
abbrev DocumentPath := List PathStep

namespace DocumentPath

/-- The written form of a path behind the part written so far; the root has none. -/
def textFrom (written : String) : DocumentPath → String
  | [] => written
  | .item index :: rest =>
      textFrom ((if written.isEmpty then "." else written) ++ "[" ++ Nat.repr index ++ "]") rest
  | .key name :: rest => textFrom (dotted written ++ name) rest
  | .otherKey :: rest => textFrom (dotted written ++ "?") rest
where
  /-- A point separates the keys of a path. -/
  dotted (written : String) : String := if written.isEmpty then "" else written ++ "."

/-- The written form of a path. -/
def text (path : DocumentPath) : String := textFrom "" path

end DocumentPath

/-- What was found in the place of something else. -/
inductive Found where
  | unit
  | bool (value : Bool)
  | integer (value : Int)
  | wide (value : Int)
  | float (value : Binary64)
  | string (text : String)
  | sequence
  | mapping
  deriving DecidableEq, Repr

/-- How floating point numbers are written in messages: never with an exponent. -/
def Found.floatLayout : Decimal.Layout := ⟨-400, 400, false⟩

/-- The wording of what was found. -/
def Found.text : Found → String
  | .unit => "unit value"
  | .bool value => "boolean `" ++ (if value then "true" else "false") ++ "`"
  | .integer value => "integer `" ++ toString value ++ "`"
  | .wide value =>
      "integer `" ++ toString value ++ "` as " ++ if value < 0 then "i128" else "u128"
  | .float value =>
      "floating point `" ++
        (if value.isNaN then "NaN"
          else if value.isInfinite then if value.negative then "-inf" else "inf"
          else floatLayout.writeFinite value) ++ "`"
  | .string text => "string " ++ Text.quoted text
  | .sequence => "sequence"
  | .mapping => "map"

/-- What is wrong with a value. -/
inductive TypeProblem where
  | invalidType (found : Found) (expected : String)
  | invalidValue (text expected : String)
  | unknownField (name : String) (known : List String)
  | duplicateField (name : String)
  | repeatedKey (key : Yaml.Value)
  | noFormOfVars
  | tagged

namespace TypeProblem

/-- The wording of a list of names, one of which was expected. -/
def oneOf (names : List String) : String :=
  match names.map fun name => "`" ++ name ++ "`" with
  | [] => "there are no fields"
  | [name] => "expected " ++ name
  | [first, second] => "expected " ++ first ++ " or " ++ second
  | names => "expected one of " ++ ", ".intercalate names

/-- The wording of a repeated key. -/
def repeatedKeyText : Yaml.Value → String
  | .null => "with null key"
  | .bool value => "with key `" ++ (if value then "true" else "false") ++ "`"
  | .number value => "with key " ++ value.text
  | .string text => "with key " ++ Text.quoted text
  | .sequence _ | .mapping _ | .tagged _ _ => "in YAML map"

/-- The wording of a problem. -/
def message : TypeProblem → String
  | .invalidType found expected => "invalid type: " ++ found.text ++ ", expected " ++ expected
  | .invalidValue text expected =>
      "invalid value: string " ++ Text.quoted text ++ ", expected " ++ expected
  | .unknownField name known => "unknown field `" ++ name ++ "`, " ++ oneOf known
  | .duplicateField name => "duplicate field `" ++ name ++ "`"
  | .repeatedKey key => "duplicate entry " ++ repeatedKeyText key
  | .noFormOfVars => "data did not match any variant of untagged enum RawVars"
  | .tagged => "untagged and internally tagged enums do not support enum input"

end TypeProblem

/-- Why a source is not a document. A wrong value is placed by a mark and a path. -/
inductive ReadError where
  | brokenOff (cause : Yaml.BreakOff)
  | wrongType (problem : TypeProblem) (place : Option (Yaml.Mark × DocumentPath))
  | tooDeep (mark : Yaml.Mark)
  | tooManyAliases
  | severalDocuments

namespace ReadError

/-- Place an error, unless it is placed already. -/
def locate (mark : Yaml.Mark) (path : DocumentPath) : ReadError → ReadError
  | .wrongType problem none => .wrongType problem (some (mark, path))
  | error => error

/-- The position of an error. -/
def mark? : ReadError → Option Yaml.Mark
  | .brokenOff (.syntaxError error) => some error.mark
  | .brokenOff (.unknownAnchor mark) => some mark
  | .wrongType _ place => place.map Prod.fst
  | .tooDeep mark => some mark
  | .tooManyAliases | .severalDocuments => none

/-- The wording of a position; the start of the source is not shown. -/
def markText (mark : Yaml.Mark) : String := if mark.isStart then "" else " at " ++ mark.text

/-- The wording of an error. -/
def message : ReadError → String
  | .brokenOff (.syntaxError error) => error.message
  | .brokenOff (.unknownAnchor mark) => "unknown anchor" ++ markText mark
  | .wrongType problem none => problem.message
  | .wrongType problem (some (mark, path)) =>
      (if path.isEmpty then "" else path.text ++ ": ") ++ problem.message ++ markText mark
  | .tooDeep mark => "recursion limit exceeded" ++ markText mark
  | .tooManyAliases => "repetition limit exceeded"
  | .severalDocuments =>
      "deserializing from YAML containing more than one document is not supported"

end ReadError

end FleetCompose
