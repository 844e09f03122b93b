import FleetCompose.Data.Traverse
import FleetCompose.Json.Value
import FleetCompose.Yaml.Value

/-!
# YAML values as JSON

The keys of a JSON object are texts, so a mapping is an object only if each of its keys is
a text, a boolean or a number. A tagged value is an object with one member, named for the
tag. Numbers that are not finite are null.
-/

namespace FleetCompose

/-- Why a YAML value has no JSON form. -/
inductive JsonError where
  | keyNotText
  | keyNotFinite
  deriving DecidableEq, Repr

/-- The wording of an error. -/
def JsonError.message : JsonError → String
  | .keyNotText => "key must be a string"
  | .keyNotFinite => "float key must be finite (got NaN or +/-inf)"

namespace Json

/-- The member name of a key. -/
def memberName : Yaml.Value → Except JsonError String
  | .string text => .ok text
  | .bool value => .ok (if value then "true" else "false")
  | .number (.int value) => .ok (toString value)
  | .number (.float value) =>
      if value.isFinite then .ok (floatLayout.writeFinite value) else .error .keyNotFinite
  | .null | .sequence _ | .mapping _ | .tagged _ _ => .error .keyNotText

/-- A number as JSON. -/
def ofNumber : Yaml.Number → Json
  | .int value => .integer value
  | .float value => if value.isFinite then .decimal value else .null

mutual

/-- A YAML value as JSON. The first offending key, in the order in which the value is
written, is the failure. -/
def ofYaml : Yaml.Value → Except JsonError Json
  | .null => .ok .null
  | .bool value => .ok (.bool value)
  | .number value => .ok (ofNumber value)
  | .string text => .ok (.string text)
  | .sequence items => (itemsOfYaml items).map .array
  | .mapping entries => (membersOfYaml entries).map .object
  | .tagged tag value => (ofYaml value).map fun image => .object [("!" ++ tag, image)]

def itemsOfYaml : List Yaml.Value → Except JsonError (List Json)
  | [] => .ok []
  | item :: items =>
      match ofYaml item with
      | .error failure => .error failure
      | .ok image => (itemsOfYaml items).map (image :: ·)

def membersOfYaml : List (Yaml.Value × Yaml.Value) → Except JsonError (List (String × Json))
  | [] => .ok []
  | (key, value) :: entries =>
      match memberName key with
      | .error failure => .error failure
      | .ok name =>
          match ofYaml value with
          | .error failure => .error failure
          | .ok image => (membersOfYaml entries).map ((name, image) :: ·)

end

/-- Fields as a JSON object. -/
def ofFields (fields : Fields) : Except JsonError Json :=
  (fields.traverse fun _ value => ofYaml value).map fun members => .object members.entries

end Json

end FleetCompose
