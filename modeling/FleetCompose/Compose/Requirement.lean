import FleetCompose.Logged
import FleetCompose.Text.Split
import FleetCompose.Yaml.Value

/-!
# Requirements of services

Some fields of a service are a list or a mapping, as the author likes. A requirement says
what such a field must have, in both forms: an item of the list, or an entry of the mapping.
What the author declared stays as it is, and a field that is neither a list nor a mapping is
left alone.
-/

namespace FleetCompose

/-- Something that a field of a service must have: an environment variable, or a member of a
field such as `networks`. In a mapping a member is the key of `value`. -/
inductive Requirement where
  | envVar (name text : String)
  | member (field name : String) (value : Yaml.Value)

namespace Requirement

/-- The field that is required to have something. -/
def field : Requirement → String
  | .envVar _ _ => "environment"
  | .member field _ _ => field

/-- The item that a list gets. -/
def item : Requirement → String
  | .envVar name text => name ++ "=" ++ text
  | .member _ name _ => name

/-- The key that a mapping gets. -/
def key : Requirement → String
  | .envVar name _ => name
  | .member _ name _ => name

/-- The value of the key in a mapping. -/
def value : Requirement → Yaml.Value
  | .envVar _ text => .string text
  | .member _ _ value => value

/-- Does an item of a list declare what is required? Of a variable only the name counts, and
tags do not matter. -/
def declaredBy (requirement : Requirement) (item : Yaml.Value) : Bool :=
  match requirement, item.innerString? with
  | .envVar name _, some text => Text.beforeFirst '=' text == name
  | .member _ name _, some text => text == name
  | _, none => false

/-- The value of a field that is required to have something. -/
def apply (requirement : Requirement) : Option Yaml.Value → Yaml.Value
  | none | some .null => .sequence [.string requirement.item]
  | some (.sequence items) =>
      if items.any requirement.declaredBy then .sequence items
      else .sequence (items ++ [.string requirement.item])
  | some (.mapping entries) =>
      if Yaml.Value.hasTextKey requirement.key entries then .mapping entries
      else .mapping (entries ++ [(.string requirement.key, requirement.value)])
  | some value => value

/-- Is the value of the field neither a list nor a mapping? -/
def refusedBy : Option Yaml.Value → Bool
  | none | some .null | some (.sequence _) | some (.mapping _) => false
  | some _ => true

/-- Put a requirement into the fields of a service. A new field goes to the end. -/
def addTo (requirement : Requirement) (fields : Fields) : Fields :=
  fields.insert requirement.field (requirement.apply (fields.get? requirement.field))

/-- The warning that a field is left alone. -/
def warning (service : String) (requirement : Requirement) : LogEvent :=
  match requirement with
  | .envVar _ _ =>
      ⟨.warn, .wiring, "'environment' is neither a list nor a mapping; left as is",
        [("service", .name service)]⟩
  | .member field _ _ =>
      ⟨.warn, .wiring, "field is neither a list nor a mapping; left as is",
        [("service", .name service), ("field", .name field)]⟩

/-- The item that a list gets declares what is required. -/
theorem declaredBy_item (requirement : Requirement)
    (h : ∀ name text, requirement = .envVar name text → '=' ∉ name.toList) :
    requirement.declaredBy (.string requirement.item) = true := by
  cases requirement with
  | member field name value => simp [declaredBy, item, Yaml.Value.innerString?]
  | envVar name text =>
      have split : Text.splitFirstChars '=' (name ++ "=" ++ text).toList =
          some (name.toList, text.toList) :=
        Text.splitFirstChars_eq_some_iff.2 ⟨by simp, h name text rfl⟩
      simp only [declaredBy, item, Yaml.Value.innerString?, Text.beforeFirst, Text.splitFirst]
      rw [split]
      simp

end Requirement

end FleetCompose
