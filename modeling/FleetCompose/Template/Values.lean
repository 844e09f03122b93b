import FleetCompose.Template.Scope

/-!
# Placeholders inside values

Placeholders are replaced in every text of a value, at any depth: in the items of
sequences, in the values of mappings and under tags. The keys of mappings and all scalars
other than texts stay as they are. A failure says where in the value the text stands.
-/

namespace FleetCompose.Template

/-- A step from a value to a part of it. -/
inductive Step where
  | key (name : String)
  | otherKey
  | item (index : Nat)
  deriving DecidableEq, Repr

/-- The written form of a step. -/
def Step.text : Step → String
  | .key name => "." ++ name
  | .otherKey => ".?"
  | .item index => "[" ++ Nat.repr index ++ "]"

/-- The step to the value of a key. -/
def Step.ofKey (key : Yaml.Value) : Step :=
  match key.innerString? with
  | some name => .key name
  | none => .otherKey

/-- A place in the fields of an entity: a field and the steps into its value, outermost
first. -/
structure Position where
  field : String
  steps : List Step
  deriving DecidableEq, Repr

/-- The written form of a position. -/
def Position.text (position : Position) : String :=
  position.field ++ String.join (position.steps.map Step.text)

/-- A placeholder without a value, and the steps to the text that holds it. -/
structure Misfit where
  steps : List Step
  unresolved : Unresolved
  deriving DecidableEq, Repr

/-- The misfit as seen from the value that `step` leads away from. -/
def Misfit.under (step : Step) (misfit : Misfit) : Misfit :=
  { misfit with steps := step :: misfit.steps }

/-- Expand a text. -/
def expandText (scope : Scope) (text : String) : Except Misfit String :=
  (scope.substitute text).mapError fun unresolved => ⟨[], unresolved⟩

mutual

/-- Expand all texts of a value. The first misfit, in the order in which the value is
written, is the failure. -/
def expandValue (scope : Scope) : Yaml.Value → Except Misfit Yaml.Value
  | .string text => (expandText scope text).map .string
  | .sequence items => (expandItems scope 0 items).map .sequence
  | .mapping entries => (expandEntries scope entries).map .mapping
  | .tagged tag value => (expandValue scope value).map (.tagged tag)
  | .null => .ok .null
  | .bool value => .ok (.bool value)
  | .number value => .ok (.number value)

/-- Expand the items of a sequence from the item at `index` on. -/
def expandItems (scope : Scope) (index : Nat) : List Yaml.Value → Except Misfit (List Yaml.Value)
  | [] => .ok []
  | item :: items =>
      match expandValue scope item with
      | .error misfit => .error (misfit.under (.item index))
      | .ok image => (expandItems scope (index + 1) items).map (image :: ·)

/-- Expand the values of a mapping. -/
def expandEntries (scope : Scope) :
    List (Yaml.Value × Yaml.Value) → Except Misfit (List (Yaml.Value × Yaml.Value))
  | [] => .ok []
  | (key, value) :: entries =>
      match expandValue scope value with
      | .error misfit => .error (misfit.under (Step.ofKey key))
      | .ok image => (expandEntries scope entries).map ((key, image) :: ·)

end

/-- A placeholder without a value, and its position among the fields of an entity. -/
structure MisfitAt where
  position : Position
  unresolved : Unresolved
  deriving DecidableEq, Repr

/-- The misfit as seen from the entity. -/
def Misfit.inField (field : String) (misfit : Misfit) : MisfitAt :=
  ⟨⟨field, misfit.steps⟩, misfit.unresolved⟩

/-- Expand a field that is one text. -/
def expandTextField (scope : Scope) (field text : String) : Except MisfitAt String :=
  (expandText scope text).mapError (Misfit.inField field)

/-- Expand the texts of a list from the text at `index` on. -/
def expandTexts (scope : Scope) (index : Nat) : List String → Except Misfit (List String)
  | [] => .ok []
  | text :: texts =>
      match expandText scope text with
      | .error misfit => .error (misfit.under (.item index))
      | .ok image => (expandTexts scope (index + 1) texts).map (image :: ·)

/-- Expand a field that is a list of texts. -/
def expandListField (scope : Scope) (field : String) (texts : List String) :
    Except MisfitAt (List String) :=
  (expandTexts scope 0 texts).mapError (Misfit.inField field)

/-- Expand pass-through fields, first fields first. -/
def expandFields (scope : Scope) (fields : Fields) : Except MisfitAt Fields :=
  fields.traverse fun field value =>
    (expandValue scope value).mapError (Misfit.inField field)

end FleetCompose.Template
