import FleetCompose.Fleet

/-!
# Why a document does not describe a fleet
-/

namespace FleetCompose

/-- A field of an entity, or an item of a field that is a list. -/
inductive FieldPlace where
  | field (name : String)
  | item (name : String) (index : Nat)
  deriving DecidableEq, Repr

/-- The written form of a place. -/
def FieldPlace.text : FieldPlace → String
  | .field name => name
  | .item name index => name ++ "[" ++ Nat.repr index ++ "]"

/-- Where ids must not repeat, other than among the entities of one kind. -/
inductive IdScope where
  | robot (id : String)
  | area (id : String)
  | imagesAndPackages
  deriving DecidableEq, Repr

/-- The wording of a scope. -/
def IdScope.text : IdScope → String
  | .robot id => "robot '" ++ id ++ "'"
  | .area id => "area '" ++ id ++ "'"
  | .imagesAndPackages => "the namespace shared with images and packages"

/-- Declarations that do not go together. -/
inductive Conflict where
  | noSources
  | malformedFile (entry : String)
  | sameFileName (field name : String)
  | nothingToRun
  | variableName (name : String)
  | variableValue (name : String)
  | listedTwice (firstArea secondArea : String)
  | endpointTaken (family : RosFamily) (metadata : UInt32) (robot : String)
  deriving DecidableEq, Repr

/-- The wording of a conflict. -/
def Conflict.message : Conflict → String
  | .noSources => "declares none of 'apt', 'git' or 'rosinstall'"
  | .malformedFile entry => "file entry '" ++ entry ++ "' is not HOST:CONTAINER"
  | .sameFileName field name => "two '" ++ field ++ "' entries are both named '" ++ name ++ "'"
  | .nothingToRun => "declares neither images nor packages"
  | .variableName name => "variable name '" ++ name ++ "' is not an identifier"
  | .variableValue name => "variable '" ++ name ++ "' must have a scalar value"
  | .listedTwice firstArea secondArea =>
      "listed in both area '" ++ firstArea ++ "' and area '" ++ secondArea ++ "'"
  | .endpointTaken family metadata robot =>
      (match family with
        | .ros1 => "ROS master port "
        | .ros2 => "ROS domain id ") ++
        Nat.repr metadata.toNat ++ " is already used by robot '" ++ robot ++ "'"

/-- Why a document does not describe a fleet. -/
inductive LoadError where
  | missingField (kind : EntityKind) (id : Option String) (place : FieldPlace)
  | duplicateId (kind : EntityKind) (id : String) (scope : Option IdScope)
  | unresolved (fromKind : EntityKind) (fromId : String) (kind : EntityKind) (id : String)
      (suggestions : List String)
  | invalidRos (robot value : String) (issue : RosIssue)
  | conflicting (kind : EntityKind) (id : String) (conflict : Conflict)
  deriving DecidableEq, Repr

namespace LoadError

/-- The wording of a load error. -/
def message : LoadError → String
  | .missingField kind id place =>
      kind.name ++ (match id with | some id => " '" ++ id ++ "'" | none => "") ++
        " is missing required field '" ++ place.text ++ "'"
  | .duplicateId kind id scope =>
      "duplicate " ++ kind.name ++ " id '" ++ id ++ "'" ++
        (match scope with | some scope => " within " ++ scope.text | none => "")
  | .unresolved fromKind fromId kind id suggestions =>
      fromKind.name ++ " '" ++ fromId ++ "' references unknown " ++ kind.name ++ " '" ++ id ++
        "'" ++
        (if suggestions.isEmpty then ""
          else " (did you mean: " ++ ", ".intercalate suggestions ++ "?)")
  | .invalidRos robot value issue =>
      "robot '" ++ robot ++ "' has invalid ros value '" ++ value ++ "': " ++ issue.message
  | .conflicting kind id conflict => kind.name ++ " '" ++ id ++ "': " ++ conflict.message

/-- The declared ids that resemble an unresolved one. -/
def suggestions? : LoadError → Option (List String)
  | .unresolved _ _ _ _ suggestions => some suggestions
  | _ => none

end LoadError

end FleetCompose
