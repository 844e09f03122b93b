import FleetCompose.Fleet
import FleetCompose.Template.Placeholder

/-!
# Scopes

A scope binds the names of template variables to texts. Every robot has one scope, which
its images and packages share: the system variables first, and then the variables that the
robot declares, which may replace earlier ones.
-/

namespace FleetCompose.Template

/-- The variables of a robot, in the order in which their names were first bound. -/
structure Scope where
  vars : OrderedMap String String

/-- A placeholder whose name is not bound. -/
structure Unresolved where
  name : String
  raw : String
  deriving DecidableEq, Repr

namespace Scope

/-- The name of the variable for the distribution. -/
def distroName : String := "ROBOT_ROS_DISTRO"

/-- The name under which the metadata is also bound. -/
def metadataAlias : RosFamily → String
  | .ros1 => "ROBOT_ROS_PORT"
  | .ros2 => "ROBOT_ROS_DOMAIN"

/-- The scope of a list of bindings; of two bindings of one name the later one counts. -/
def ofPairs (pairs : List (String × String)) : Scope := ⟨OrderedMap.ofList pairs⟩

/-- The bindings that every robot has. -/
def systemVars (areaId : String) (robot : Robot) : List (String × String) :=
  [("AREA_ID", areaId), ("ROBOT_ID", robot.id), (distroName, robot.ros.distro),
   ("ROBOT_ROS_METADATA", robot.ros.metadataText),
   (metadataAlias robot.ros.family, robot.ros.metadataText)]

/-- The scope of a robot in an area. -/
def ofRobot (areaId : String) (robot : Robot) : Scope :=
  ofPairs (systemVars areaId robot ++ robot.vars)

/-- The text that a name is bound to. -/
def get? (scope : Scope) (name : String) : Option String := scope.vars.get? name

/-- Is the name bound? -/
def contains (scope : Scope) (name : String) : Bool := scope.vars.contains name

theorem contains_eq (scope : Scope) (name : String) :
    scope.contains name = (scope.get? name).isSome := rfl

/-- The bound names, in the order in which they were first bound. -/
def names (scope : Scope) : List String := scope.vars.keys

/-- The text of a list of segments. A bound text is inserted as it is, and what it holds
is not expanded again. -/
def substituteSegments (scope : Scope) : List Segment → Except Unresolved String
  | [] => .ok ""
  | .literal text :: rest => (scope.substituteSegments rest).map (text ++ ·)
  | .placeholder name raw :: rest =>
      match scope.get? name with
      | none => .error ⟨name, raw⟩
      | some value => (scope.substituteSegments rest).map (value ++ ·)

/-- Replace every placeholder that a text is cut at by the text that its name is bound to. -/
def substitute (scope : Scope) (text : String) : Except Unresolved String :=
  scope.substituteSegments (segments text)

end Scope

end FleetCompose.Template
