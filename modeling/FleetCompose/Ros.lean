import FleetCompose.Settings
import FleetCompose.Text.Split

/-!
# The `ros` field of a robot

A robot declares its distribution as `DISTRO` or `DISTRO:METADATA`. The metadata is the
port of its master or its domain id, a number of 32 bits.
-/

namespace FleetCompose

/-- What is wrong with a `ros` field. -/
inductive RosIssue where
  | emptyDistro
  | unsupportedDistro
  | emptyMetadata
  | metadataNotNumeric
  | metadataOutOfRange
  deriving DecidableEq, Repr

/-- The wording of an issue. -/
def RosIssue.message : RosIssue → String
  | .emptyDistro => "distribution name is empty"
  | .unsupportedDistro => "unsupported ROS distribution"
  | .emptyMetadata => "metadata after ':' is empty"
  | .metadataNotNumeric => "metadata must be a non-negative integer"
  | .metadataOutOfRange => "metadata is out of range"

/-- The middleware of a robot. -/
structure RosSpec where
  distro : String
  family : RosFamily
  metadata : UInt32
  explicitMetadata : Bool
  deriving DecidableEq, Repr

namespace RosSpec

/-- The value of decimal digits, read from the left onto `start`. -/
def digitsValue (start : Nat) (digits : List Char) : Nat :=
  digits.foldl (fun n c => 10 * n + (c.toNat - 0x30)) start

/-- Read the metadata of a `ros` field. -/
def parseMetadata (text : String) : Except RosIssue UInt32 :=
  if text.isEmpty then .error .emptyMetadata
  else if ¬ text.toList.all Char.isDigit then .error .metadataNotNumeric
  else
    let value := digitsValue 0 text.toList
    if value < UInt32.size then .ok (UInt32.ofNat value) else .error .metadataOutOfRange

/-- Read a `ros` field. Blanks around the distribution and the metadata do not count, and
without metadata the settings' default for the family is taken. -/
def parse (settings : Settings) (value : String) : Except RosIssue RosSpec :=
  let (distro, metadata) :=
    match Text.splitFirst ':' value with
    | some (distro, metadata) => (Text.trim distro, some (Text.trim metadata))
    | none => (Text.trim value, none)
  if distro.isEmpty then .error .emptyDistro
  else
    match settings.familyOf distro with
    | none => .error .unsupportedDistro
    | some family =>
        match metadata with
        | none => .ok ⟨distro, family, settings.defaultMetadata family, false⟩
        | some text => (parseMetadata text).map fun port => ⟨distro, family, port, true⟩

/-- The setup script of a built workspace, relative to the workspace. -/
def workspaceSetup (ros : RosSpec) : String :=
  match ros.family with
  | .ros1 => "devel/setup.bash"
  | .ros2 => "install/setup.bash"

/-- The command that builds a workspace. -/
def buildTool (ros : RosSpec) : String :=
  match ros.family with
  | .ros1 => "catkin_make"
  | .ros2 => "colcon build"

/-- The metadata in decimal. -/
def metadataText (ros : RosSpec) : String := Nat.repr ros.metadata.toNat

end RosSpec

end FleetCompose
