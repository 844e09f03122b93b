import FleetCompose.Text.Blank

/-!
# Settings

Settings say which distributions belong to which generation of the robot middleware and
what is filled in where a document leaves something open. A settings file may override any
part of the built-in settings; the two lists of distributions must stay disjoint.
-/

namespace FleetCompose

/-- The two generations of the robot middleware. Robots of the first one find each other
through a master on a port, robots of the second one through a domain id. -/
inductive RosFamily where
  | ros1
  | ros2
  deriving DecidableEq, Repr

/-- The name of a family. -/
def RosFamily.name : RosFamily → String
  | .ros1 => "ros1"
  | .ros2 => "ros2"

/-- The settings of a run. -/
structure Settings where
  ros1Distros : List String
  ros2Distros : List String
  ros1MasterPort : UInt32
  ros2DomainId : UInt32
  restart : String
  workspace : String
  composeVersion : Option String
  deriving DecidableEq, Repr

/-- What a settings file says; everything is optional. -/
structure SettingsFile where
  ros1Distros : Option (List String)
  ros2Distros : Option (List String)
  ros1MasterPort : Option UInt32
  ros2DomainId : Option UInt32
  restart : Option String
  workspace : Option String
  composeVersion : Option String
  deriving DecidableEq, Repr

namespace Settings

/-- The built-in settings. -/
def standard : Settings where
  ros1Distros := ["kinetic", "lunar", "melodic", "noetic"]
  ros2Distros := ["ardent", "bouncy", "crystal", "dashing", "eloquent", "foxy", "galactic",
    "humble", "iron", "jazzy", "rolling"]
  ros1MasterPort := 11311
  ros2DomainId := 42
  restart := "always"
  workspace := "/ros_workspace"
  composeVersion := some "3.8"

/-- The family of a distribution. The first family is looked up first. -/
def familyOf (settings : Settings) (distro : String) : Option RosFamily :=
  if distro ∈ settings.ros1Distros then some .ros1
  else if distro ∈ settings.ros2Distros then some .ros2
  else none

/-- The port or domain id of a robot that declares none. -/
def defaultMetadata (settings : Settings) : RosFamily → UInt32
  | .ros1 => settings.ros1MasterPort
  | .ros2 => settings.ros2DomainId

/-- Use another restart policy. -/
def withRestart (settings : Settings) (restart : String) : Settings :=
  { settings with restart }

/-- Use another workspace directory, without the slashes at its end. -/
def withWorkspace (settings : Settings) (workspace : String) : Settings :=
  { settings with workspace := Text.dropTrailingSlashes workspace }

/-- Set or clear the version line of the manifest. -/
def withComposeVersion (settings : Settings) (composeVersion : Option String) : Settings :=
  { settings with composeVersion }

/-- The built-in settings with what a settings file says in their place. An empty version
clears the version line. -/
def overlay (file : SettingsFile) : Settings where
  ros1Distros := file.ros1Distros.getD standard.ros1Distros
  ros2Distros := file.ros2Distros.getD standard.ros2Distros
  ros1MasterPort := file.ros1MasterPort.getD standard.ros1MasterPort
  ros2DomainId := file.ros2DomainId.getD standard.ros2DomainId
  restart := file.restart.getD standard.restart
  workspace := (file.workspace.map Text.dropTrailingSlashes).getD standard.workspace
  composeVersion :=
    match file.composeVersion with
    | none => standard.composeVersion
    | some version => if version.isEmpty then none else some version

/-- The first distribution that is in both lists, or the settings of the file. -/
def ofFile (file : SettingsFile) : Except String Settings :=
  let settings := overlay file
  match settings.ros1Distros.find? (· ∈ settings.ros2Distros) with
  | some distro => .error distro
  | none => .ok settings

/-- No distribution of settings that come from a file is in both lists. -/
theorem disjoint_of_ofFile {file : SettingsFile} {settings : Settings}
    (h : ofFile file = .ok settings) :
    ∀ distro ∈ settings.ros1Distros, distro ∉ settings.ros2Distros := by
  simp only [ofFile] at h
  split at h
  · cases h
  · next free =>
      cases h
      intro distro member other
      have := List.find?_eq_none.1 free distro member
      simp [other] at this

end Settings

end FleetCompose
