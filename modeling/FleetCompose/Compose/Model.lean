import FleetCompose.Compose.Build
import FleetCompose.Compose.Resources

/-!
# Models

A model is what the manifest and the Dockerfiles are written from: all services robot by
robot and then the globals, the networks and volumes they use, the builds of the packages,
and a summary of every robot.
-/

namespace FleetCompose

/-- The summary of a robot. -/
structure RobotSummary where
  id : String
  area : String
  network : String
  ros : RosSpec
  master : Option String
  services : List String
  vars : OrderedMap String String

/-- What the artifacts are written from. -/
structure Model where
  version : Option String
  services : List Service
  networks : List Network
  volumes : List String
  builds : List BuildSpec
  robots : List RobotSummary

/-- The services and builds of one robot. -/
structure RobotPart where
  services : List Service
  builds : List BuildSpec
  summary : RobotSummary

namespace Model

/-- The first service with the given name. -/
def findService (model : Model) (name : String) : Option Service :=
  model.services.find? fun service => service.name == name

/-- The first build of the given service. -/
def findBuild (model : Model) (service : String) : Option BuildSpec :=
  model.builds.find? fun build => build.service == service

/-- The service and the build of a package. -/
def packagePart (settings : Settings) (robot : ExpandedRobot) (package : ExpandedPackage) :
    Logged BuildError (Service × BuildSpec) := do
  let build ← Logged.ofExcept (PackageBuild.ofPackage robot package settings.workspace)
  let context := build.spec.context
  Logged.tell
    (Service.packageEvents robot package.service package.extra context build.volumes)
  let service := Service.ofPackage robot package.service package.extra context build.volumes
    settings.restart
  return (service, build.spec)

/-- The services and builds of packages, one after the other. -/
def packageParts (settings : Settings) (robot : ExpandedRobot) :
    List ExpandedPackage → Logged BuildError (List (Service × BuildSpec))
  | [] => return []
  | package :: packages => do
      let part ← packagePart settings robot package
      let parts ← packageParts settings robot packages
      return part :: parts

/-- The summary of a robot with the given services. -/
def summary (robot : ExpandedRobot) (services : List Service) : RobotSummary where
  id := robot.id
  area := robot.areaId
  network := areaNetwork robot.areaId
  ros := robot.ros
  master :=
    match robot.ros.family with
    | .ros1 => some robot.masterService
    | .ros2 => none
  services := services.map Service.name
  vars := robot.scope.vars

/-- The services of a robot: its master, its images and its packages. -/
def robotPart (settings : Settings) (robot : ExpandedRobot) : Logged BuildError RobotPart := do
  Logged.tell
    (Service.masterEvents robot ++ robot.images.flatMap (Service.imageEvents robot))
  let parts ← packageParts settings robot robot.packages
  let services :=
    (Service.ofMaster robot settings.restart).toList ++
      robot.images.map (fun image => Service.ofImage robot image settings.restart) ++
      parts.map Prod.fst
  return ⟨services, parts.map Prod.snd, summary robot services⟩

/-- The parts of robots, one after the other. -/
def robotParts (settings : Settings) :
    List ExpandedRobot → Logged BuildError (List RobotPart)
  | [] => return []
  | robot :: robots => do
      let part ← robotPart settings robot
      let parts ← robotParts settings robots
      return part :: parts

/-- Put the parts of the robots and the globals together. -/
def assemble (version : Option String) (areas : List String) (globals : List Global)
    (parts : List RobotPart) : Model :=
  let services := parts.flatMap RobotPart.services ++ globals.map Service.ofGlobal
  { version
    services
    networks := Network.collect areas services
    volumes := Volume.collect services
    builds := parts.flatMap RobotPart.builds
    robots := parts.map RobotPart.summary }

/-- The model is complete. -/
def convertedEvent (model : Model) : LogEvent :=
  ⟨.debug, .converting, "converted model",
    [("services", .shown (Nat.repr model.services.length)),
     ("builds", .shown (Nat.repr model.builds.length)),
     ("networks", .shown (Nat.repr model.networks.length)),
     ("volumes", .shown (Nat.repr model.volumes.length))]⟩

/-- The model of an expanded fleet. -/
def ofFleet (settings : Settings) (fleet : ExpandedFleet) : Logged BuildError Model := do
  let parts ← robotParts settings fleet.robots
  let model := assemble settings.composeVersion (fleet.areas.map ExpandedArea.id)
    fleet.globals parts
  Logged.tell [convertedEvent model]
  return model

end Model

end FleetCompose
