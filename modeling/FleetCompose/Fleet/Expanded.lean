import FleetCompose.Data.Traverse
import FleetCompose.Logged
import FleetCompose.Template.Values

/-!
# Expanded fleets

In an expanded fleet every robot has copies of its own of the images and packages it runs,
with the placeholders in them replaced by the variables of that robot. An image that two
robots run is there twice. Globals are not expanded.
-/

namespace FleetCompose

open Template (Scope)

/-- An image as one robot runs it. -/
structure ExpandedImage where
  id : String
  service : String
  image : String
  extra : Fields

/-- A package as one robot runs it. -/
structure ExpandedPackage where
  id : String
  service : String
  path : String
  command : String
  apt : List String
  git : List String
  rosinstall : Option String
  ssh : List String
  files : List String
  extra : Fields

/-- A robot with its variables and everything it runs. -/
structure ExpandedRobot where
  id : String
  areaId : String
  ros : RosSpec
  scope : Scope
  extra : Fields
  images : List ExpandedImage
  packages : List ExpandedPackage

/-- The service of the robot's master. -/
def ExpandedRobot.masterService (robot : ExpandedRobot) : String :=
  FleetCompose.masterService robot.id

/-- The distribution as the robot's variables have it; the robot may declare a variable
that replaces the distribution of its `ros` field. -/
def ExpandedRobot.distro (robot : ExpandedRobot) : String :=
  (robot.scope.get? Scope.distroName).getD robot.ros.distro

/-- An area with its robots. -/
structure ExpandedArea where
  id : String
  robots : List ExpandedRobot

/-- A fleet with its placeholders replaced. -/
structure ExpandedFleet where
  areas : List ExpandedArea
  globals : List Global

/-- All robots, area by area. -/
def ExpandedFleet.robots (fleet : ExpandedFleet) : List ExpandedRobot :=
  fleet.areas.flatMap ExpandedArea.robots

/-- The robot with the given id. -/
def ExpandedFleet.findRobot (fleet : ExpandedFleet) (id : String) : Option ExpandedRobot :=
  fleet.robots.find? fun robot => robot.id == id

/-- Why a fleet cannot be expanded: a placeholder of an entity has no value among the
variables of the robot. -/
structure ExpansionError where
  kind : EntityKind
  id : String
  robot : String
  misfit : Template.MisfitAt
  deriving DecidableEq, Repr

/-- The wording of an expansion error. -/
def ExpansionError.message (error : ExpansionError) : String :=
  "unresolved template variable '" ++ error.misfit.unresolved.raw ++ "' in " ++
    error.kind.name ++ " '" ++ error.id ++ "' field '" ++ error.misfit.position.text ++
    "' (robot '" ++ error.robot ++ "')"

namespace Fleet

/-- Expand an image for a robot. -/
def expandImage (scope : Scope) (robot : Robot) (image : Image) :
    Except ExpansionError ExpandedImage :=
  Except.mapError (⟨.image, image.id, robot.id, ·⟩) do
    return {
      id := image.id
      service := instanceService robot.id image.id
      image := ← Template.expandTextField scope "image" image.image
      extra := ← Template.expandFields scope image.extra }

/-- Expand a package for a robot. -/
def expandPackage (scope : Scope) (robot : Robot) (package : Package) :
    Except ExpansionError ExpandedPackage :=
  Except.mapError (⟨.package, package.id, robot.id, ·⟩) do
    return {
      id := package.id
      service := instanceService robot.id package.id
      path := ← Template.expandTextField scope "path" package.path
      command := ← Template.expandTextField scope "command" package.command
      apt := ← Template.expandListField scope "apt" package.apt
      git := ← Template.expandListField scope "git" package.git
      rosinstall := ← expandOptional scope "rosinstall" package.rosinstall
      ssh := ← Template.expandListField scope "ssh" package.ssh
      files := ← Template.expandListField scope "files" package.files
      extra := ← Template.expandFields scope package.extra }
where
  /-- Expand a text that may be absent. -/
  expandOptional (scope : Scope) (field : String) :
      Option String → Except Template.MisfitAt (Option String)
    | none => .ok none
    | some text => (Template.expandTextField scope field text).map some

/-- Expand a robot: its own fields, then its images, then its packages. -/
def expandRobot (fleet : Fleet) (areaId : String) (robot : Robot) :
    Except ExpansionError ExpandedRobot := do
  let scope := Scope.ofRobot areaId robot
  let extra ←
    (Template.expandFields scope robot.extra).mapError (⟨.robot, robot.id, robot.id, ·⟩)
  let images ← traverse (expandImage scope robot) (fleet.imagesOf robot)
  let packages ← traverse (expandPackage scope robot) (fleet.packagesOf robot)
  return {
    id := robot.id
    areaId
    ros := robot.ros
    scope
    extra
    images
    packages }

/-! ## Log events -/

/-- A robot is expanded. -/
def robotExpandedEvent (robot : ExpandedRobot) : LogEvent :=
  ⟨.debug, .expanding, "resolved robot scope",
    [("robot", .shown robot.id), ("vars", .shown (Nat.repr robot.scope.vars.size))]⟩

/-- The fleet is expanded. -/
def expandedEvent (fleet : ExpandedFleet) : LogEvent :=
  ⟨.debug, .expanding, "decoded template variables",
    [("robots", .shown (Nat.repr fleet.robots.length))]⟩

/-- Expand robots one after the other. -/
def expandRobots (fleet : Fleet) (areaId : String) :
    List Robot → Logged ExpansionError (List ExpandedRobot)
  | [] => return []
  | robot :: robots => do
      let image ← Logged.ofExcept (fleet.expandRobot areaId robot)
      Logged.tell [robotExpandedEvent image]
      let images ← fleet.expandRobots areaId robots
      return image :: images

/-- Expand areas one after the other. -/
def expandAreas (fleet : Fleet) : List Area → Logged ExpansionError (List ExpandedArea)
  | [] => return []
  | area :: areas => do
      let robots ← fleet.expandRobots area.id (fleet.robotsOf area)
      let images ← fleet.expandAreas areas
      return ⟨area.id, robots⟩ :: images

/-- Replace the placeholders of a fleet by the variables of its robots. -/
def expand (fleet : Fleet) : Logged ExpansionError ExpandedFleet := do
  let areas ← fleet.expandAreas fleet.areas
  let expanded := ⟨areas, fleet.globals⟩
  Logged.tell [expandedEvent expanded]
  return expanded

end Fleet

end FleetCompose
