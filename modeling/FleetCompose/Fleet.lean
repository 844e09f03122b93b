import FleetCompose.Ros
import FleetCompose.Yaml.Value

/-!
# Fleets

A fleet is what a well-formed document describes: areas with their robots, and robots with
the images and packages they run. References are positions in the fleet's lists.
-/

namespace FleetCompose

/-- The kinds of entities that messages speak of. -/
inductive EntityKind where
  | document
  | area
  | robot
  | image
  | package
  | global
  | service
  deriving DecidableEq, Repr

/-- The name of a kind. -/
def EntityKind.name : EntityKind → String
  | .document => "document"
  | .area => "area"
  | .robot => "robot"
  | .image => "image"
  | .package => "package"
  | .global => "global"
  | .service => "service"

/-- The private network of an area. -/
def areaNetwork (areaId : String) : String := areaId ++ "-network"

/-- The service of a robot's master. -/
def masterService (robotId : String) : String := "roscore-" ++ robotId

/-- The service that runs an image or a package on a robot. -/
def instanceService (robotId entityId : String) : String := robotId ++ "-" ++ entityId

/-- An area: its robots are positions in the fleet's list of robots. -/
structure Area where
  id : String
  robots : List Nat

/-- A robot: its area, images and packages are positions in the fleet's lists. Of two
variables with one name the later one counts. -/
structure Robot where
  id : String
  ros : RosSpec
  area : Nat
  images : List Nat
  packages : List Nat
  vars : List (String × String)
  extra : Fields

/-- A container image, `IMAGE[:TAG]` as written. -/
structure Image where
  id : String
  image : String
  extra : Fields

/-- A package that is built into an image of its own. -/
structure Package where
  id : String
  path : String
  command : String
  apt : List String
  git : List String
  rosinstall : Option String
  ssh : List String
  files : List String
  extra : Fields

/-- A service outside the robots; its fields are passed on as they are. -/
structure Global where
  id : String
  fields : Fields

/-- A fleet of robots in their areas. -/
structure Fleet where
  areas : List Area
  robots : List Robot
  images : List Image
  packages : List Package
  globals : List Global

namespace Fleet

/-- The elements of a list at the given positions, in the order of the positions. -/
def pick {α : Type} (items : List α) (positions : List Nat) : List α :=
  positions.filterMap fun position => items[position]?

/-- The robots of an area, in the order in which the area lists them. -/
def robotsOf (fleet : Fleet) (area : Area) : List Robot := pick fleet.robots area.robots

/-- The images of a robot, in the order of its references. -/
def imagesOf (fleet : Fleet) (robot : Robot) : List Image := pick fleet.images robot.images

/-- The packages of a robot, in the order of its references. -/
def packagesOf (fleet : Fleet) (robot : Robot) : List Package :=
  pick fleet.packages robot.packages

/-- The robot with the given id. -/
def findRobot (fleet : Fleet) (id : String) : Option Robot :=
  fleet.robots.find? fun robot => robot.id == id

/-- The names of the services that a robot needs: its master if it has one, its images and
its packages. -/
def serviceNamesOf (fleet : Fleet) (robot : Robot) : List String :=
  (match robot.ros.family with
    | .ros1 => [masterService robot.id]
    | .ros2 => []) ++
    (fleet.imagesOf robot).map (fun image => instanceService robot.id image.id) ++
    (fleet.packagesOf robot).map (fun package => instanceService robot.id package.id)

/-- The names of all services: robot by robot, and then the globals. -/
def serviceNames (fleet : Fleet) : List String :=
  fleet.robots.flatMap fleet.serviceNamesOf ++ fleet.globals.map Global.id

end Fleet

end FleetCompose
