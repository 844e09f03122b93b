import FleetCompose.Fleet.Declarations
import FleetCompose.Logged

/-!
# Loading a fleet

A document is loaded in three steps: its sections are checked one by one, the robots that
some area lists are put together with their areas, and what must be unique over the whole
fleet is checked last. Robots that no area lists, and images and packages that no robot of
the fleet uses, are reported in the log.
-/

namespace FleetCompose

namespace Declarations

/-- Does some area list the robot? -/
def isListed (decls : Declarations) (robot : CheckedRobot) : Bool :=
  (ownerOf decls.areas robot.id).isSome

/-- The robots that some area lists, in the order of the document. -/
def listedRobots (decls : Declarations) : List CheckedRobot :=
  decls.robots.filter decls.isListed

/-- The robots that no area lists, in the order of the document. -/
def unlistedRobots (decls : Declarations) : List CheckedRobot :=
  decls.robots.filter fun robot => !decls.isListed robot

/-- The position of the area that lists a robot. -/
def areaPosition (decls : Declarations) (robot : String) : Nat :=
  decls.areas.findIdx fun area => robot ∈ area.robots

/-- The position of a robot among the listed ones. -/
def robotPosition? (decls : Declarations) (robot : String) : Option Nat :=
  decls.listedRobots.findIdx? fun listed => listed.id == robot

/-- Put the listed robots together with their areas. -/
def fleet (decls : Declarations) : Fleet where
  areas := decls.areas.map fun area => ⟨area.id, area.robots.filterMap decls.robotPosition?⟩
  robots := decls.listedRobots.map fun robot =>
    { id := robot.id
      ros := robot.ros
      area := decls.areaPosition robot.id
      images := robot.images
      packages := robot.packages
      vars := robot.vars
      extra := robot.extra }
  images := decls.images
  packages := decls.packages
  globals := decls.globals

end Declarations

namespace Fleet

/-- Refuse a robot with the port or domain id of an earlier one of its family. -/
def checkEndpoint (accepted : List Robot) (robot : Robot) : Except LoadError Robot :=
  match accepted.find? fun other =>
      other.ros.family == robot.ros.family && other.ros.metadata == robot.ros.metadata with
  | some other =>
      .error (.conflicting .robot robot.id
        (.endpointTaken robot.ros.family robot.ros.metadata other.id))
  | none => .ok robot

/-- Refuse a service name that is taken. -/
def checkServiceName (accepted : List String) (name : String) : Except LoadError String :=
  if name ∈ accepted then .error (.duplicateId .service name none) else .ok name

/-- Check what must be unique over the whole fleet: endpoints, and the names of services. -/
def check (fleet : Fleet) : Except LoadError Unit := do
  let _ ← accumulate checkEndpoint [] fleet.robots
  let _ ← accumulate checkServiceName [] fleet.serviceNames
  return ()

/-- The images that no robot of the fleet uses. -/
def unusedImages (fleet : Fleet) : List Image :=
  (fleet.images.zipIdx.filter fun (_, position) =>
    !fleet.robots.any fun robot => robot.images.contains position).map Prod.fst

/-- The packages that no robot of the fleet uses. -/
def unusedPackages (fleet : Fleet) : List Package :=
  (fleet.packages.zipIdx.filter fun (_, position) =>
    !fleet.robots.any fun robot => robot.packages.contains position).map Prod.fst

/-! ## Log events -/

/-- A robot is left out. -/
def unlistedWarning (id : String) : LogEvent :=
  ⟨.warn, .loading, "robot is not referenced by any area and will not be generated",
    [("robot", .shown id)]⟩

/-- An image is left out. -/
def unusedImageWarning (id : String) : LogEvent :=
  ⟨.warn, .loading, "image is not used by any generated robot", [("image", .shown id)]⟩

/-- A package is left out. -/
def unusedPackageWarning (id : String) : LogEvent :=
  ⟨.warn, .loading, "package is not used by any generated robot", [("package", .shown id)]⟩

/-- The warnings about what the fleet does not use. -/
def unusedWarnings (fleet : Fleet) : List LogEvent :=
  fleet.unusedImages.map (fun image => unusedImageWarning image.id) ++
    fleet.unusedPackages.map fun package => unusedPackageWarning package.id

/-- The size of the fleet. -/
def loadedEvent (fleet : Fleet) : LogEvent :=
  ⟨.debug, .loading, "loaded entity graph",
    [("areas", .shown (Nat.repr fleet.areas.length)),
     ("robots", .shown (Nat.repr fleet.robots.length)),
     ("images", .shown (Nat.repr fleet.images.length)),
     ("packages", .shown (Nat.repr fleet.packages.length)),
     ("globals", .shown (Nat.repr fleet.globals.length))]⟩

end Fleet

/-- The fleet that a document describes. -/
def loadFleet (settings : Settings) (doc : Document) : Logged LoadError Fleet := do
  let decls ← Logged.ofExcept (Declarations.ofDocument settings doc)
  Logged.tell (decls.unlistedRobots.map fun robot => Fleet.unlistedWarning robot.id)
  let fleet := decls.fleet
  Logged.ofExcept fleet.check
  Logged.tell (fleet.unusedWarnings ++ [fleet.loadedEvent])
  return fleet

end FleetCompose
