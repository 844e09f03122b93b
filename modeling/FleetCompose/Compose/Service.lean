import FleetCompose.Compose.ImageRef
import FleetCompose.Compose.Requirement
import FleetCompose.Fleet.Expanded

/-!
# Services

Every robot of the first generation has a master, and every image and package of a robot is
a service of its own. A service starts from a few generated fields; the fields that the
author declared follow and may replace them; then comes what the middleware requires: the
environment, the network of the area and the start of the master. Globals are services as
they were declared.
-/

namespace FleetCompose

/-- Where a service comes from. -/
inductive ServiceKind where
  | master
  | image
  | package
  | global
  deriving DecidableEq, Repr

/-- The name of a kind. -/
def ServiceKind.name : ServiceKind → String
  | .master => "master"
  | .image => "image"
  | .package => "package"
  | .global => "global"

/-- A service of the manifest. A global has no robot. -/
structure Service where
  name : String
  kind : ServiceKind
  robot : Option String
  fields : Fields

/-- The variables through which a service finds the others of its robot. -/
def ExpandedRobot.environment (robot : ExpandedRobot) (service : String) :
    List (String × String) :=
  match robot.ros.family with
  | .ros1 =>
      [("ROS_HOSTNAME", service),
       ("ROS_MASTER_URI", "http://" ++ robot.masterService ++ ":" ++ robot.ros.metadataText)]
  | .ros2 => [("ROS_DOMAIN_ID", robot.ros.metadataText)]

namespace Service

/-- What the middleware requires of a service of a robot. Only services other than the
master wait for the master. -/
def wiring (robot : ExpandedRobot) (service : String) (waits : Bool) : List Requirement :=
  (robot.environment service).map (fun (name, text) => .envVar name text) ++
    [.member "networks" (areaNetwork robot.areaId) .null] ++
    if waits && robot.ros.family == .ros1 then
      [.member "depends_on" robot.masterService
        (.mapping [(.string "condition", .string "service_started")])]
    else []

/-- How the fields of a service come about. -/
structure Draft where
  generated : Fields
  declared : Fields
  requirements : List Requirement

/-- The generated fields with the declared ones put over them. -/
def Draft.overlaid (draft : Draft) : Fields :=
  draft.generated.insertAll draft.declared.entries

/-- The fields of a service. The restart policy is filled in last. -/
def Draft.fields (draft : Draft) (restart : String) : Fields :=
  let fields := draft.requirements.foldl (fun fields r => r.addTo fields) draft.overlaid
  if fields.contains "restart" then fields else fields.insert "restart" (.string restart)

/-- One warning for every requirement whose field is left alone. -/
def Draft.warnings (draft : Draft) (service : String) : List LogEvent :=
  (draft.requirements.filter fun r => Requirement.refusedBy (draft.overlaid.get? r.field)).map
    (Requirement.warning service)

/-- Fields with text values. -/
def textFields (entries : List (String × String)) : List (String × Yaml.Value) :=
  entries.map fun (name, text) => (name, .string text)

/-- The draft of a robot's master. -/
def masterDraft (robot : ExpandedRobot) : Draft where
  generated :=
    let port := robot.ros.metadataText
    OrderedMap.ofList
      (textFields
          [("container_name", robot.masterService), ("image", "ros:" ++ robot.distro),
           ("command", "roscore --port " ++ port)] ++
        [("ports", .sequence [.string (port ++ ":" ++ port)])])
  declared := robot.extra
  requirements := wiring robot robot.masterService false

/-- The draft of an image. Without tag and digest the distribution is the tag. -/
def imageDraft (robot : ExpandedRobot) (image : ExpandedImage) : Draft where
  generated :=
    OrderedMap.ofList
      (textFields
        [("container_name", image.service),
         ("image", (ImageRef.parse image.image).withDefaultTag robot.distro)])
  declared := image.extra
  requirements := wiring robot image.service true

/-- The draft of a package with a build context and the mounts of its bundled files. -/
def packageDraft (robot : ExpandedRobot) (service : String) (extra : Fields)
    (context : String) (volumes : List String) : Draft where
  generated := OrderedMap.ofList (textFields [("container_name", service), ("build", context)])
  declared := extra
  requirements :=
    volumes.map (fun volume => .member "volumes" volume .null) ++ wiring robot service true

/-- The master of a robot of the first generation. -/
def ofMaster (robot : ExpandedRobot) (restart : String) : Option Service :=
  match robot.ros.family with
  | .ros1 =>
      some ⟨robot.masterService, .master, some robot.id, (masterDraft robot).fields restart⟩
  | .ros2 => none

/-- The service of an image. -/
def ofImage (robot : ExpandedRobot) (image : ExpandedImage) (restart : String) : Service :=
  ⟨image.service, .image, some robot.id, (imageDraft robot image).fields restart⟩

/-- The service of a package. -/
def ofPackage (robot : ExpandedRobot) (service : String) (extra : Fields) (context : String)
    (volumes : List String) (restart : String) : Service :=
  ⟨service, .package, some robot.id,
    (packageDraft robot service extra context volumes).fields restart⟩

/-- The service of a global. -/
def ofGlobal (global : Global) : Service := ⟨global.id, .global, none, global.fields⟩

/-! ## Log events -/

/-- The events of a robot's master. -/
def masterEvents (robot : ExpandedRobot) : List LogEvent :=
  match robot.ros.family with
  | .ros1 => (masterDraft robot).warnings robot.masterService
  | .ros2 => []

/-- The events of an image. -/
def imageEvents (robot : ExpandedRobot) (image : ExpandedImage) : List LogEvent :=
  (if (ImageRef.parse image.image).isPinned then []
    else
      [⟨.debug, .wiring, "image has no tag, using the robot's distro",
        [("service", .shown image.service), ("tag", .shown robot.distro)]⟩]) ++
    (imageDraft robot image).warnings image.service

/-- The events of a package. -/
def packageEvents (robot : ExpandedRobot) (service : String) (extra : Fields)
    (context : String) (volumes : List String) : List LogEvent :=
  (packageDraft robot service extra context volumes).warnings service

end Service

end FleetCompose
