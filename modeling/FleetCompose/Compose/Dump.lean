import FleetCompose.Compose.Model
import FleetCompose.Json.OfYaml

/-!
# Models as JSON

The JSON form of a model shows everything that the artifacts are written from.
-/

namespace FleetCompose.Model

/-- The middleware of a robot as JSON. -/
def rosJson (ros : RosSpec) : Json :=
  .object
    [("distro", .string ros.distro), ("family", .string ros.family.name),
     ("metadata", .integer ros.metadata.toNat), ("explicit_metadata", .bool ros.explicitMetadata)]

/-- A service as JSON. -/
def serviceJson (service : Service) : Except JsonError Json :=
  (Json.ofFields service.fields).map fun fields =>
    .object
      [("name", .string service.name), ("kind", .string service.kind.name),
       ("robot", Json.optional service.robot), ("fields", fields)]

/-- A network as JSON. -/
def networkJson (network : Network) : Json :=
  .object [("name", .string network.name), ("area", Json.optional network.area)]

/-- A host file as JSON. -/
def assetJson (asset : Asset) : Json :=
  .object [("source", .string asset.source), ("target", .string asset.target)]

/-- A build as JSON. -/
def buildJson (spec : BuildSpec) : Json :=
  .object
    [("service", .string spec.service), ("robot", .string spec.robot),
     ("package", .string spec.package), ("context", .string spec.context),
     ("base_image", .string spec.baseImage), ("distro", .string spec.distro),
     ("two_stage", .bool spec.twoStage), ("apt", Json.strings spec.apt),
     ("fetch_packages", Json.strings spec.fetchPackages),
     ("fetch_commands", Json.strings spec.fetchCommands),
     ("rosinstall", Json.optional spec.rosinstall), ("ssh_keys", Json.strings spec.sshKeys),
     ("workspace", .string spec.workspace), ("workspace_setup", .string spec.workspaceSetup),
     ("build_tool", .string spec.buildTool), ("run", .string spec.run),
     ("assets", .array (spec.assets.map assetJson))]

/-- The summary of a robot as JSON. -/
def robotJson (robot : RobotSummary) : Json :=
  .object
    [("id", .string robot.id), ("area", .string robot.area), ("network", .string robot.network),
     ("ros", rosJson robot.ros), ("master", Json.optional robot.master),
     ("services", Json.strings robot.services),
     ("vars", .object (robot.vars.entries.map fun (name, text) => (name, .string text)))]

/-- The model as JSON. -/
def toJson (model : Model) : Except JsonError Json :=
  (traverse serviceJson model.services).map fun services =>
    .object
      [("version", Json.optional model.version), ("services", .array services),
       ("networks", .array (model.networks.map networkJson)),
       ("volumes", Json.strings model.volumes), ("builds", .array (model.builds.map buildJson)),
       ("robots", .array (model.robots.map robotJson))]

end FleetCompose.Model
