import FleetCompose.Compose.Model
import FleetCompose.Text.Split
import FleetCompose.Yaml.Writer

/-!
# Manifests

The manifest names an optional version, the services, the networks and, if there are any,
the volumes. Every service is written as a document of its own and indented; the sections
for networks and volumes are written in the same way.
-/

namespace FleetCompose

/-- A service that cannot be written. -/
structure RenderError where
  service : String
  cause : Yaml.WriteError
  deriving DecidableEq, Repr

/-- The wording of an error. -/
def RenderError.message (error : RenderError) : String :=
  "failed to serialize service '" ++ error.service ++ "': " ++ error.cause.message

namespace Manifest

/-- Put two spaces in front of every line that is not empty. -/
def indent (text : String) : String :=
  String.join ((Text.lines text).map fun line =>
    (if line.isEmpty then "" else "  ") ++ line ++ "\n")

/-- Fields as a value. -/
def ofFields (fields : Fields) : Yaml.Value :=
  .mapping (fields.entries.map fun (name, value) => (.string name, value))

/-- The text of a service, not indented. -/
def serviceText (service : Service) : Except RenderError String :=
  (Yaml.Value.writeDocument [(service.name, ofFields service.fields)]).mapError
    (⟨service.name, ·⟩)

/-- The body of a network: the network of an area uses the bridge driver. -/
def networkBody (network : Network) : Yaml.Value :=
  .mapping (if network.area.isSome then [(.string "driver", .string "bridge")] else [])

/-- The text of a section of the manifest. A repeated name keeps its first place and its
last body. -/
def sectionText (entries : List (String × Yaml.Value)) : String :=
  Yaml.Value.documentText
    ((OrderedMap.ofList entries).entries.map fun (name, body) => (.string name, body))

/-- The networks, not indented. -/
def networksText (networks : List Network) : String :=
  sectionText (networks.map fun network => (network.name, networkBody network))

/-- The volumes, not indented. -/
def volumesText (volumes : List String) : String :=
  sectionText (volumes.map fun volume => (volume, .mapping []))

/-- The version line. An empty version has none. -/
def versionText : Option String → String
  | none => ""
  | some version => if version.isEmpty then "" else "version: \"" ++ version ++ "\"\n"

/-- Put the sections together. -/
def assemble (version : Option String) (services : List String) (networks : List Network)
    (volumes : List String) : String :=
  versionText version ++ "services:\n" ++ String.join (services.map indent) ++
    "\nnetworks:\n" ++ indent (networksText networks) ++
    if volumes.isEmpty then "" else "\nvolumes:\n" ++ indent (volumesText volumes)

/-- The manifest of a model. -/
def ofModel (model : Model) : Except RenderError String :=
  (traverse serviceText model.services).map fun services =>
    assemble model.version services model.networks model.volumes

end Manifest

end FleetCompose
