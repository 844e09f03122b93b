import FleetCompose.Compose.Dockerfile
import FleetCompose.Compose.Manifest

/-!
# Artifacts

Everything that a run produces: the manifest, one Dockerfile for every package of every
robot, and the host files that are copied next to the Dockerfiles.
-/

namespace FleetCompose

/-- What a run produces. -/
structure Artifacts where
  manifest : String
  dockerfiles : List Dockerfile
  assets : List Asset
  deriving DecidableEq, Repr

namespace Artifacts

/-- The artifacts are complete. -/
def renderedEvent (artifacts : Artifacts) : LogEvent :=
  ⟨.debug, .rendering, "rendered artifacts",
    [("dockerfiles", .shown (Nat.repr artifacts.dockerfiles.length))]⟩

/-- The artifacts of a model. -/
def ofModel (model : Model) : Logged RenderError Artifacts := do
  let manifest ← Logged.ofExcept (Manifest.ofModel model)
  let artifacts : Artifacts :=
    ⟨manifest, model.builds.map BuildSpec.dockerfile, model.builds.flatMap BuildSpec.assets⟩
  Logged.tell [artifacts.renderedEvent]
  return artifacts

end Artifacts

end FleetCompose
