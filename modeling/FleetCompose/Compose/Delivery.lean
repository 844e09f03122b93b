import FleetCompose.Compose.Artifacts
import FleetCompose.Files.Step

/-!
# Delivering artifacts

The manifest goes to a path of its own, and everything else next to it. All host files are
looked up before anything is written, so a missing one leaves the file system untouched.
-/

namespace FleetCompose

/-- The paths of artifacts that were written. -/
structure Written where
  manifest : Path
  dockerfiles : List Path
  assets : List Path
  deriving DecidableEq, Repr

/-- The directory next to which a file is. -/
def Path.directory (path : Path) : Path :=
  match path.parent? with
  | some parent => if parent.isEmpty then ⟨"."⟩ else parent
  | none => ⟨"."⟩

/-- Make the directory that a path is in. -/
def FileStep.makeParent (path : Path) : List FileStep :=
  match path.parent? with
  | some parent => if parent.isEmpty then [] else [.makeAll parent]
  | none => []

namespace Artifacts

/-- The paths of the artifacts of a manifest. -/
def written (artifacts : Artifacts) (manifest : Path) : Written where
  manifest
  dockerfiles := artifacts.dockerfiles.map fun dockerfile =>
    manifest.directory.join dockerfile.path
  assets := artifacts.assets.map fun asset => manifest.directory.join asset.target

/-- A Dockerfile was written. -/
def dockerfileEvent (path : Path) : LogEvent :=
  ⟨.debug, .writing, "wrote Dockerfile", [("path", .shown path.text)]⟩

/-- All artifacts were written. -/
def writtenEvent (artifacts : Artifacts) (manifest : Path) : LogEvent :=
  ⟨.info, .writing, "wrote artifacts",
    [("manifest", .shown manifest.text),
     ("dockerfiles", .shown (Nat.repr artifacts.dockerfiles.length)),
     ("assets", .shown (Nat.repr artifacts.assets.length))]⟩

/-- Look a host file up, as seen from the directory of the document. -/
def checkStep (source : Path) (asset : Asset) : FileStep := .require (source.join asset.source)

/-- Write a Dockerfile. -/
def dockerfileSteps (manifest : Path) (dockerfile : Dockerfile) : List FileStep :=
  let path := manifest.directory.join dockerfile.path
  FileStep.makeParent path ++ [.write path dockerfile.content, .report (dockerfileEvent path)]

/-- Copy a host file. -/
def assetSteps (manifest source : Path) (asset : Asset) : List FileStep :=
  let target := manifest.directory.join asset.target
  FileStep.makeParent target ++ [.copy (source.join asset.source) target]

/-- Write the manifest. -/
def manifestSteps (artifacts : Artifacts) (manifest : Path) : List FileStep :=
  FileStep.makeParent manifest ++
    [.write manifest artifacts.manifest, .report (artifacts.writtenEvent manifest)]

/-- The steps that write artifacts. Host files are seen from the directory `source`. -/
def steps (artifacts : Artifacts) (manifest source : Path) : List FileStep :=
  artifacts.assets.map (checkStep source) ++
    artifacts.dockerfiles.flatMap (dockerfileSteps manifest) ++
    artifacts.assets.flatMap (assetSteps manifest source) ++
    artifacts.manifestSteps manifest

/-- Write artifacts. -/
def deliver (files : FileSystem) (artifacts : Artifacts) (manifest source : Path) : Delivery :=
  FileStep.performAll files (artifacts.steps manifest source)

end Artifacts

end FleetCompose
