import FleetCompose.Data.Accumulate
import FleetCompose.Data.Traverse
import FleetCompose.Fleet.Expanded
import FleetCompose.Json.Value

/-!
# Image builds

A package is built into an image of its own. Its build has a directory, the context, that
holds the Dockerfile and the host files that the build needs: the rosinstall file, the keys
and the bundled files, each kind in a subdirectory of its own. A package with sources is
built in two stages: the first one fetches the sources, and the second one copies them.
-/

namespace FleetCompose

/-- A host file and its place next to the manifest. -/
structure Asset where
  source : String
  target : String
  deriving DecidableEq, Repr

/-- What the Dockerfile of a package is made from. -/
structure BuildSpec where
  service : String
  robot : String
  package : String
  context : String
  baseImage : String
  distro : String
  twoStage : Bool
  apt : List String
  fetchPackages : List String
  fetchCommands : List String
  rosinstall : Option String
  sshKeys : List String
  workspace : String
  workspaceSetup : String
  buildTool : String
  run : String
  assets : List Asset
  deriving DecidableEq, Repr

/-- A build, and the mounts of its bundled files. -/
structure PackageBuild where
  spec : BuildSpec
  volumes : List String
  deriving DecidableEq, Repr

/-- What keeps a package from being built. -/
inductive BuildIssue where
  | malformedFile (entry : String)
  | namesNoFile (path : String)
  | sameFileName (name : String)
  deriving DecidableEq, Repr

/-- The wording of an issue. -/
def BuildIssue.message : BuildIssue → String
  | .malformedFile entry => "malformed file entry '" ++ entry ++ "'"
  | .namesNoFile path => "'" ++ path ++ "' does not name a file"
  | .sameFileName name => "two bundled files are both named '" ++ name ++ "'"

/-- The package of a service cannot be built. -/
structure BuildError where
  service : String
  issue : BuildIssue
  deriving DecidableEq, Repr

/-- The wording of a build error. -/
def BuildError.message (error : BuildError) : String :=
  "internal error while converting '" ++ error.service ++ "': " ++ error.issue.message

namespace PackageBuild

/-- The context of a service under the path of its package. A relative context starts with
a dot, so that it is read as a path. -/
def context (path service : String) : String :=
  let base := Text.dropTrailingSlashes (Text.trim path)
  let joined := if base.isEmpty then service else base ++ "/" ++ service
  match joined.toList with
  | '/' :: _ | '.' :: _ => joined
  | _ => "./" ++ joined

/-! ## Sources -/

/-- Cut an entry `URL[:BRANCH]`. What follows the last colon is a branch only if it has no
slash and does not end in `.git`, so the colons of addresses and ports stay where they
are. -/
def splitBranch (entry : String) : String × Option String :=
  match Text.splitLast ':' entry with
  | some (url, branch) =>
      if !url.isEmpty && !branch.isEmpty && !branch.toList.contains '/' &&
          !".git".toList.isSuffixOf branch.toList then
        (url, some branch)
      else (entry, none)
  | none => (entry, none)

/-- The command that clones an entry into a workspace. -/
def cloneCommand (entry defaultBranch workspace : String) : String :=
  let (url, branch) := splitBranch entry
  "git -C " ++ workspace ++ "/src clone -b " ++ branch.getD defaultBranch ++ " " ++ url

/-- The command that imports the sources of a rosinstall file. -/
def importCommand (workspace file : String) : String :=
  "vcs import " ++ workspace ++ "/src < " ++ workspace ++ "/" ++ file

/-! ## Host files -/

/-- The name of the file at a path: its last component, which must be a name. -/
def fileName (path : String) : Except BuildIssue String :=
  let name := Text.afterLast '/' (Text.dropTrailingSlashes path)
  if name.isEmpty || name == "." || name == ".." then .error (.namesNoFile path)
  else .ok name

/-- A key file and its name in the context. -/
structure KeyFile where
  source : String
  name : String
  deriving DecidableEq, Repr

/-- A bundled file, its name in the context, and where the container sees it. -/
structure BundledFile where
  source : String
  name : String
  container : String
  deriving DecidableEq, Repr

/-- Take a name that is not taken yet. -/
def claimName (taken : List String) (path : String) : Except BuildIssue String := do
  let name ← fileName path
  if name ∈ taken then throw (.sameFileName name)
  return name

/-- Read one entry of `ssh`. -/
def keyFile (accepted : List KeyFile) (path : String) : Except BuildIssue KeyFile :=
  (claimName (accepted.map KeyFile.name) path).map fun name => ⟨path, name⟩

/-- Read one entry of `files`, `HOST:CONTAINER`. -/
def bundledFile (accepted : List BundledFile) (entry : String) :
    Except BuildIssue BundledFile :=
  match Text.splitFirst ':' entry with
  | none => .error (.malformedFile entry)
  | some (host, container) =>
      let host := Text.trim host
      (claimName (accepted.map BundledFile.name) host).map fun name =>
        ⟨host, name, Text.trim container⟩

/-- The place of a rosinstall file in the context. It has a directory of its own, so it
cannot replace the Dockerfile. -/
def rosinstallPlace (name : String) : String := "rosinstall/" ++ name

/-- The place of a key file in the context. -/
def keyPlace (name : String) : String := "ssh/" ++ name

/-- The place of a bundled file in the context. -/
def filePlace (name : String) : String := "files/" ++ name

/-! ## Builds -/

/-- The script that runs the command of a package in its built workspace. -/
def runScript (distro workspace setup command : String) : String :=
  "source /opt/ros/" ++ distro ++ "/setup.bash && source " ++ workspace ++ "/" ++ setup ++
    " && " ++ command

/-- A script as the argument list of a shell. -/
def shellArguments (script : String) : String :=
  (Json.strings ["/bin/bash", "-c", script]).compact

/-- The packages that the fetching stage installs. -/
def fetchPackages (twoStage hasRosinstall hasKeys : Bool) : List String :=
  (if twoStage then ["git"] else []) ++
    (if hasRosinstall then ["python3-vcstool"] else []) ++
    (if twoStage && hasKeys then ["openssh-client"] else [])

/-- The build of a package, given the host files that it needs. -/
def assemble (robot : ExpandedRobot) (package : ExpandedPackage) (workspace : String)
    (rosinstall : Option KeyFile) (keys : List KeyFile) (files : List BundledFile) :
    PackageBuild :=
  let distro := robot.distro
  let context := context package.path package.service
  let inContext (place : String) := context ++ "/" ++ place
  let twoStage := !package.git.isEmpty || package.rosinstall.isSome
  let setup := robot.ros.workspaceSetup
  { spec :=
      { service := package.service
        robot := robot.id
        package := package.id
        context
        baseImage := "ros:" ++ distro
        distro
        twoStage
        apt := package.apt
        fetchPackages :=
          fetchPackages twoStage package.rosinstall.isSome (!package.ssh.isEmpty)
        fetchCommands :=
          package.git.map (fun entry => cloneCommand entry distro workspace) ++
            rosinstall.toList.map fun file => importCommand workspace (rosinstallPlace file.name)
        rosinstall := rosinstall.map fun file => rosinstallPlace file.name
        sshKeys := keys.map KeyFile.name
        workspace
        workspaceSetup := setup
        buildTool := robot.ros.buildTool
        run :=
          if twoStage then shellArguments (runScript distro workspace setup package.command)
          else package.command
        assets :=
          rosinstall.toList.map
              (fun file => ⟨file.source, inContext (rosinstallPlace file.name)⟩) ++
            keys.map (fun file => ⟨file.source, inContext (keyPlace file.name)⟩) ++
            files.map fun file => ⟨file.source, inContext (filePlace file.name)⟩ }
    volumes := files.map fun file => inContext (filePlace file.name) ++ ":" ++ file.container }

/-- The build of a package as one robot runs it. -/
def ofPackage (robot : ExpandedRobot) (package : ExpandedPackage) (workspace : String) :
    Except BuildError PackageBuild :=
  Except.mapError (⟨package.service, ·⟩) do
    let rosinstall ←
      match package.rosinstall with
      | none => pure none
      | some path => (fileName path).map fun name => some ⟨path, name⟩
    let keys ← accumulate keyFile [] package.ssh
    let files ← accumulate bundledFile [] package.files
    return assemble robot package workspace rosinstall keys files

end PackageBuild

end FleetCompose
