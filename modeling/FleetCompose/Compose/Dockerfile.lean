import FleetCompose.Compose.Build

/-!
# Dockerfiles

The Dockerfile of a build is a list of lines. A build in two stages fetches the sources in
the first one, the only one that sees the keys, and the final stage copies the source tree
from there.
-/

namespace FleetCompose

/-- A Dockerfile and its place next to the manifest. -/
structure Dockerfile where
  service : String
  path : String
  content : String
  deriving DecidableEq, Repr

namespace BuildSpec

/-- The command that installs packages of the system. -/
def installCommand (packages : List String) : String :=
  "RUN apt-get update && apt-get install -y --no-install-recommends " ++
    " ".intercalate packages ++ " && rm -rf /var/lib/apt/lists/*"

/-- The lines in front of the first stage. -/
def headerLines (spec : BuildSpec) : List String :=
  ["# syntax=docker/dockerfile:1",
   "# " ++ spec.service ++ ": package " ++ spec.package ++ " on robot " ++ spec.robot]

/-- The lines that install the keys for fetching. -/
def keyLines (spec : BuildSpec) : List String :=
  if spec.sshKeys.isEmpty then []
  else
    ["COPY ssh/ /root/.ssh/",
     "RUN chmod 700 /root/.ssh && chmod 600 /root/.ssh/*",
     "ENV GIT_SSH_COMMAND=\"ssh -o StrictHostKeyChecking=no\""]

/-- The line that copies the rosinstall file. -/
def rosinstallLines (spec : BuildSpec) : List String :=
  match spec.rosinstall with
  | none => []
  | some file =>
      if file.isEmpty then [] else ["COPY " ++ file ++ " " ++ spec.workspace ++ "/" ++ file]

/-- The stage that fetches the sources, with an empty line before and after it. -/
def fetchLines (spec : BuildSpec) : List String :=
  if spec.twoStage then
    ["", "FROM " ++ spec.baseImage ++ " AS fetch", installCommand spec.fetchPackages] ++
      spec.keyLines ++ ["RUN mkdir -p " ++ spec.workspace ++ "/src"] ++ spec.rosinstallLines ++
      spec.fetchCommands.map ("RUN " ++ ·) ++ [""]
  else []

/-- The lines that build the fetched sources. -/
def workspaceLines (spec : BuildSpec) : List String :=
  if spec.twoStage then
    ["COPY --from=fetch " ++ spec.workspace ++ "/src " ++ spec.workspace ++ "/src",
     "RUN apt-get update && rosdep update && rosdep install --from-paths src --ignore-src -r -y" ++
       " && rm -rf /var/lib/apt/lists/*",
     "RUN /bin/bash -c \"source /opt/ros/" ++ spec.distro ++ "/setup.bash && " ++
       spec.buildTool ++ "\""]
  else []

/-- The final stage. -/
def finalLines (spec : BuildSpec) : List String :=
  ["FROM " ++ spec.baseImage] ++
    (if spec.apt.isEmpty then [] else [installCommand spec.apt]) ++
    ["WORKDIR " ++ spec.workspace] ++ spec.workspaceLines ++ ["CMD " ++ spec.run]

/-- All lines of the Dockerfile. -/
def dockerfileLines (spec : BuildSpec) : List String :=
  spec.headerLines ++ spec.fetchLines ++ spec.finalLines

/-- The text of lines, each followed by a line end. -/
def linesText (lines : List String) : String := String.join (lines.map (· ++ "\n"))

/-- The text of the Dockerfile. -/
def dockerfileText (spec : BuildSpec) : String := linesText spec.dockerfileLines

/-- The Dockerfile of a build. -/
def dockerfile (spec : BuildSpec) : Dockerfile :=
  ⟨spec.service, spec.context ++ "/Dockerfile", spec.dockerfileText⟩

end BuildSpec

end FleetCompose
