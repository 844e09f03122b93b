import FleetCompose.Proofs.BuildContexts
import FleetCompose.Proofs.Distributions
import FleetCompose.Proofs.JsonReading
import FleetCompose.Proofs.TextLines

/-!
# Lines of Dockerfiles

A Dockerfile is read line by line, and texts of the document and of the settings are written into
its lines as they are. It has the lines that are laid down for its build, and no others, exactly if
none of these texts has a line feed. The command of a build with sources is quoted, so it may be any
text.
-/

namespace FleetCompose

open Text (OneLine oneLine_append oneLine_intercalate)

/-! ## Quoted texts -/

/-- A quoted command has no line feed, whatever the command is. -/
theorem PackageBuild.oneLine_shellArguments (script : String) :
    OneLine (shellArguments script) := by
  intro lineFeed
  have printable : 0x20 ≤ '\n'.toNat := Json.space_le_of_mem_strings lineFeed
  cases Nat.not_lt.mpr printable (by decide)

/-! ## What is laid out -/

namespace BuildSpec

variable (spec : BuildSpec)

/-- The lines of a text are those that are laid down for a build: the command is the last one, and
there is one stage, or a second one in front of it that fetches the sources. -/
structure LaidOut (text : String) : Prop where
  lines_eq : Text.splitLines text = spec.dockerfileLines ++ [""]
  last_eq : (Text.splitLines text).dropLast.getLast? = some ("CMD " ++ spec.run)
  stages_eq : (Text.splitLines text).filter startsStage =
    if spec.twoStage then ["FROM " ++ spec.baseImage ++ " AS fetch", "FROM " ++ spec.baseImage]
    else ["FROM " ++ spec.baseImage]

theorem startsStage_installCommand (packages : List String) :
    startsStage (installCommand packages) = false := by
  rcases exists_installCommand_eq packages with ⟨command, equal⟩
  rw [equal, startsStage_run]

theorem filter_headerLines_startsStage : spec.headerLines.filter startsStage = [] := by
  simp [headerLines, startsStage, List.isPrefixOf]

theorem filter_workspaceLines_startsStage : spec.workspaceLines.filter startsStage = [] := by
  rw [workspaceLines]
  split
  · simp [startsStage, List.isPrefixOf]
  · rfl

theorem filter_finalLines_startsStage :
    spec.finalLines.filter startsStage = ["FROM " ++ spec.baseImage] := by
  rw [filter_finalLines startsStage_installCommand (by simp [startsStage, List.isPrefixOf])
    (by simp [startsStage, List.isPrefixOf]), filter_workspaceLines_startsStage]
  simp [startsStage, List.isPrefixOf]

/-- The final stage is begun by one line, and the stage that fetches the sources by another. -/
theorem filter_dockerfileLines_startsStage : spec.dockerfileLines.filter startsStage =
    if spec.twoStage then ["FROM " ++ spec.baseImage ++ " AS fetch", "FROM " ++ spec.baseImage]
    else ["FROM " ++ spec.baseImage] := by
  cases stages : spec.twoStage with
  | true =>
      rw [dockerfileLines_of_twoStage stages, List.filter_append, List.filter_append,
        filter_openingLines, filter_fetchingLines, filter_finalLines_startsStage]
      rfl
  | false =>
      rw [dockerfileLines_of_oneStage stages, List.filter_append, filter_headerLines_startsStage,
        filter_finalLines_startsStage]
      rfl

theorem getLast?_dockerfileLines :
    spec.dockerfileLines.getLast? = some ("CMD " ++ spec.run) := by
  rw [dockerfileLines, finalLines, ← List.append_assoc, List.getLast?_concat]

/-- A text with the lines of a build is laid out. -/
theorem laidOut_iff {text : String} :
    spec.LaidOut text ↔ Text.splitLines text = spec.dockerfileLines ++ [""] := by
  constructor
  · exact LaidOut.lines_eq
  · intro lines_eq
    constructor
    · exact lines_eq
    · rw [lines_eq, List.dropLast_concat, getLast?_dockerfileLines]
    · rw [lines_eq, List.filter_append, filter_dockerfileLines_startsStage]
      exact List.append_nil _

/-- The Dockerfile of a build is laid out exactly if none of its lines has a line feed. -/
theorem laidOut_dockerfile_iff :
    spec.LaidOut spec.dockerfile.content ↔ ∀ line ∈ spec.dockerfileLines, OneLine line := by
  rw [laidOut_iff]
  exact Text.splitLines_linesText_eq_iff

/-- The last line is the last one of the command. -/
theorem getLast?_splitLines_dockerfile :
    (Text.splitLines spec.dockerfile.content).dropLast.getLast? =
      (Text.splitLines ("CMD " ++ spec.run)).getLast? := by
  have content : Text.splitLines spec.dockerfile.content =
      spec.dockerfileLines.flatMap Text.splitLines ++ [""] :=
    Text.splitLines_linesText spec.dockerfileLines
  rw [content, List.dropLast_concat, dockerfileLines, finalLines, ← List.append_assoc,
    List.flatMap_append, List.flatMap_singleton]
  exact List.getLast?_append_of_ne_nil _ (Text.splitLines_ne_nil _)

/-! ## Texts in the lines of a build -/

/-- The texts in the lines in front of the first stage. -/
def headerTexts : List String := [spec.service, spec.package, spec.robot]

/-- The texts in the lines of the stage that fetches the sources. -/
def fetchTexts : List String :=
  if spec.twoStage then
    [spec.baseImage] ++ spec.fetchPackages ++ [spec.workspace] ++ spec.rosinstall.toList ++
      spec.fetchCommands
  else []

/-- The texts in the lines that build the sources. -/
def workspaceTexts : List String :=
  if spec.twoStage then [spec.distro, spec.buildTool] else []

/-- The texts in the lines of the final stage. -/
def finalTexts : List String :=
  [spec.baseImage] ++ spec.apt ++ [spec.workspace] ++ spec.workspaceTexts ++ [spec.run]

/-- The texts in the lines of the Dockerfile. -/
def pastedTexts : List String := spec.headerTexts ++ spec.fetchTexts ++ spec.finalTexts

theorem oneLine_installCommand {packages : List String} :
    OneLine (installCommand packages) ↔ ∀ package ∈ packages, OneLine package := by
  have separator : OneLine " " := by
    decide
  calc OneLine (installCommand packages)
      ↔ OneLine (" ".intercalate packages) := by
        unfold installCommand OneLine
        simp only [String.toList_append, List.mem_append]
        simp
    _ ↔ ∀ package ∈ packages, OneLine package := oneLine_intercalate separator

theorem oneLine_headerLines :
    (∀ line ∈ spec.headerLines, OneLine line) ↔ ∀ text ∈ spec.headerTexts, OneLine text := by
  simp [headerLines, headerTexts, OneLine]

theorem oneLine_keyLines : ∀ line ∈ spec.keyLines, OneLine line := by
  rw [keyLines]
  split
  · simp
  · decide +kernel

variable {spec}

theorem oneLine_rosinstallLines (workspace : OneLine spec.workspace) :
    (∀ line ∈ spec.rosinstallLines, OneLine line) ↔
      ∀ file ∈ spec.rosinstall.toList, OneLine file := by
  rw [rosinstallLines]
  cases spec.rosinstall with
  | none => simp
  | some file =>
      dsimp only
      split
      next empty =>
        have blank : file = "" := by
          simpa using empty
        simp [blank, OneLine]
      next =>
        have blank : OneLine "COPY " ∧ OneLine " " ∧ OneLine "/" := by
          decide
        simp [blank, workspace]

theorem oneLine_fetchLines :
    (∀ line ∈ spec.fetchLines, OneLine line) ↔ ∀ text ∈ spec.fetchTexts, OneLine text := by
  rw [fetchLines, fetchTexts]
  split
  · have stage : OneLine ("FROM " ++ spec.baseImage ++ " AS fetch") ↔ OneLine spec.baseImage := by
      simp [OneLine]
    have directory : OneLine ("RUN mkdir -p " ++ spec.workspace ++ "/src") ↔
        OneLine spec.workspace := by
      simp [OneLine]
    have runs (command : String) : OneLine ("RUN " ++ command) ↔ OneLine command := by
      simp [OneLine]
    have empty : OneLine "" := by
      decide
    have keys := spec.oneLine_keyLines
    simp only [List.forall_mem_append, List.forall_mem_cons, List.forall_mem_map, List.not_mem_nil,
      false_implies, implies_true, and_true, stage, directory, runs, oneLine_installCommand]
    constructor
    · rintro ⟨⟨⟨⟨⟨⟨-, base, packages⟩, -⟩, workspace⟩, rosinstall⟩, commands⟩, -⟩
      exact ⟨⟨⟨⟨base, packages⟩, workspace⟩, (oneLine_rosinstallLines workspace).mp rosinstall⟩,
        commands⟩
    · rintro ⟨⟨⟨⟨base, packages⟩, workspace⟩, rosinstall⟩, commands⟩
      exact ⟨⟨⟨⟨⟨⟨empty, base, packages⟩, keys⟩, workspace⟩,
        (oneLine_rosinstallLines workspace).mpr rosinstall⟩, commands⟩, empty⟩
  · rfl

theorem oneLine_workspaceLines (workspace : OneLine spec.workspace) :
    (∀ line ∈ spec.workspaceLines, OneLine line) ↔
      ∀ text ∈ spec.workspaceTexts, OneLine text := by
  rw [workspaceLines, workspaceTexts]
  split
  · have copies : OneLine
        ("COPY --from=fetch " ++ spec.workspace ++ "/src " ++ spec.workspace ++ "/src") := by
      have literals : OneLine "COPY --from=fetch " ∧ OneLine "/src " ∧ OneLine "/src" := by
        decide +kernel
      simp [literals, workspace]
    have resolves : OneLine
        ("RUN apt-get update && rosdep update && rosdep install --from-paths src --ignore-src -r -y" ++
          " && rm -rf /var/lib/apt/lists/*") := by
      decide +kernel
    have builds : OneLine ("RUN /bin/bash -c \"source /opt/ros/" ++ spec.distro ++
        "/setup.bash && " ++ spec.buildTool ++ "\"") ↔
          OneLine spec.distro ∧ OneLine spec.buildTool := by
      simp [OneLine]
    rw [List.forall_mem_cons, List.forall_mem_cons, List.forall_mem_singleton, builds,
      and_iff_right copies, and_iff_right resolves, List.forall_mem_cons, List.forall_mem_singleton]
  · rfl

theorem oneLine_finalLines :
    (∀ line ∈ spec.finalLines, OneLine line) ↔ ∀ text ∈ spec.finalTexts, OneLine text := by
  have stage : OneLine ("FROM " ++ spec.baseImage) ↔ OneLine spec.baseImage := by
    simp [OneLine]
  have installs : (∀ line ∈ (if spec.apt.isEmpty then [] else [installCommand spec.apt]),
      OneLine line) ↔ ∀ package ∈ spec.apt, OneLine package := by
    split
    next empty => simp [List.isEmpty_iff.mp empty]
    next => rw [List.forall_mem_singleton, oneLine_installCommand]
  have enters : OneLine ("WORKDIR " ++ spec.workspace) ↔ OneLine spec.workspace := by
    simp [OneLine]
  have runs : OneLine ("CMD " ++ spec.run) ↔ OneLine spec.run := by
    simp [OneLine]
  rw [finalLines, finalTexts]
  simp only [List.forall_mem_append, List.forall_mem_singleton, stage, installs, enters, runs]
  apply and_congr_left
  intro _
  rw [and_congr_right_iff]
  rintro ⟨-, workspace⟩
  exact oneLine_workspaceLines workspace

/-- The lines of a Dockerfile are as many as were written if the texts in them are lines. -/
theorem oneLine_dockerfileLines :
    (∀ line ∈ spec.dockerfileLines, OneLine line) ↔ ∀ text ∈ spec.pastedTexts, OneLine text := by
  rw [dockerfileLines, pastedTexts]
  simp only [List.forall_mem_append, oneLine_headerLines, oneLine_fetchLines, oneLine_finalLines]

end BuildSpec

/-! ## Texts of a package -/

namespace PackageBuild

theorem Clones.oneLine_iff {distro workspace entry command : String}
    (clones : Clones distro workspace entry command) (distroLine : OneLine distro)
    (workspaceLine : OneLine workspace) : OneLine command ↔ OneLine entry := by
  have literals : OneLine "git -C " ∧ OneLine "/src clone -b " ∧ OneLine " " ∧ OneLine ":" := by
    decide +kernel
  cases clones with
  | named => simp [literals, workspaceLine, and_comm]
  | unnamed => simp [literals, workspaceLine, distroLine]

theorem oneLine_importCommand {workspace file : String} (workspaceLine : OneLine workspace) :
    OneLine (importCommand workspace file) ↔ OneLine file := by
  have literals : OneLine "vcs import " ∧ OneLine "/src < " ∧ OneLine "/" := by
    decide +kernel
  unfold importCommand
  simp [literals, workspaceLine]

end PackageBuild

/-- The texts of a package, its robot and the settings that are written into a Dockerfile as they
are. The command of a package with sources is not among them. -/
def ExpandedPackage.dockerfileTexts (package : ExpandedPackage) (robot : ExpandedRobot)
    (workspace : String) : List String :=
  [package.service, package.id, robot.id, robot.distro, workspace] ++ package.apt ++ package.git ++
    (package.rosinstall.map Text.finalComponent).toList ++
    (if package.git.isEmpty && package.rosinstall.isNone then [package.command] else [])

namespace Model

variable (settings : Settings) (robot : ExpandedRobot) (package : ExpandedPackage)

theorem twoStage_builtSpec : (builtSpec settings robot package).twoStage =
    (!package.git.isEmpty || package.rosinstall.isSome) :=
  rfl

theorem oneLine_fetchPackages (twoStage hasRosinstall hasKeys : Bool) :
    ∀ name ∈ PackageBuild.fetchPackages twoStage hasRosinstall hasKeys, OneLine name := by
  revert twoStage hasRosinstall hasKeys
  decide

theorem oneLine_buildTool (ros : RosSpec) : OneLine ros.buildTool := by
  rw [RosSpec.buildTool]
  cases ros.family with
  | ros1 => decide
  | ros2 => decide

theorem oneLine_baseImage_builtSpec :
    OneLine (builtSpec settings robot package).baseImage ↔ OneLine robot.distro := by
  change OneLine ("ros:" ++ robot.distro) ↔ _
  simp [OneLine]

theorem oneLine_rosinstall_builtSpec :
    (∀ file ∈ (builtSpec settings robot package).rosinstall.toList, OneLine file) ↔
      ∀ name ∈ (package.rosinstall.map Text.finalComponent).toList, OneLine name := by
  rw [rosinstall_builtSpec]
  cases package.rosinstall with
  | none => simp
  | some path => simp [OneLine]

theorem oneLine_fetchCommands_builtSpec (distro : OneLine robot.distro)
    (workspace : OneLine settings.workspace) :
    (∀ command ∈ (builtSpec settings robot package).fetchCommands, OneLine command) ↔
      (∀ entry ∈ package.git, OneLine entry) ∧
        ∀ name ∈ (package.rosinstall.map Text.finalComponent).toList, OneLine name := by
  have clones (entry : String) :
      OneLine (PackageBuild.cloneCommand entry robot.distro settings.workspace) ↔ OneLine entry :=
    (PackageBuild.clones_cloneCommand entry _ _).oneLine_iff distro workspace
  rw [fetchCommands_builtSpec, List.forall_mem_append, List.forall_mem_map, List.forall_mem_map]
  simp only [clones, PackageBuild.oneLine_importCommand workspace]
  apply and_congr_right
  intro _
  cases package.rosinstall with
  | none => simp
  | some path => simp [PackageBuild.rosinstallPlace, PackageBuild.namedFile, OneLine]

/-- The command of a package with sources is quoted. -/
theorem oneLine_run_builtSpec :
    OneLine (builtSpec settings robot package).run ↔
      ∀ text ∈ (if package.git.isEmpty && package.rosinstall.isNone then [package.command] else []),
        OneLine text := by
  have run : (builtSpec settings robot package).run =
      if !package.git.isEmpty || package.rosinstall.isSome then
        PackageBuild.shellArguments (PackageBuild.runScript robot.distro settings.workspace
          robot.ros.workspaceSetup package.command)
      else package.command :=
    rfl
  rw [run]
  cases package.git with
  | cons entry rest => simp [PackageBuild.oneLine_shellArguments]
  | nil =>
      cases package.rosinstall with
      | some path => simp [PackageBuild.oneLine_shellArguments]
      | none => simp

/-- Besides the sources only the distribution and the workspace are in the lines that fetch them. -/
theorem oneLine_fetchTexts_builtSpec (distro : OneLine robot.distro)
    (workspace : OneLine settings.workspace) :
    (∀ text ∈ (builtSpec settings robot package).fetchTexts, OneLine text) ↔
      (∀ entry ∈ package.git, OneLine entry) ∧
        ∀ name ∈ (package.rosinstall.map Text.finalComponent).toList, OneLine name := by
  cases stages : (builtSpec settings robot package).twoStage with
  | true =>
      have base := (oneLine_baseImage_builtSpec settings robot package).mpr distro
      have packages : ∀ name ∈ (builtSpec settings robot package).fetchPackages, OneLine name :=
        oneLine_fetchPackages _ _ _
      have entered : OneLine (builtSpec settings robot package).workspace :=
        workspace
      rw [BuildSpec.fetchTexts, if_pos stages, List.forall_mem_append, List.forall_mem_append,
        oneLine_rosinstall_builtSpec,
        oneLine_fetchCommands_builtSpec settings robot package distro workspace]
      constructor
      · rintro ⟨-, git, rosinstall⟩
        exact ⟨git, rosinstall⟩
      · rintro ⟨git, rosinstall⟩
        constructor
        · constructor
          · simpa [or_imp, forall_and] using ⟨base, packages, entered⟩
          · exact rosinstall
        · exact ⟨git, rosinstall⟩
  | false =>
      rw [twoStage_builtSpec, Bool.or_eq_false_iff] at stages
      have unfetched : package.git = [] ∧ package.rosinstall = none := by
        simpa using stages
      have none : (builtSpec settings robot package).fetchTexts = [] := by
        simp [BuildSpec.fetchTexts, twoStage_builtSpec, unfetched]
      simp [none, unfetched]

theorem oneLine_workspaceTexts_builtSpec (distro : OneLine robot.distro) :
    ∀ text ∈ (builtSpec settings robot package).workspaceTexts, OneLine text := by
  have sourced : OneLine (builtSpec settings robot package).distro :=
    distro
  have tool : OneLine (builtSpec settings robot package).buildTool :=
    oneLine_buildTool robot.ros
  rw [BuildSpec.workspaceTexts]
  split
  · simp [sourced, tool]
  · simp

theorem oneLine_pastedTexts_builtSpec :
    (∀ text ∈ (builtSpec settings robot package).pastedTexts, OneLine text) ↔
      ∀ text ∈ package.dockerfileTexts robot settings.workspace, OneLine text := by
  simp only [BuildSpec.pastedTexts, BuildSpec.headerTexts, BuildSpec.finalTexts,
    ExpandedPackage.dockerfileTexts, List.forall_mem_append, List.forall_mem_cons,
    List.not_mem_nil, false_implies, implies_true, and_true, oneLine_baseImage_builtSpec,
    oneLine_run_builtSpec]
  constructor
  · rintro ⟨⟨⟨service, id, robotId⟩, fetch⟩, ⟨⟨⟨distro, apt⟩, workspace⟩, -⟩, command⟩
    rcases (oneLine_fetchTexts_builtSpec settings robot package distro workspace).mp fetch
      with ⟨git, rosinstall⟩
    exact ⟨⟨⟨⟨⟨service, id, robotId, distro, workspace⟩, apt⟩, git⟩, rosinstall⟩, command⟩
  · rintro ⟨⟨⟨⟨⟨service, id, robotId, distro, workspace⟩, apt⟩, git⟩, rosinstall⟩, command⟩
    have fetch := (oneLine_fetchTexts_builtSpec settings robot package distro workspace).mpr
      ⟨git, rosinstall⟩
    have builds := oneLine_workspaceTexts_builtSpec settings robot package distro
    exact ⟨⟨⟨service, id, robotId⟩, fetch⟩, ⟨⟨⟨distro, apt⟩, workspace⟩, builds⟩, command⟩

/-- The Dockerfile of a package is laid out exactly if the texts in it are lines. -/
theorem laidOut_builtSpec_iff :
    (builtSpec settings robot package).LaidOut
        (builtSpec settings robot package).dockerfile.content ↔
      ∀ text ∈ package.dockerfileTexts robot settings.workspace, OneLine text := by
  rw [BuildSpec.laidOut_dockerfile_iff, BuildSpec.oneLine_dockerfileLines,
    oneLine_pastedTexts_builtSpec]

/-- The Dockerfiles are those of the builds, in order. The lines of each one are the lines of its
build, broken at line feeds in the texts of its package. -/
structure LinesOf (fleet : ExpandedFleet) (model : Model) (artifacts : Artifacts)
    (outputs : List PackageOutput) : Prop where
  packages_eq : (outputs.map fun output => (output.robot, output.package)) =
    fleet.robots.flatMap fun robot => robot.packages.map fun package => (robot, package)
  builds_eq : outputs.map PackageOutput.build = model.builds
  dockerfiles_eq : outputs.map PackageOutput.dockerfile = artifacts.dockerfiles
  lines_eq : ∀ output ∈ outputs, Text.splitLines output.dockerfile.content =
    output.build.dockerfileLines.flatMap Text.splitLines ++ [""]
  laidOut_iff : ∀ output ∈ outputs, output.build.LaidOut output.dockerfile.content ↔
    ∀ text ∈ output.package.dockerfileTexts output.robot settings.workspace, OneLine text

theorem linesOf_packageOutputs {fleet : ExpandedFleet} {model : Model} {artifacts : Artifacts}
    (built : model.builds = fleet.robots.flatMap fun robot =>
      robot.packages.map (builtSpec settings robot))
    (rendered : artifacts.dockerfiles = model.builds.map BuildSpec.dockerfile) :
    LinesOf settings fleet model artifacts (packageOutputs settings fleet) where
  packages_eq := map_packageOutputs ..
  builds_eq := by
    rw [map_packageOutputs, built]
    rfl
  dockerfiles_eq := by
    rw [map_packageOutputs, rendered, built, List.map_flatMap]
    apply List.flatMap_congr
    intro robot _
    rw [List.map_map]
    rfl
  lines_eq := by
    intro output member
    rcases List.mem_flatMap.mp member with ⟨robot, -, inRobot⟩
    rcases List.mem_map.mp inRobot with ⟨package, -, rfl⟩
    exact Text.splitLines_linesText _
  laidOut_iff := by
    intro output member
    rcases List.mem_flatMap.mp member with ⟨robot, -, inRobot⟩
    rcases List.mem_map.mp inRobot with ⟨package, -, rfl⟩
    exact laidOut_builtSpec_iff settings robot package

end Model

/-! ## Documents -/

namespace Document

/-- In a compiled document a text of a package can add a line to its Dockerfile only with a line
feed, and the command can do so only if the package has no sources. -/
theorem linesOf_of_toModel {settings : Settings} {doc : Document} {model : Model}
    {artifacts : Artifacts} (compiled : (doc.toModel settings).outcome = .ok model)
    (rendered : model.toArtifacts.outcome = .ok artifacts) :
    ∃ fleet outputs, (doc.toExpanded settings).outcome = .ok fleet ∧
      Model.LinesOf settings fleet model artifacts outputs := by
  rcases toModel_eq_ok_iff.mp compiled with ⟨wellFormed, bound, -, rfl⟩
  have expands := toExpanded_eq_ok_iff.mpr ⟨wellFormed, bound, rfl⟩
  have dockerfiles := (Model.eq_of_toArtifacts rendered).1
  have builds := Model.builds_built settings (doc.fleet settings).copy
  exact ⟨_, _, expands, Model.linesOf_packageOutputs settings builds dockerfiles⟩

/-- One command of two lines, for a package without sources and for one with sources. -/
def twoLined : Document where
  areas := some [⟨some "yard", some ["carrier", "porter"]⟩]
  robots := [
    ⟨some "carrier", some "humble:1", none, some ["driver"], none, .empty⟩,
    ⟨some "porter", some "humble:2", none, some ["planner"], none, .empty⟩]
  images := []
  packages := [
    ⟨some "driver", some "src/driver", some "drive\nFROM scratch", some ["git"], none, none, none,
      none, .empty⟩,
    ⟨some "planner", some "src/planner", some "drive\nFROM scratch", none,
      some ["https://lab/planner.git"], none, none, none, .empty⟩]
  globals := []

/-- Only the package without sources, which is built in one stage, runs the command as it is. -/
theorem exists_model_twoLined :
    ∃ model artifacts, (twoLined.toModel .standard).outcome = .ok model ∧
      model.toArtifacts.outcome = .ok artifacts ∧
      (model.builds.map fun build => (build.twoStage, build.run == "drive\nFROM scratch")) =
        [(false, true), (true, false)] := by
  have ran : ((twoLined.toModel .standard).outcome.toOption.bind fun model =>
      model.toArtifacts.outcome.toOption.map fun _ =>
        model.builds.map fun build => (build.twoStage, build.run == "drive\nFROM scratch")) =
          some [(false, true), (true, false)] := by
    decide +kernel
  cases compiled : (twoLined.toModel .standard).outcome with
  | error failure =>
      rw [compiled] at ran
      cases ran
  | ok model =>
      rw [compiled] at ran
      have renders : (model.toArtifacts.outcome.toOption.map fun _ =>
          model.builds.map fun build => (build.twoStage, build.run == "drive\nFROM scratch")) =
            some [(false, true), (true, false)] :=
        ran
      rcases exists_ok_of_map_eq_some renders with ⟨artifacts, rendered, runs⟩
      exact ⟨model, artifacts, rfl, rendered, runs⟩

/-- The Dockerfiles of the two packages. -/
theorem twoLined_linesOf :
    ∃ model artifacts fleet outputs, (twoLined.toModel .standard).outcome = .ok model ∧
      model.toArtifacts.outcome = .ok artifacts ∧
      (twoLined.toExpanded .standard).outcome = .ok fleet ∧ model.builds.length = 2 ∧
      Model.LinesOf .standard fleet model artifacts outputs := by
  rcases exists_model_twoLined with ⟨model, artifacts, compiled, rendered, runs⟩
  have two : model.builds.length = 2 := by
    simpa using congrArg List.length runs
  rcases linesOf_of_toModel compiled rendered with ⟨fleet, outputs, expands, linesOf⟩
  exact ⟨model, artifacts, fleet, outputs, compiled, rendered, expands, two, linesOf⟩

/-- Not every Dockerfile of a compiled document is laid out for a build. -/
theorem not_forall_laidOut :
    ¬∀ (settings : Settings) (doc : Document) (model : Model) (artifacts : Artifacts),
      (doc.toModel settings).outcome = .ok model → model.toArtifacts.outcome = .ok artifacts →
        ∀ dockerfile ∈ artifacts.dockerfiles, ∃ build ∈ model.builds,
          build.LaidOut dockerfile.content := by
  intro always
  rcases exists_model_twoLined with ⟨model, artifacts, compiled, rendered, runs⟩
  have raw : (false, true) ∈
      model.builds.map fun build => (build.twoStage, build.run == "drive\nFROM scratch") := by
    rw [runs]
    exact List.mem_cons_self
  rcases List.mem_map.mp raw with ⟨build, member, fields⟩
  have run : build.run = "drive\nFROM scratch" :=
    beq_iff_eq.mp (congrArg Prod.snd fields)
  have shipped : build.dockerfile ∈ artifacts.dockerfiles := by
    rw [(Model.eq_of_toArtifacts rendered).1]
    exact List.mem_map_of_mem member
  rcases always _ _ _ _ compiled rendered build.dockerfile shipped with ⟨other, -, laidOut⟩
  have last := laidOut.last_eq
  rw [build.getLast?_splitLines_dockerfile, run] at last
  have broken : (Text.splitLines "CMD drive\nFROM scratch").getLast? = some "FROM scratch" := by
    decide +kernel
  have command : "FROM scratch" = "CMD " ++ other.run :=
    Option.some.inj (broken.symm.trans last)
  have characters := congrArg String.toList command
  simp at characters

end Document

end FleetCompose
