import FleetCompose.Compose.Dockerfile
import FleetCompose.Compose.Service
import FleetCompose.Proofs.Conversion
import FleetCompose.Proofs.KeyedLists
import FleetCompose.Proofs.TextLines

/-!
# Keys stay in the fetching stage

The keys of a package are copied into its context and used by the stage that fetches the sources.
The image that is run comes from the final stage. Two builds of a package that differ in the keys
have the same final stage, the same service and, apart from the keys themselves, the same host
files. A build in one stage does not use the keys at all.
-/

namespace FleetCompose

namespace BuildSpec

variable (spec : BuildSpec)

/-! ## Stages -/

/-- The line begins a stage. -/
def startsStage (line : String) : Bool := "FROM ".toList.isPrefixOf line.toList

/-- The lines down to the beginning of the fetching stage. -/
def openingLines : List String :=
  spec.headerLines ++ ["", "FROM " ++ spec.baseImage ++ " AS fetch"]

/-- The other lines of the fetching stage. -/
def fetchingLines : List String :=
  [installCommand spec.fetchPackages] ++ spec.keyLines ++
    ["RUN mkdir -p " ++ spec.workspace ++ "/src"] ++ spec.rosinstallLines ++
    spec.fetchCommands.map ("RUN " ++ ·) ++ [""]

variable {spec}

theorem dockerfileLines_of_twoStage (twoStage : spec.twoStage = true) :
    spec.dockerfileLines = spec.openingLines ++ spec.fetchingLines ++ spec.finalLines := by
  simp [dockerfileLines, openingLines, fetchLines, fetchingLines, twoStage]

theorem dockerfileLines_of_oneStage (oneStage : spec.twoStage = false) :
    spec.dockerfileLines = spec.headerLines ++ spec.finalLines := by
  simp [dockerfileLines, fetchLines, oneStage]

variable (spec)

theorem filter_openingLines :
    spec.openingLines.filter startsStage = ["FROM " ++ spec.baseImage ++ " AS fetch"] := by
  simp [openingLines, headerLines, startsStage, List.isPrefixOf]

theorem filter_keyLines : spec.keyLines.filter startsStage = [] := by
  rw [keyLines]
  split
  · rfl
  · simp [startsStage, List.isPrefixOf]

theorem filter_rosinstallLines : spec.rosinstallLines.filter startsStage = [] := by
  rw [rosinstallLines]
  split
  · rfl
  · split
    · rfl
    · simp [startsStage, List.isPrefixOf]

theorem startsStage_run (command : String) : startsStage ("RUN " ++ command) = false := by
  simp [startsStage, List.isPrefixOf]

theorem exists_installCommand_eq (packages : List String) :
    ∃ command, installCommand packages = "RUN " ++ command := by
  -- The text in front is cut after its first word, which alone tells that no stage begins.
  have words : installCommand packages =
      "RUN " ++ "apt-get update && apt-get install -y --no-install-recommends " ++
        " ".intercalate packages ++ " && rm -rf /var/lib/apt/lists/*" :=
    rfl
  rw [words, String.append_assoc, String.append_assoc]
  exact ⟨_, rfl⟩

theorem filter_fetchingLines : spec.fetchingLines.filter startsStage = [] := by
  have install : startsStage (installCommand spec.fetchPackages) = false := by
    rcases exists_installCommand_eq spec.fetchPackages with ⟨command, equal⟩
    rw [equal, startsStage_run]
  have directory : startsStage ("RUN mkdir -p " ++ spec.workspace ++ "/src") = false := by
    simp [startsStage, List.isPrefixOf]
  have commands : (spec.fetchCommands.map ("RUN " ++ ·)).filter startsStage = [] :=
    filter_map_eq_nil startsStage_run spec.fetchCommands
  simp only [fetchingLines, List.filter_append, List.filter_singleton, install, filter_keyLines,
    directory, filter_rosinstallLines, commands]
  rfl

/-- The final stage begins with the last of the two lines that begin a stage. -/
theorem exists_finalLines_eq :
    ∃ line rest, spec.finalLines = line :: rest ∧ startsStage line = true := by
  refine ⟨"FROM " ++ spec.baseImage, _, rfl, ?_⟩
  simp [startsStage, List.isPrefixOf]

/-- The text of a Dockerfile in three parts: the last one is the final stage, which begins with the
second line that begins a stage. -/
structure StagedAs (head fetch final : List String) : Prop where
  lines_eq : spec.dockerfileLines = head ++ fetch ++ final
  text_eq : spec.dockerfileText = linesText head ++ linesText fetch ++ linesText final
  one_before : ((head ++ fetch).filter startsStage).length = 1
  begins : ∃ line rest, final = line :: rest ∧ startsStage line = true

variable {spec}

theorem stagedAs_of_twoStage (twoStage : spec.twoStage = true) :
    spec.StagedAs spec.openingLines spec.fetchingLines spec.finalLines where
  lines_eq := dockerfileLines_of_twoStage twoStage
  text_eq := by
    rw [dockerfileText, dockerfileLines_of_twoStage twoStage, linesText_append, linesText_append]
  one_before := by
    rw [List.filter_append, filter_openingLines, filter_fetchingLines]
    rfl
  begins := spec.exists_finalLines_eq

/-! ## Builds that differ in their keys -/

/-- The builds differ at most in what the keys decide. -/
def AgreeApartFromKeys (spec other : BuildSpec) : Prop :=
  other = { spec with
    fetchPackages := other.fetchPackages
    sshKeys := other.sshKeys
    assets := other.assets }

namespace AgreeApartFromKeys

variable {other : BuildSpec} (agree : spec.AgreeApartFromKeys other)
include agree

theorem twoStage_eq : other.twoStage = spec.twoStage := by
  rw [agree]

theorem headerLines_eq : other.headerLines = spec.headerLines := by
  rw [agree]
  rfl

theorem openingLines_eq : other.openingLines = spec.openingLines := by
  rw [agree]
  rfl

theorem finalLines_eq : other.finalLines = spec.finalLines := by
  rw [agree]
  rfl

/-- Without a fetching stage the keys are not used. -/
theorem dockerfileText_eq (oneStage : spec.twoStage = false) :
    other.dockerfileText = spec.dockerfileText := by
  have otherOneStage := agree.twoStage_eq.trans oneStage
  rw [dockerfileText, dockerfileText, dockerfileLines_of_oneStage oneStage,
    dockerfileLines_of_oneStage otherOneStage, agree.headerLines_eq, agree.finalLines_eq]

/-- With one, the keys change nothing but it. -/
theorem stagedAs (twoStage : spec.twoStage = true) :
    other.StagedAs spec.openingLines other.fetchingLines spec.finalLines := by
  have staged := stagedAs_of_twoStage (agree.twoStage_eq.trans twoStage)
  rw [agree.openingLines_eq, agree.finalLines_eq] at staged
  exact staged

end AgreeApartFromKeys

end BuildSpec

namespace PackageBuild

/-- Two builds for one robot and one package: one service, the same host files next to the keys,
and one final stage. -/
structure KeysContained (settings : Settings) (robot : ExpandedRobot) (package : ExpandedPackage)
    (build other : PackageBuild) : Prop where
  service_eq :
    Service.ofPackage robot package.service package.extra build.spec.context build.volumes
        settings.restart =
      Service.ofPackage robot package.service package.extra other.spec.context other.volumes
        settings.restart
  assets : ∃ before keys otherKeys after,
    build.spec.assets = before ++ keys ++ after ∧
      other.spec.assets = before ++ otherKeys ++ after ∧
      ∀ asset ∈ keys ++ otherKeys, ∃ name, asset.target = build.spec.context ++ "/ssh/" ++ name
  agree : build.spec.AgreeApartFromKeys other.spec
  one_stage : build.spec.twoStage = false → other.spec.dockerfileText = build.spec.dockerfileText
  two_stages : build.spec.twoStage = true → ∃ head fetch otherFetch final,
    build.spec.StagedAs head fetch final ∧ other.spec.StagedAs head otherFetch final

/-- The host files for the keys of a build. -/
def keyAssets (context : String) (keys : List KeyFile) : List Asset :=
  keys.map fun file => ⟨file.source, context ++ "/" ++ keyPlace file.name⟩

theorem exists_target_of_mem_keyAssets {context : String} {keys : List KeyFile} {asset : Asset}
    (member : asset ∈ keyAssets context keys) :
    ∃ name, asset.target = context ++ "/ssh/" ++ name := by
  rcases List.mem_map.mp member with ⟨file, -, rfl⟩
  have slash : "/ssh/" = "/" ++ "ssh/" := rfl
  refine ⟨file.name, ?_⟩
  simp only [keyPlace, slash, String.append_assoc]

variable (robot : ExpandedRobot) (package : ExpandedPackage) (workspace : String)

theorem context_built :
    (built robot package workspace).spec.context = context package.path package.service := by
  rw [built, assemble]

/-- The host files of the keys stand between the rosinstall file and the bundled files. -/
theorem assets_built :
    (built robot package workspace).spec.assets =
      ((package.rosinstall.map namedFile).toList.map fun file =>
          ⟨file.source, context package.path package.service ++ "/" ++ rosinstallPlace file.name⟩) ++
        keyAssets (context package.path package.service) (package.ssh.map namedFile) ++
        (package.files.map described).map fun file =>
          ⟨file.source, context package.path package.service ++ "/" ++ filePlace file.name⟩ := by
  simp only [built, assemble, keyAssets]

theorem agreeApartFromKeys_built (keys otherKeys : List String) :
    (built robot { package with ssh := keys } workspace).spec.AgreeApartFromKeys
      (built robot { package with ssh := otherKeys } workspace).spec := by
  simp only [BuildSpec.AgreeApartFromKeys, built, assemble]

variable {robot package}

/-- What the keys of a package decide stays in the fetching stage and in its directory. -/
theorem keysContained_of_ofPackage {settings : Settings} {keys otherKeys : List String}
    {build other : PackageBuild}
    (succeeds : ofPackage robot { package with ssh := keys } settings.workspace = .ok build)
    (otherSucceeds :
      ofPackage robot { package with ssh := otherKeys } settings.workspace = .ok other) :
    KeysContained settings robot package build other := by
  rcases ofPackage_eq_ok_iff.mp succeeds with ⟨-, rfl⟩
  rcases ofPackage_eq_ok_iff.mp otherSucceeds with ⟨-, rfl⟩
  have agree := agreeApartFromKeys_built robot package settings.workspace keys otherKeys
  exact {
    service_eq := by
      simp only [built, assemble]
    assets := by
      refine ⟨_, _, _, _, assets_built .., assets_built .., ?_⟩
      intro asset member
      rw [context_built]
      rcases List.mem_append.mp member with first | second
      · exact exists_target_of_mem_keyAssets first
      · exact exists_target_of_mem_keyAssets second
    agree
    one_stage := agree.dockerfileText_eq
    two_stages := fun twoStage =>
      ⟨_, _, _, _, BuildSpec.stagedAs_of_twoStage twoStage, agree.stagedAs twoStage⟩ }

/-- A robot of the second generation. -/
def sampleRobot : ExpandedRobot where
  id := "carrier"
  areaId := "yard"
  ros := ⟨"humble", .ros2, 2, true⟩
  scope := .ofPairs [("ROBOT_ID", "carrier"), ("ROBOT_ROS_DISTRO", "humble")]
  extra := .empty
  images := []
  packages := []

/-- A package with sources, packages of the system and a bundled file, and without keys. -/
def samplePackage : ExpandedPackage where
  id := "driver"
  service := instanceService "carrier" "driver"
  path := "src/driver"
  command := "drive"
  apt := ["curl"]
  git := ["git@lab:carrier/driver.git:main"]
  rosinstall := some "driver.rosinstall"
  ssh := []
  files := ["config/map.yaml:/etc/map.yaml"]
  extra := .empty

/-- The sample package with two keys and without any. -/
theorem sample_keysContained :
    ∃ build other,
      ofPackage sampleRobot { samplePackage with ssh := ["keys/deploy", "keys/mirror"] }
          Settings.standard.workspace = .ok build ∧
        ofPackage sampleRobot { samplePackage with ssh := [] }
          Settings.standard.workspace = .ok other ∧
        (build.spec.twoStage, build.spec.sshKeys) = (true, ["deploy", "mirror"]) ∧
        other.spec.sshKeys = [] ∧
        KeysContained .standard sampleRobot samplePackage build other := by
  have ran :
      ((ofPackage sampleRobot { samplePackage with ssh := ["keys/deploy", "keys/mirror"] }
        Settings.standard.workspace).toOption.map fun build =>
          (build.spec.twoStage, build.spec.sshKeys)) = some (true, ["deploy", "mirror"]) := by
    decide +kernel
  have otherRan :
      ((ofPackage sampleRobot { samplePackage with ssh := [] }
        Settings.standard.workspace).toOption.map fun build => build.spec.sshKeys) = some [] := by
    decide +kernel
  rcases exists_ok_of_map_eq_some ran with ⟨build, succeeds, view⟩
  rcases exists_ok_of_map_eq_some otherRan with ⟨other, otherSucceeds, otherView⟩
  exact ⟨build, other, succeeds, otherSucceeds, view, otherView,
    keysContained_of_ofPackage succeeds otherSucceeds⟩

end PackageBuild

end FleetCompose
