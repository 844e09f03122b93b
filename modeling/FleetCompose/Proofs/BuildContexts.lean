import FleetCompose.Compile
import FleetCompose.Proofs.Credentials
import FleetCompose.Proofs.OutputPlaces
import FleetCompose.Proofs.ServiceFields

/-!
# Services, Dockerfiles and host files agree

A package of a robot becomes three things in three places: a service of the manifest, a build with
a Dockerfile, and host files in the context of the build. The service is built from that context,
the Dockerfile lies in it, and what the Dockerfile copies or the service mounts from it is among
the host files.
-/

namespace FleetCompose

/-! ## Directories of a context -/

/-- The targets of the host files in a directory of the context. -/
def BuildSpec.targetsIn (spec : BuildSpec) (directory : String) : List String :=
  (spec.assets.map Asset.target).filter fun target =>
    (spec.context ++ "/" ++ directory ++ "/").toList.isPrefixOf target.toList

namespace HostPlace

variable {place : HostPlace}

/-- A host file lies in the directory of its kind and in no other one. -/
theorem isPrefixOf_path_iff (wellFormed : place.WellFormed) (context : String)
    {directory : String} (free : '/' ∉ directory.toList) :
    (context ++ "/" ++ directory ++ "/").toList.isPrefixOf (place.path context).toList = true ↔
      place.directory = directory := by
  have front : (context ++ "/" ++ directory ++ "/").toList =
      context.toList ++ '/' :: (directory.toList ++ ['/']) := by
    simp
  have whole : (place.path context).toList =
      context.toList ++ '/' :: (place.directory.toList ++ '/' :: place.name.toList) := by
    simp [path]
  rw [List.isPrefixOf_iff_prefix, front, whole, List.prefix_append_right_inj, List.prefix_cons_inj]
  constructor
  · intro given
    rcases given with ⟨rest, equal⟩
    -- Neither directory has a slash, so both end at the first one.
    have cut : Text.splitFirstChars '/' (directory.toList ++ '/' :: rest) =
        some (directory.toList, rest) :=
      Text.splitFirstChars_eq_some_iff.mpr ⟨rfl, free⟩
    have own : Text.splitFirstChars '/' (place.directory.toList ++ '/' :: place.name.toList) =
        some (place.directory.toList, place.name.toList) :=
      Text.splitFirstChars_eq_some_iff.mpr ⟨rfl, wellFormed.directory_free.1⟩
    rw [← equal, List.append_assoc, List.singleton_append, cut] at own
    have same : directory.toList = place.directory.toList :=
      congrArg Prod.fst (Option.some.inj own)
    exact (String.toList_inj.mp same).symm
  · rintro rfl
    exact ⟨place.name.toList, by simp⟩

end HostPlace

/-- The host files in a directory are those that are placed there. -/
theorem BuildSpec.PlacedAt.targetsIn_eq {build : BuildSpec} {places : List HostPlace}
    (placed : build.PlacedAt places) {directory : String} (free : '/' ∉ directory.toList) :
    build.targetsIn directory =
      (places.filter fun place => place.directory == directory).map
        (HostPlace.path build.context) := by
  rw [targetsIn, placed.targets_eq, List.filter_map]
  apply congrArg
  apply List.filter_congr
  intro place member
  rw [Bool.eq_iff_iff, beq_iff_eq]
  exact HostPlace.isPrefixOf_path_iff (placed.wellFormed place member) build.context free

/-! ## Lines that copy files -/

namespace BuildSpec

variable (spec : BuildSpec)

/-- The line copies files into the image. -/
def copiesFiles (line : String) : Bool := "COPY ".toList.isPrefixOf line.toList

/-- What a line that copies files reads is there: the source tree of the fetching stage, or host
files of the build. -/
inductive Supplied : String → Prop where
  | fetched (twoStage : spec.twoStage = true) :
      Supplied ("COPY --from=fetch " ++ spec.workspace ++ "/src " ++ spec.workspace ++ "/src")
  | keys (present : spec.sshKeys ≠ [])
      (shipped : ∀ key ∈ spec.sshKeys,
        spec.context ++ "/ssh/" ++ key ∈ spec.assets.map Asset.target) :
      Supplied "COPY ssh/ /root/.ssh/"
  | rosinstall {place : String} (declared : place ∈ spec.rosinstall)
      (shipped : spec.context ++ "/" ++ place ∈ spec.assets.map Asset.target) :
      Supplied ("COPY " ++ place ++ " " ++ spec.workspace ++ "/" ++ place)

theorem copiesFiles_run (command : String) : copiesFiles ("RUN " ++ command) = false := by
  simp [copiesFiles, List.isPrefixOf]

theorem copiesFiles_installCommand (packages : List String) :
    copiesFiles (installCommand packages) = false := by
  rcases exists_installCommand_eq packages with ⟨command, equal⟩
  rw [equal, copiesFiles_run]

variable {spec}

theorem eq_of_mem_keyLines {line : String} (member : line ∈ spec.keyLines)
    (copies : copiesFiles line = true) :
    spec.sshKeys ≠ [] ∧ line = "COPY ssh/ /root/.ssh/" := by
  rw [keyLines] at member
  split at member
  next => cases member
  next present =>
    simp only [List.mem_cons, List.not_mem_nil, or_false] at member
    rcases member with rfl | rfl | rfl
    · exact ⟨by simpa using present, rfl⟩
    · cases copies
    · cases copies

theorem exists_place_of_mem_rosinstallLines {line : String}
    (member : line ∈ spec.rosinstallLines) :
    ∃ place ∈ spec.rosinstall, line = "COPY " ++ place ++ " " ++ spec.workspace ++ "/" ++ place := by
  rw [rosinstallLines] at member
  split at member
  next => cases member
  next place declared =>
    split at member
    · cases member
    · exact ⟨place, declared, List.mem_singleton.mp member⟩

/-- The fetching stage copies the keys and the rosinstall file. -/
theorem eq_or_of_mem_fetchLines {line : String} (member : line ∈ spec.fetchLines)
    (copies : copiesFiles line = true) :
    (spec.sshKeys ≠ [] ∧ line = "COPY ssh/ /root/.ssh/") ∨
      ∃ place ∈ spec.rosinstall,
        line = "COPY " ++ place ++ " " ++ spec.workspace ++ "/" ++ place := by
  rw [fetchLines] at member
  split at member
  next =>
    simp only [List.mem_append, List.mem_cons, List.not_mem_nil, or_false, List.mem_map] at member
    rcases member with (((((rfl | rfl | rfl) | key) | rfl) | file) | ⟨command, -, rfl⟩) | rfl
    · cases copies
    · simp [copiesFiles, List.isPrefixOf] at copies
    · rw [copiesFiles_installCommand] at copies
      cases copies
    · exact .inl (eq_of_mem_keyLines key copies)
    · simp [copiesFiles, List.isPrefixOf] at copies
    · exact .inr (exists_place_of_mem_rosinstallLines file)
    · rw [copiesFiles_run] at copies
      cases copies
    · cases copies
  next => cases member

/-- The line that installs what the fetched sources depend on runs a command. -/
theorem exists_dependenciesLine_eq :
    ∃ command,
      "RUN apt-get update && rosdep update && rosdep install --from-paths src --ignore-src -r -y" ++
        " && rm -rf /var/lib/apt/lists/*" = "RUN " ++ command := by
  -- The text is cut after its first word, which alone tells what kind of line this is.
  have words :
      "RUN apt-get update && rosdep update && rosdep install --from-paths src --ignore-src -r -y" =
        "RUN " ++
          "apt-get update && rosdep update && rosdep install --from-paths src --ignore-src -r -y" :=
    rfl
  rw [words, String.append_assoc]
  exact ⟨_, rfl⟩

/-- The final stage copies the source tree of the fetching stage. -/
theorem eq_of_mem_workspaceLines {line : String} (member : line ∈ spec.workspaceLines)
    (copies : copiesFiles line = true) :
    spec.twoStage = true ∧
      line = "COPY --from=fetch " ++ spec.workspace ++ "/src " ++ spec.workspace ++ "/src" := by
  rw [workspaceLines] at member
  split at member
  next twoStage =>
    simp only [List.mem_cons, List.not_mem_nil, or_false] at member
    rcases member with rfl | rfl | rfl
    · exact ⟨twoStage, rfl⟩
    · rcases exists_dependenciesLine_eq with ⟨command, equal⟩
      rw [equal, copiesFiles_run] at copies
      cases copies
    · simp [copiesFiles, List.isPrefixOf] at copies
  next => cases member

theorem mem_workspaceLines_of_mem_finalLines {line : String} (member : line ∈ spec.finalLines)
    (copies : copiesFiles line = true) : line ∈ spec.workspaceLines := by
  simp only [finalLines, List.mem_append, List.mem_singleton] at member
  rcases member with (((rfl | install) | rfl) | inWorkspace) | rfl
  · simp [copiesFiles, List.isPrefixOf] at copies
  · split at install
    · cases install
    · rw [List.mem_singleton.mp install, copiesFiles_installCommand] at copies
      cases copies
  · simp [copiesFiles, List.isPrefixOf] at copies
  · exact inWorkspace
  · simp [copiesFiles, List.isPrefixOf] at copies

theorem supplied_of_mem_dockerfileLines
    (keys : ∀ key ∈ spec.sshKeys, spec.context ++ "/ssh/" ++ key ∈ spec.assets.map Asset.target)
    (rosinstall : ∀ place ∈ spec.rosinstall,
      spec.context ++ "/" ++ place ∈ spec.assets.map Asset.target)
    {line : String} (member : line ∈ spec.dockerfileLines) (copies : copiesFiles line = true) :
    spec.Supplied line := by
  rw [dockerfileLines, List.mem_append, List.mem_append] at member
  rcases member with (header | fetch) | final
  · simp only [headerLines, List.mem_cons, List.not_mem_nil, or_false] at header
    rcases header with rfl | rfl
    · cases copies
    · simp [copiesFiles, List.isPrefixOf] at copies
  · rcases eq_or_of_mem_fetchLines fetch copies with ⟨present, rfl⟩ | ⟨place, declared, rfl⟩
    · exact .keys present keys
    · exact .rosinstall declared (rosinstall place declared)
  · have inWorkspace := mem_workspaceLines_of_mem_finalLines final copies
    rcases eq_of_mem_workspaceLines inWorkspace copies with ⟨twoStage, rfl⟩
    exact .fetched twoStage

end BuildSpec

/-! ## Mounts -/

/-- Nothing is declared, or a list. -/
inductive Listable : Option Yaml.Value → Prop where
  | absent : Listable none
  | null : Listable (some .null)
  | list (items : List Yaml.Value) : Listable (some (.sequence items))

theorem Listable.extensible {declared : Option Yaml.Value} (listable : Listable declared) :
    Extensible declared := by
  cases listable with
  | absent => exact .absent
  | null => exact .null
  | list items => exact .list items

/-- A list names what it has an item for. Tags do not matter. -/
theorem Listable.exists_item {field : Option Yaml.Value} (listable : Listable field)
    {name : String} (named : NamedIn field name) :
    ∃ items, field = some (.sequence items) ∧ ∃ item ∈ items, item.innerString? = some name := by
  cases named with
  | item member text => exact ⟨_, rfl, _, member, text⟩
  | key member text => cases listable

namespace Requirement

/-- The requirements that volumes are mounted. -/
def mounts (volumes : List String) : List Requirement :=
  volumes.map fun volume => .member "volumes" volume .null

theorem listable_apply {declared : Option Yaml.Value} (requirement : Requirement)
    (listable : Listable declared) : Listable (some (requirement.apply declared)) := by
  cases listable with
  | absent => exact .list _
  | null => exact .list _
  | list items =>
      rw [apply]
      split
      · exact .list _
      · exact .list _

theorem listable_settle (requirements : List Requirement) {declared : Option Yaml.Value}
    (listable : Listable declared) : Listable (settle requirements declared) := by
  induction requirements generalizing declared with
  | nil => exact listable
  | cons requirement rest ih => exact ih (listable_apply requirement listable)

/-- Mounts are added, and nothing else. -/
theorem namedIn_settle_mounts_iff {volumes : List String} {declared : Option Yaml.Value}
    (extensible : Extensible declared) {name : String} :
    NamedIn (settle (mounts volumes) declared) name ↔ NamedIn declared name ∨ name ∈ volumes := by
  induction volumes generalizing declared with
  | nil => simp [mounts, settle]
  | cons volume rest ih =>
      have extended := extensible_apply (.member "volumes" volume .null) extensible
      have first : settle (mounts (volume :: rest)) declared =
          settle (mounts rest) (some (apply (.member "volumes" volume .null) declared)) :=
        rfl
      rw [first, ih extended, namedIn_apply_member_iff extensible, List.mem_cons, or_assoc]

end Requirement

namespace Service

variable (robot : ExpandedRobot) (service : String) (extra : Fields) (context : String)
  (volumes : List String) (restart : String)

/-- A field of a package's service that the middleware does not extend. -/
theorem get?_ofPackage {field : String} (other : field ∉ wiredFields) (apart : field ≠ "restart") :
    (ofPackage robot service extra context volumes restart).fields.get? field =
      Requirement.settle ((Requirement.mounts volumes).filter fun r => r.field == field)
        ((extra.get? field).or
          ((packageDraft robot service extra context volumes).generated.get? field)) := by
  have only : ((packageDraft robot service extra context volumes).requirements.filter
      fun r => r.field == field) =
        (Requirement.mounts volumes).filter fun r => r.field == field := by
    change ((Requirement.mounts volumes ++ wiring robot service true).filter _) = _
    rw [List.filter_append, filter_wiring_of_notMem robot service true other, List.append_nil]
  rw [ofPackage, Draft.get?_fields _ _ apart, only]
  rfl

/-- The service of a package is built from its context, unless the author says otherwise. -/
theorem get?_build_ofPackage :
    (ofPackage robot service extra context volumes restart).fields.get? "build" =
      (extra.get? "build").or (some (.string context)) := by
  have none : ((Requirement.mounts volumes).filter fun r => r.field == "build") = [] :=
    filter_map_eq_nil (fun _ => rfl) volumes
  rw [get?_ofPackage robot service extra context volumes restart (by decide) (by decide), none]
  rfl

/-- The mounts of a package are required of its `volumes`. -/
theorem get?_volumes_ofPackage :
    (ofPackage robot service extra context volumes restart).fields.get? "volumes" =
      Requirement.settle (Requirement.mounts volumes) (extra.get? "volumes") := by
  have all : ((Requirement.mounts volumes).filter fun r => r.field == "volumes") =
      Requirement.mounts volumes := by
    rw [List.filter_eq_self]
    intro requirement member
    rcases List.mem_map.mp member with ⟨volume, -, rfl⟩
    rfl
  have generated :
      (packageDraft robot service extra context volumes).generated.get? "volumes" = none := by
    simp [packageDraft, textFields, OrderedMap.ofList, OrderedMap.insertAll, OrderedMap.get?_insert]
  rw [get?_ofPackage robot service extra context volumes restart (by decide) (by decide), all,
    generated, Option.or_none]

end Service

/-! ## What becomes of a package -/

/-- A package of a robot with its service, its build and its Dockerfile. -/
structure PackageOutput where
  robot : ExpandedRobot
  package : ExpandedPackage
  service : Service
  build : BuildSpec
  dockerfile : Dockerfile

namespace PackageOutput

variable (output : PackageOutput)

/-- The place of a bundled file, given its path on the host. -/
def bundledPlace (host : String) : String :=
  output.build.context ++ "/files/" ++ Text.finalComponent (Text.trim host)

/-- An entry `HOST:CONTAINER` is a host file of the build, and the service mounts it if its
`volumes` can be a list. -/
structure Bundles (entry host container : String) : Prop where
  parts : Text.splitFirst ':' entry = some (host, container)
  asset_mem : ⟨Text.trim host, output.bundledPlace host⟩ ∈ output.build.assets
  mounted : Listable (output.package.extra.get? "volumes") →
    ∃ items, output.service.fields.get? "volumes" = some (.sequence items) ∧
      ∃ item ∈ items,
        item.innerString? = some (output.bundledPlace host ++ ":" ++ Text.trim container)

/-- The service, the Dockerfile and the host files of a package agree with its build. -/
structure Agrees : Prop where
  robot_eq : output.build.robot = output.robot.id ∧ output.service.robot = some output.robot.id
  name_eq : output.build.service = output.package.service ∧
    output.service.name = output.package.service ∧
    output.dockerfile.service = output.package.service
  build_eq : output.service.fields.get? "build" =
    (output.package.extra.get? "build").or (some (.string output.build.context))
  path_eq : output.dockerfile.path = output.build.context ++ "/Dockerfile"
  content_eq : output.dockerfile.content = BuildSpec.linesText output.build.dockerfileLines
  files : ∀ entry ∈ output.package.files, ∃ host container, output.Bundles entry host container
  ssh_eq : output.build.targetsIn "ssh" =
    output.build.sshKeys.map fun key => output.build.context ++ "/ssh/" ++ key
  rosinstall_eq : output.build.targetsIn "rosinstall" =
    output.build.rosinstall.toList.map fun place => output.build.context ++ "/" ++ place
  supplied : ∀ line ∈ output.build.dockerfileLines, BuildSpec.copiesFiles line = true →
    output.build.Supplied line

end PackageOutput

namespace PackageBuild

variable (robot : ExpandedRobot) {package : ExpandedPackage} (workspace : String)

/-- The place of the file of an entry in the context of its package. -/
def describedPlace (package : ExpandedPackage) (entry : String) : String :=
  context package.path package.service ++ "/" ++ filePlace (described entry).name

theorem mem_assets_built {entry : String} (member : entry ∈ package.files) :
    ⟨hostPath entry, describedPlace package entry⟩ ∈
      (built robot package workspace).spec.assets := by
  rw [assets_built, List.map_map]
  apply List.mem_append_right
  exact List.mem_map.mpr ⟨entry, member, rfl⟩

theorem mem_volumes_built {entry : String} (member : entry ∈ package.files) :
    describedPlace package entry ++ ":" ++ (described entry).container ∈
      (built robot package workspace).volumes := by
  simp only [built, assemble, List.map_map]
  exact List.mem_map.mpr ⟨entry, member, rfl⟩

end PackageBuild

namespace Model

variable (settings : Settings) (robot : ExpandedRobot) (package : ExpandedPackage)

/-- What becomes of a package that can be built. -/
def packageOutput : PackageOutput where
  robot
  package
  service := builtService settings robot package
  build := builtSpec settings robot package
  dockerfile := (builtSpec settings robot package).dockerfile

theorem sshKeys_builtSpec :
    (builtSpec settings robot package).sshKeys = package.ssh.map Text.finalComponent := by
  simp only [builtSpec, PackageBuild.built, PackageBuild.assemble, List.map_map]
  rfl

theorem rosinstall_builtSpec :
    (builtSpec settings robot package).rosinstall =
      package.rosinstall.map fun path => "rosinstall/" ++ Text.finalComponent path := by
  simp only [builtSpec, PackageBuild.built, PackageBuild.assemble, Option.map_map]
  rfl

variable {settings robot package}

theorem targetsIn_ssh_builtSpec (builds : Builds settings robot package) :
    (builtSpec settings robot package).targetsIn "ssh" =
      (builtSpec settings robot package).sshKeys.map fun key =>
        (builtSpec settings robot package).context ++ "/ssh/" ++ key := by
  have placed := placedAt_builtSpec builds
  have places : (package.hostPlaces.filter fun place => place.directory == "ssh") =
      package.ssh.map fun path => ⟨"ssh", Text.finalComponent path⟩ := by
    simp [ExpandedPackage.hostPlaces, List.filter_map, Function.comp_def]
  rw [placed.targetsIn_eq (by decide), places, sshKeys_builtSpec, List.map_map, List.map_map]
  apply List.map_congr_left
  intro path _
  simp only [Function.comp_apply, HostPlace.path, String.append_assoc]
  rfl

theorem targetsIn_rosinstall_builtSpec (builds : Builds settings robot package) :
    (builtSpec settings robot package).targetsIn "rosinstall" =
      (builtSpec settings robot package).rosinstall.toList.map fun place =>
        (builtSpec settings robot package).context ++ "/" ++ place := by
  have placed := placedAt_builtSpec builds
  have places : (package.hostPlaces.filter fun place => place.directory == "rosinstall") =
      package.rosinstall.toList.map fun path => ⟨"rosinstall", Text.finalComponent path⟩ := by
    simp [ExpandedPackage.hostPlaces, List.filter_map, Function.comp_def]
  rw [placed.targetsIn_eq (by decide), places, rosinstall_builtSpec, Option.toList_map, List.map_map,
    List.map_map]
  apply List.map_congr_left
  intro path _
  simp only [Function.comp_apply, HostPlace.path, String.append_assoc]
  rfl

/-- The host file of an entry is shipped, and its mount is required of the service. -/
theorem bundles_packageOutput {entry host container : String} (member : entry ∈ package.files)
    (parts : Text.splitFirst ':' entry = some (host, container)) :
    (packageOutput settings robot package).Bundles entry host container := by
  have source : hostPath entry = Text.trim host := hostPath_of_splitFirst parts
  have inside : (PackageBuild.described entry).container = Text.trim container := by
    rw [PackageBuild.described, parts]
    rfl
  have place : (packageOutput settings robot package).bundledPlace host =
      PackageBuild.describedPlace package entry := by
    rw [PackageOutput.bundledPlace, PackageBuild.describedPlace, PackageBuild.described, source]
    simp only [packageOutput, context_builtSpec, PackageBuild.filePlace, String.append_assoc]
    rfl
  have asset := PackageBuild.mem_assets_built robot settings.workspace member
  have volume := PackageBuild.mem_volumes_built robot settings.workspace member
  rw [← place, source] at asset
  rw [← place, inside] at volume
  refine ⟨parts, asset, ?_⟩
  intro listable
  have field : (packageOutput settings robot package).service.fields.get? "volumes" =
      Requirement.settle
        (Requirement.mounts (PackageBuild.built robot package settings.workspace).volumes)
        (package.extra.get? "volumes") :=
    Service.get?_volumes_ofPackage ..
  have named := (Requirement.namedIn_settle_mounts_iff listable.extensible).mpr (.inr volume)
  rw [field]
  exact (Requirement.listable_settle _ listable).exists_item named

theorem agrees_packageOutput (builds : Builds settings robot package) :
    (packageOutput settings robot package).Agrees where
  robot_eq := ⟨rfl, rfl⟩
  name_eq := ⟨rfl, rfl, rfl⟩
  build_eq := Service.get?_build_ofPackage ..
  path_eq := rfl
  content_eq := rfl
  files := by
    intro entry member
    have colon := (PackageBuild.exists_ofPackage_iff.mp builds).1 entry member
    rcases Text.exists_splitFirst_of_mem colon with ⟨host, container, parts⟩
    exact ⟨host, container, bundles_packageOutput member parts⟩
  ssh_eq := targetsIn_ssh_builtSpec builds
  rosinstall_eq := targetsIn_rosinstall_builtSpec builds
  supplied := by
    have shipped : ∀ directory, ∀ target ∈
        (builtSpec settings robot package).targetsIn directory,
          target ∈ (builtSpec settings robot package).assets.map Asset.target :=
      fun _ _ member => List.mem_of_mem_filter member
    intro line member copies
    apply BuildSpec.supplied_of_mem_dockerfileLines _ _ member copies
    · intro key keyMember
      apply shipped "ssh"
      rw [targetsIn_ssh_builtSpec builds]
      exact List.mem_map_of_mem keyMember
    · intro place declared
      apply shipped "rosinstall"
      rw [targetsIn_rosinstall_builtSpec builds]
      exact List.mem_map_of_mem (Option.mem_toList.mpr declared)

/-! ## Models -/

/-- Rendering a model keeps the Dockerfiles and the host files of its builds. -/
theorem eq_of_toArtifacts {model : Model} {artifacts : Artifacts}
    (rendered : model.toArtifacts.outcome = .ok artifacts) :
    artifacts.dockerfiles = model.builds.map BuildSpec.dockerfile ∧
      artifacts.assets = model.builds.flatMap BuildSpec.assets := by
  simp only [toArtifacts, Artifacts.ofModel, Logged.outcome_mapError, Logged.outcome_bind,
    Logged.outcome_ofExcept, Logged.outcome_tell, Logged.outcome_pure, except_bind, ok_bind,
    mapError_eq_ok_iff, bind_eq_ok_iff, Except.ok.injEq] at rendered
  rcases rendered with ⟨manifest, -, rfl⟩
  exact ⟨rfl, rfl⟩

/-- The services of packages, the builds and the Dockerfiles correspond one to one and in order,
and the host files are those of the builds. -/
structure OutputsAgree (fleet : ExpandedFleet) (model : Model) (artifacts : Artifacts)
    (outputs : List PackageOutput) : Prop where
  packages_eq : (outputs.map fun output => (output.robot, output.package)) =
    fleet.robots.flatMap fun robot => robot.packages.map fun package => (robot, package)
  services_eq : outputs.map PackageOutput.service =
    model.services.filter fun service => service.kind == .package
  builds_eq : outputs.map PackageOutput.build = model.builds
  dockerfiles_eq : outputs.map PackageOutput.dockerfile = artifacts.dockerfiles
  assets_eq : artifacts.assets = model.builds.flatMap BuildSpec.assets
  agrees : ∀ output ∈ outputs, output.Agrees

/-- What becomes of the packages of a fleet. -/
def packageOutputs (settings : Settings) (fleet : ExpandedFleet) : List PackageOutput :=
  fleet.robots.flatMap fun robot => robot.packages.map (packageOutput settings robot)

/-- A view of what becomes of the packages is a view of the packages. -/
theorem map_packageOutputs {α : Type} (settings : Settings) (fleet : ExpandedFleet)
    (view : PackageOutput → α) :
    (packageOutputs settings fleet).map view = fleet.robots.flatMap fun robot =>
      robot.packages.map fun package => view (packageOutput settings robot package) := by
  rw [packageOutputs, List.map_flatMap]
  apply List.flatMap_congr
  intro robot _
  rw [List.map_map]
  rfl

end Model

/-! ## Documents -/

namespace Document

/-- In a compiled document the services, the Dockerfiles and the host files of all packages agree
with their builds. -/
theorem outputsAgree_of_toModel {settings : Settings} {doc : Document} {model : Model}
    {artifacts : Artifacts} (compiled : (doc.toModel settings).outcome = .ok model)
    (rendered : model.toArtifacts.outcome = .ok artifacts) :
    ∃ fleet outputs, (doc.toExpanded settings).outcome = .ok fleet ∧
      model.OutputsAgree fleet artifacts outputs := by
  rcases toModel_eq_ok_iff.mp compiled with ⟨wellFormed, bound, builds, rfl⟩
  have artifactsEq := Model.eq_of_toArtifacts rendered
  have expands := toExpanded_eq_ok_iff.mpr ⟨wellFormed, bound, rfl⟩
  refine ⟨_, Model.packageOutputs settings (doc.fleet settings).copy, expands, ?_⟩
  exact {
    packages_eq := Model.map_packageOutputs ..
    services_eq := by
      rw [Model.map_packageOutputs, Model.filter_package_built]
      rfl
    builds_eq := by
      rw [Model.map_packageOutputs, Model.builds_built]
      rfl
    dockerfiles_eq := by
      rw [Model.map_packageOutputs, artifactsEq.1, Model.builds_built, List.map_flatMap]
      apply List.flatMap_congr
      intro robot _
      rw [List.map_map]
      rfl
    assets_eq := artifactsEq.2
    agrees := by
      intro output member
      rcases List.mem_flatMap.mp member with ⟨robot, robotMember, inRobot⟩
      rcases List.mem_map.mp inRobot with ⟨package, packageMember, rfl⟩
      exact Model.agrees_packageOutput (builds robot robotMember package packageMember) }

/-- A package that is fetched with keys, brings two files along and mounts a volume of its own,
and one that says itself what it is built from. -/
def equipped : Document where
  areas := some [⟨some "yard", some ["carrier", "porter"]⟩]
  robots := [
    ⟨some "porter", some "noetic:11400", none, some ["planner"], none, .empty⟩,
    ⟨some "carrier", some "humble:2", none, some ["driver"], none, .empty⟩]
  images := []
  packages := [
    ⟨some "driver", some "src/driver", some "drive", some ["git"],
      some ["git@lab:carrier/driver.git:main"], some "fleet.rosinstall", some ["keys/deploy"],
      some ["config/map.yaml:/etc/map.yaml", " config/zones.yaml : /etc/zones.yaml"],
      .ofList [("volumes", .sequence [.string "logs:/var/log"])]⟩,
    ⟨some "planner", some "src/planner", some "plan", some ["git"], none, none, none, none,
      .ofList [("build", .string "./planner")]⟩]
  globals := []

/-- Two packages of two robots. -/
theorem equipped_outputsAgree :
    ∃ model artifacts fleet outputs, (equipped.toModel .standard).outcome = .ok model ∧
      model.toArtifacts.outcome = .ok artifacts ∧
      (equipped.toExpanded .standard).outcome = .ok fleet ∧
      (artifacts.dockerfiles.length, artifacts.assets.length) = (2, 4) ∧
      model.OutputsAgree fleet artifacts outputs := by
  have ran : ((equipped.toModel .standard).outcome.toOption.bind fun model =>
      model.toArtifacts.outcome.toOption.map fun artifacts =>
        (artifacts.dockerfiles.length, artifacts.assets.length)) = some (2, 4) := by
    decide +kernel
  cases compiled : (equipped.toModel .standard).outcome with
  | error failure =>
      rw [compiled] at ran
      cases ran
  | ok model =>
      rw [compiled] at ran
      have renders : (model.toArtifacts.outcome.toOption.map fun artifacts =>
          (artifacts.dockerfiles.length, artifacts.assets.length)) = some (2, 4) :=
        ran
      rcases exists_ok_of_map_eq_some renders with ⟨artifacts, rendered, sizes⟩
      rcases outputsAgree_of_toModel compiled rendered with ⟨fleet, outputs, expands, agree⟩
      exact ⟨model, artifacts, fleet, outputs, rfl, rendered, expands, sizes, agree⟩

end Document

end FleetCompose
