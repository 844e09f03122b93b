import FleetCompose.Compose.Dockerfile
import FleetCompose.Proofs.ServiceNames

/-!
# Where a run writes

Every build has a Dockerfile and host files in its context, and the context ends in the name of
its service. Distinct services have distinct contexts as long as no slash stands in the names: a
slash in an id makes a directory of its own, and then two builds can share a context, or a host
file can take the place of another Dockerfile. Nothing else can collide.
-/

namespace FleetCompose

/-- The places of all files that a run writes for its builds. -/
def Model.outputPlaces (model : Model) : List String :=
  model.builds.map (fun build => build.dockerfile.path) ++
    model.builds.flatMap fun build => build.assets.map Asset.target

/-- No two builds have one context, and no host file stands where a Dockerfile does. -/
structure Model.BuildsApart (model : Model) : Prop where
  contexts_nodup : (model.builds.map BuildSpec.context).Nodup
  target_ne : ∀ build ∈ model.builds, ∀ asset ∈ build.assets, ∀ other ∈ model.builds,
    asset.target ≠ other.dockerfile.path

/-! ## Places in a context -/

theorem BuildSpec.dockerfile_path (build : BuildSpec) :
    build.dockerfile.path = build.context ++ "/" ++ "Dockerfile" := by
  rw [String.append_assoc]
  rfl

/-- A directory of a context and the name of a host file in it. -/
structure HostPlace where
  directory : String
  name : String

namespace HostPlace

/-- The path of the place. -/
def path (context : String) (place : HostPlace) : String :=
  context ++ "/" ++ place.directory ++ "/" ++ place.name

/-- There is a directory for each kind of host files, and names are last components. -/
structure WellFormed (place : HostPlace) : Prop where
  directory_mem : place.directory ∈ ["rosinstall", "ssh", "files"]
  name_free : '/' ∉ place.name.toList

variable {place other : HostPlace}

theorem WellFormed.directory_free (wellFormed : place.WellFormed) :
    '/' ∉ place.directory.toList ∧ '-' ∉ place.directory.toList := by
  have none : ∀ directory ∈ ["rosinstall", "ssh", "files"],
      '/' ∉ directory.toList ∧ '-' ∉ directory.toList := by
    decide
  exact none place.directory wellFormed.directory_mem

/-- The path tells the context and the place. -/
theorem path_inj (wellFormed : place.WellFormed) (otherWellFormed : other.WellFormed)
    {context otherContext : String} :
    place.path context = other.path otherContext ↔ context = otherContext ∧ place = other := by
  cases place
  cases other
  rw [path, path, Text.join_inj wellFormed.name_free otherWellFormed.name_free,
    Text.join_inj wellFormed.directory_free.1 otherWellFormed.directory_free.1, mk.injEq,
    and_assoc]

end HostPlace

/-- The host files of a build stand at distinct places in its context. -/
structure BuildSpec.PlacedAt (build : BuildSpec) (places : List HostPlace) : Prop where
  targets_eq : build.assets.map Asset.target = places.map (HostPlace.path build.context)
  wellFormed : ∀ place ∈ places, place.WellFormed
  nodup : places.Nodup

namespace BuildSpec.PlacedAt

variable {build other : BuildSpec} {places otherPlaces : List HostPlace}

theorem exists_place (placed : build.PlacedAt places) {target : String}
    (member : target ∈ build.assets.map Asset.target) :
    ∃ place ∈ places, place.path build.context = target := by
  rw [placed.targets_eq] at member
  exact List.mem_map.mp member

theorem targets_nodup (placed : build.PlacedAt places) :
    (build.assets.map Asset.target).Nodup := by
  rw [placed.targets_eq]
  apply List.Nodup.map_on _ placed.nodup
  intro place member otherPlace otherMember equal
  exact ((HostPlace.path_inj (placed.wellFormed place member)
    (placed.wellFormed otherPlace otherMember)).mp equal).2

/-- Host files of different contexts do not collide. -/
theorem targets_disjoint (placed : build.PlacedAt places) (otherPlaced : other.PlacedAt otherPlaces)
    (apart : build.context ≠ other.context) :
    (build.assets.map Asset.target).Disjoint (other.assets.map Asset.target) := by
  intro target member otherMember
  rcases placed.exists_place member with ⟨place, placeMember, path⟩
  rcases otherPlaced.exists_place otherMember with ⟨otherPlace, otherPlaceMember, otherPath⟩
  have equal := (HostPlace.path_inj (placed.wellFormed place placeMember)
    (otherPlaced.wellFormed otherPlace otherPlaceMember)).mp (path.trans otherPath.symm)
  exact apart equal.1

end BuildSpec.PlacedAt

namespace Model

variable {model : Model}

/-- The host files of all builds are placed in the contexts of their builds. -/
def HostFilesPlaced (model : Model) : Prop :=
  ∀ build ∈ model.builds, ∃ places, build.PlacedAt places

theorem nodup_dockerfile_paths :
    (model.builds.map fun build => build.dockerfile.path).Nodup ↔
      (model.builds.map BuildSpec.context).Nodup := by
  have paths : (model.builds.map fun build => build.dockerfile.path) =
      (model.builds.map BuildSpec.context).map (· ++ "/Dockerfile") := by
    rw [List.map_map]
    rfl
  have injective : Function.Injective fun context : String => context ++ "/Dockerfile" := by
    intro context other equal
    exact (String.append_left_inj _).mp equal
  rw [paths, List.nodup_map_iff injective]

/-- All that can collide are contexts, and host files with Dockerfiles. -/
theorem outputPlaces_nodup_iff (placed : model.HostFilesPlaced) :
    model.outputPlaces.Nodup ↔ model.BuildsApart := by
  rw [outputPlaces, List.nodup_append, nodup_dockerfile_paths]
  constructor
  · intro given
    rcases given with ⟨contexts, -, apart⟩
    refine ⟨contexts, ?_⟩
    intro build member asset assetMember other otherMember equal
    have target : asset.target ∈ model.builds.flatMap fun build =>
        build.assets.map Asset.target :=
      List.mem_flatMap.mpr ⟨build, member, List.mem_map_of_mem assetMember⟩
    exact apart _ (List.mem_map_of_mem otherMember) _ target equal.symm
  · intro given
    refine ⟨given.contexts_nodup, ?_, ?_⟩
    · rw [List.nodup_flatMap]
      constructor
      · intro build member
        rcases placed build member with ⟨places, placedAt⟩
        exact placedAt.targets_nodup
      · apply (List.pairwise_map.mp given.contexts_nodup).imp_of_mem
        intro build other member otherMember apart
        rcases placed build member with ⟨places, placedAt⟩
        rcases placed other otherMember with ⟨otherPlaces, otherPlacedAt⟩
        exact placedAt.targets_disjoint otherPlacedAt apart
    · intro path pathMember target targetMember equal
      rcases List.mem_map.mp pathMember with ⟨other, otherMember, rfl⟩
      rcases List.mem_flatMap.mp targetMember with ⟨build, member, inBuild⟩
      rcases List.mem_map.mp inBuild with ⟨asset, assetMember, rfl⟩
      exact given.target_ne build member asset assetMember other otherMember equal.symm

end Model

/-! ## Names without slashes -/

/-- The context of a build is made for its service, and the service for the robot and the
package. -/
structure BuildSpec.Named (build : BuildSpec) : Prop where
  service_eq : build.service = instanceService build.robot build.package
  context_eq : ∃ path, build.context = PackageBuild.context path build.service

/-- A build for ids without a slash. -/
def BuildSpec.SlashFree (build : BuildSpec) : Prop :=
  '/' ∉ build.robot.toList ∧ '/' ∉ build.package.toList

instance : DecidablePred BuildSpec.SlashFree :=
  fun _ => inferInstanceAs (Decidable (_ ∧ _))

/-- The service below what is left of the path of its package. -/
def PackageBuild.placed (path service : String) : String :=
  let base := Text.dropTrailingSlashes (Text.trim path)
  if base.isEmpty then service else base ++ "/" ++ service

/-- The context is the place of the service if that starts like a path, and has a dot in front of it
otherwise. -/
theorem PackageBuild.context_cases (path service : String) :
    context path service = placed path service ∧
        (∃ c ∈ ['/', '.'], (placed path service).toList.head? = some c) ∨
      context path service = "./" ++ placed path service ∧
        (placed path service).toList.head? ≠ some '/' := by
  unfold context placed
  dsimp only
  generalize Text.dropTrailingSlashes (Text.trim path) = base
  generalize (if base.isEmpty then service else base ++ "/" ++ service) = text
  split
  next slash => exact .inl ⟨rfl, '/', by simp, congrArg List.head? slash⟩
  next dot => exact .inl ⟨rfl, '.', by simp, congrArg List.head? dot⟩
  next noSlash _ =>
    refine .inr ⟨rfl, ?_⟩
    intro slash
    rcases List.head?_eq_some_iff.mp slash with ⟨rest, chars⟩
    exact noSlash rest chars

/-- A context ends in the name of the service. -/
theorem PackageBuild.context_eq_or (path service : String) :
    context path service = service ∨ ∃ front, context path service = front ++ "/" ++ service := by
  have place : placed path service = service ∨
      ∃ front, placed path service = front ++ "/" ++ service := by
    rw [placed]
    split
    next => exact .inl rfl
    next => exact .inr ⟨_, rfl⟩
  rcases context_cases path service with ⟨same, -⟩ | ⟨dotted, -⟩
  · rwa [same]
  · rw [dotted]
    rcases place with equal | ⟨front, equal⟩
    · exact .inr ⟨".", by rw [equal]; rfl⟩
    · exact .inr ⟨"./" ++ front, by rw [equal]; simp only [String.append_assoc]⟩

theorem PackageBuild.afterLast_context (path : String) {service : String}
    (free : '/' ∉ service.toList) : Text.afterLast '/' (context path service) = service := by
  rcases context_eq_or path service with equal | ⟨front, equal⟩
  · rw [equal, Text.afterLast_of_free free]
  · rw [equal, Text.afterLast_join free]

namespace BuildSpec.Named

variable {build : BuildSpec} (named : build.Named)
include named

theorem hyphen_mem_service : '-' ∈ build.service.toList := by
  rw [named.service_eq, instanceService]
  simp

theorem afterLast_context (free : build.SlashFree) :
    Text.afterLast '/' build.context = build.service := by
  have serviceFree : '/' ∉ build.service.toList := by
    rw [named.service_eq, instanceService]
    simpa using ⟨free.1, free.2⟩
  rcases named.context_eq with ⟨path, equal⟩
  rw [equal, PackageBuild.afterLast_context path serviceFree]

end BuildSpec.Named

/-- Without slashes in ids, contexts are as distinct as services, and no directory of host files
is the context of another build. -/
theorem Model.buildsApart_of_slashFree {model : Model} (placed : model.HostFilesPlaced)
    (named : ∀ build ∈ model.builds, build.Named)
    (services : (model.builds.map BuildSpec.service).Nodup)
    (free : ∀ build ∈ model.builds, build.SlashFree) : model.BuildsApart := by
  have ends : ∀ build ∈ model.builds, Text.afterLast '/' build.context = build.service :=
    fun build member => (named build member).afterLast_context (free build member)
  constructor
  · apply List.Nodup.of_map (Text.afterLast '/')
    have equal : model.builds.map (Text.afterLast '/' ∘ BuildSpec.context) =
        model.builds.map BuildSpec.service :=
      List.map_congr_left ends
    rw [List.map_map, equal]
    exact services
  · intro build member asset assetMember other otherMember equal
    rcases placed build member with ⟨places, placedAt⟩
    rcases placedAt.exists_place (List.mem_map_of_mem assetMember) with ⟨place, placeMember, path⟩
    have wellFormed := placedAt.wellFormed place placeMember
    have joined : build.context ++ "/" ++ place.directory ++ "/" ++ place.name =
        other.context ++ "/" ++ "Dockerfile" :=
      (path.trans equal).trans (BuildSpec.dockerfile_path other)
    have context := ((Text.join_inj wellFormed.name_free (by decide)).mp joined).1
    have directory : place.directory = other.service := by
      rw [← ends other otherMember, ← context, Text.afterLast_join wellFormed.directory_free.1]
    have hyphen := (named other otherMember).hyphen_mem_service
    rw [← directory] at hyphen
    exact wellFormed.directory_free.2 hyphen

/-! ## Builds of packages -/

namespace PackageBuild

theorem rosinstallPlace_eq (name : String) :
    rosinstallPlace name = "rosinstall" ++ "/" ++ name := rfl

theorem keyPlace_eq (name : String) : keyPlace name = "ssh" ++ "/" ++ name := rfl

theorem filePlace_eq (name : String) : filePlace name = "files" ++ "/" ++ name := rfl

end PackageBuild

/-- The places of the host files of a package. -/
def ExpandedPackage.hostPlaces (package : ExpandedPackage) : List HostPlace :=
  package.rosinstall.toList.map (fun path => ⟨"rosinstall", Text.finalComponent path⟩) ++
    package.ssh.map (fun path => ⟨"ssh", Text.finalComponent path⟩) ++
    package.files.map fun entry => ⟨"files", Text.finalComponent (hostPath entry)⟩

namespace ExpandedPackage

variable {package : ExpandedPackage}

theorem wellFormed_of_mem_hostPlaces {place : HostPlace} (member : place ∈ package.hostPlaces) :
    place.WellFormed := by
  simp only [hostPlaces, List.mem_append, List.mem_map] at member
  rcases member with (⟨path, -, rfl⟩ | ⟨path, -, rfl⟩) | ⟨entry, -, rfl⟩
  · exact ⟨by simp, Text.slash_notMem_finalComponent _⟩
  · exact ⟨by simp, Text.slash_notMem_finalComponent _⟩
  · exact ⟨by simp, Text.slash_notMem_finalComponent _⟩

theorem HostFilesCopyable.nodup_hostPlaces (copyable : package.HostFilesCopyable) :
    package.hostPlaces.Nodup := by
  have rosinstall : (package.rosinstall.toList.map fun path =>
      HostPlace.mk "rosinstall" (Text.finalComponent path)).Nodup := by
    cases package.rosinstall with
    | none => exact List.nodup_nil
    | some path => exact List.nodup_singleton _
  have ssh : (package.ssh.map fun path =>
      HostPlace.mk "ssh" (Text.finalComponent path)).Nodup := by
    apply List.Nodup.of_map HostPlace.name
    rw [List.map_map]
    exact copyable.ssh.nodup
  have files : (package.files.map fun entry =>
      HostPlace.mk "files" (Text.finalComponent (hostPath entry))).Nodup := by
    apply List.Nodup.of_map HostPlace.name
    rw [List.map_map]
    have names := copyable.files.nodup
    rw [List.map_map] at names
    exact names
  -- Places of different kinds differ in the directory.
  refine (rosinstall.append ssh ?_).append files ?_
  · intro place inRosinstall inSsh
    rcases List.mem_map.mp inRosinstall with ⟨path, -, rfl⟩
    rcases List.mem_map.mp inSsh with ⟨other, -, equal⟩
    simp at equal
  · intro place inEarlier inFiles
    rcases List.mem_map.mp inFiles with ⟨entry, -, rfl⟩
    simp at inEarlier

end ExpandedPackage

namespace Model

variable {settings : Settings}

theorem targets_builtSpec (robot : ExpandedRobot) (package : ExpandedPackage) :
    (builtSpec settings robot package).assets.map Asset.target =
      package.hostPlaces.map (HostPlace.path (builtSpec settings robot package).context) := by
  simp only [builtSpec, PackageBuild.built, PackageBuild.assemble, ExpandedPackage.hostPlaces,
    List.map_append, List.map_map, Option.toList_map, Function.comp_def,
    PackageBuild.rosinstallPlace_eq, PackageBuild.keyPlace_eq, PackageBuild.filePlace_eq,
    HostPlace.path, String.append_assoc]
  rfl

/-- The host files of a package that can be built are placed. -/
theorem placedAt_builtSpec {robot : ExpandedRobot} {package : ExpandedPackage}
    (builds : Builds settings robot package) :
    (builtSpec settings robot package).PlacedAt package.hostPlaces where
  targets_eq := targets_builtSpec robot package
  wellFormed := fun _ => ExpandedPackage.wellFormed_of_mem_hostPlaces
  nodup := (PackageBuild.exists_ofPackage_iff.mp builds).2.nodup_hostPlaces

theorem hostFilesPlaced_built {fleet : ExpandedFleet}
    (builds : ∀ robot ∈ fleet.robots, ∀ package ∈ robot.packages,
      Builds settings robot package) : (built settings fleet).HostFilesPlaced := by
  intro build member
  rw [builds_built] at member
  rcases List.mem_flatMap.mp member with ⟨robot, robotMember, inRobot⟩
  rcases List.mem_map.mp inRobot with ⟨package, packageMember, rfl⟩
  exact ⟨package.hostPlaces, placedAt_builtSpec (builds robot robotMember package packageMember)⟩

theorem context_builtSpec (robot : ExpandedRobot) (package : ExpandedPackage) :
    (builtSpec settings robot package).context =
      PackageBuild.context package.path package.service := by
  simp only [builtSpec, PackageBuild.built, PackageBuild.assemble]

theorem service_builtSpec (robot : ExpandedRobot) (package : ExpandedPackage) :
    (builtSpec settings robot package).service = package.service := by
  simp only [builtSpec, PackageBuild.built, PackageBuild.assemble]

theorem named_builtSpec {robot : ExpandedRobot} {package : ExpandedPackage}
    (service : package.service = instanceService robot.id package.id) :
    (builtSpec settings robot package).Named where
  service_eq := (service_builtSpec robot package).trans service
  context_eq := by
    rw [context_builtSpec, service_builtSpec]
    exact ⟨package.path, rfl⟩

theorem named_of_mem_builds {fleet : Fleet} {build : BuildSpec}
    (member : build ∈ (built settings fleet.copy).builds) : build.Named := by
  rw [builds_built] at member
  rcases List.mem_flatMap.mp member with ⟨copy, copyMember, inCopy⟩
  rcases List.mem_map.mp inCopy with ⟨packageCopy, packageMember, rfl⟩
  rcases List.mem_flatMap.mp copyMember with ⟨area, areaMember, inArea⟩
  rcases List.mem_map.mp areaMember with ⟨fleetArea, -, rfl⟩
  rcases List.mem_map.mp inArea with ⟨robot, -, rfl⟩
  rcases List.mem_map.mp packageMember with ⟨package, -, rfl⟩
  exact named_builtSpec rfl

end Model

/-! ## Documents -/

namespace Document

/-- A compiled document writes to distinct places exactly if its contexts are distinct and no
host file takes the place of a Dockerfile, which is so where ids have no slashes. -/
theorem outputPlaces_of_toModel {settings : Settings} {doc : Document} {model : Model}
    (compiled : (doc.toModel settings).outcome = .ok model) :
    (model.outputPlaces.Nodup ↔ model.BuildsApart) ∧
      ((∀ build ∈ model.builds, build.SlashFree) → model.outputPlaces.Nodup) := by
  rcases toModel_eq_ok_iff.mp compiled with ⟨wellFormed, -, builds, rfl⟩
  have placed := Model.hostFilesPlaced_built builds
  have apart := Model.outputPlaces_nodup_iff placed
  refine ⟨apart, fun free => apart.mpr ?_⟩
  have services : ((Model.built settings (doc.fleet settings).copy).builds.map
      BuildSpec.service).Nodup := by
    rw [Model.map_service_builds]
    exact wellFormed.nodup_services.sublist (List.filter_sublist.map _)
  exact Model.buildsApart_of_slashFree placed (fun _ => Model.named_of_mem_builds) services free

/-- The sample document has two builds with host files, and its ids have no slashes. -/
theorem sample_outputPlaces :
    ∃ model, (sample.toModel .standard).outcome = .ok model ∧ model.builds.length = 2 ∧
      (∀ build ∈ model.builds, build.SlashFree) ∧ model.outputPlaces.Nodup ∧
      model.BuildsApart := by
  have ran : ((sample.toModel .standard).outcome.toOption.any fun model =>
      decide (model.builds.length = 2 ∧ ∀ build ∈ model.builds, build.SlashFree)) = true := by
    decide +kernel
  rcases exists_toModel_sample with ⟨model, compiled⟩
  have facts : model.builds.length = 2 ∧ ∀ build ∈ model.builds, build.SlashFree := by
    simpa [compiled, Except.toOption] using ran
  have places := outputPlaces_of_toModel compiled
  have distinct := places.2 facts.2
  exact ⟨model, compiled, facts.1, facts.2, distinct, places.1.mp distinct⟩

/-- Two builds in one context: the slash in the id of a robot ends a directory, and the path of
the other package names that directory. -/
def sharedContext : Document where
  areas := some [⟨some "yard", some ["carrier", "lab/carrier-arm"]⟩]
  robots := [
    ⟨some "carrier", some "humble:1", none, some ["arm-driver"], none, .empty⟩,
    ⟨some "lab/carrier-arm", some "humble:2", none, some ["driver"], none, .empty⟩]
  images := []
  packages := [
    ⟨some "arm-driver", some "builds/lab", some "drive-arm", some ["git"], none, none, none,
      none, .empty⟩,
    ⟨some "driver", some "builds", some "drive", some ["git"], none, none, none, none, .empty⟩]
  globals := []

/-- Not every document that is compiled writes to distinct places. -/
theorem not_forall_outputPlaces_nodup :
    ¬∀ (settings : Settings) (doc : Document) (model : Model),
      (doc.toModel settings).outcome = .ok model → model.outputPlaces.Nodup := by
  intro always
  have ran : ((sharedContext.toModel .standard).outcome.toOption.map fun model =>
      decide model.outputPlaces.Nodup) = some false := by
    decide +kernel
  cases compiled : (sharedContext.toModel .standard).outcome with
  | error failure => simp [compiled, Except.toOption] at ran
  | ok model =>
      have distinct := always .standard sharedContext model compiled
      simp [compiled, distinct, Except.toOption] at ran

end Document

end FleetCompose
