import FleetCompose.Proofs.DockerfileLines
import FleetCompose.Proofs.HostFiles
import FleetCompose.Settings.Source

/-!
# Slashes at the end of directories

Slashes at the end of a package path and of the workspace are dropped. The rest names the same
directory wherever there is a rest: an absolute path stays absolute, in any file system it leads to
the same place, and the Dockerfile enters the workspace by it. The root directory has no name in
front of its slashes, so of its path nothing is left: the context becomes relative and the workspace
empty.
-/

namespace FleetCompose

/-! ## Names in a path -/

namespace Path

/-- The path has something other than slashes. -/
def HasName (path : Path) : Prop := ∃ c ∈ path.text.toList, c ≠ '/'

instance : DecidablePred HasName :=
  fun path => decidable_of_iff (path.text.toList.any (· != '/') = true) (by simp [HasName])

/-- Both paths lead to the same place in every file system. -/
def SamePlace (first second : Path) : Prop :=
  ∀ files : FileSystem, files.locate first = files.locate second

theorem isAbsolute_iff {text : String} :
    isAbsolute ⟨text⟩ = true ↔ text.toList.head? = some '/' := by
  rw [isAbsolute, beq_iff_eq]

/-- The segments that count. -/
def names (path : Path) : List String := path.segments.filter (· ≠ "")

theorem names_join (front rest : String) :
    names ⟨front ++ "/" ++ rest⟩ = names ⟨front⟩ ++ names ⟨rest⟩ := by
  have chars : (front ++ "/" ++ rest).toList = front.toList ++ '/' :: rest.toList := by
    simp
  simp only [names, segments, chars, Text.splitOnChars_append_cons, List.map_append,
    List.filter_append]

/-- Slashes at the end add no names. -/
theorem names_slashes (front : String) (count : Nat) :
    names ⟨front ++ String.ofList (List.replicate count '/')⟩ = names ⟨front⟩ := by
  have none : names ⟨""⟩ = [] := by
    decide
  induction count generalizing front with
  | zero => simp
  | succ count ih =>
      have longer : front ++ String.ofList (List.replicate (count + 1) '/') =
          front ++ "/" ++ ("" ++ String.ofList (List.replicate count '/')) := by
        rw [← String.toList_inj]
        simp [List.replicate_succ]
      rw [longer, names_join, ih "", none, List.append_nil]

end Path

/-- Only the segments that count are followed. -/
theorem FileSystem.follow_names (files : FileSystem) (location : Location)
    (segments : List String) :
    files.follow location (segments.filter (· ≠ "")) = files.follow location segments := by
  induction segments generalizing location with
  | nil => rfl
  | cons segment rest ih =>
      by_cases empty : segment = ""
      · rw [List.filter_cons_of_neg (by simpa using empty), ih, follow, if_pos empty]
      · rw [List.filter_cons_of_pos (by simpa using empty), follow, follow, if_neg empty,
          if_neg empty]
        cases files.step location segment with
        | error failure => rfl
        | ok next => exact ih next

/-- Paths with the same names lead to the same place. -/
theorem Path.samePlace_of_names {first second : Path} (nonempty : first.text ≠ "")
    (nonemptySecond : second.text ≠ "") (absolute : first.isAbsolute = second.isAbsolute)
    (same : first.names = second.names) : SamePlace first second := by
  intro files
  have isEmpty : first.isEmpty = false := by
    simpa [Path.isEmpty] using nonempty
  have isEmptySecond : second.isEmpty = false := by
    simpa [Path.isEmpty] using nonemptySecond
  have origin : files.origin second = files.origin first := by
    rw [FileSystem.origin, FileSystem.origin, absolute]
  have located : ∀ path : Path, path.isEmpty = false →
      files.locate path = files.follow (files.origin path) path.names := by
    intro path written
    rw [FileSystem.locate, written, names, FileSystem.follow_names]
    rfl
  rw [located first isEmpty, located second isEmptySecond, origin, same]

namespace Text

/-- A text is what is left of it and slashes. -/
theorem exists_dropTrailingSlashes_append (text : String) :
    ∃ count, text = dropTrailingSlashes text ++ String.ofList (List.replicate count '/') := by
  have slashes : ∀ c ∈ text.toList.rtakeWhile (· == '/'), c = '/' := by
    intro c member
    have slash := List.mem_rtakeWhile_imp member
    simpa using slash
  refine ⟨(text.toList.rtakeWhile (· == '/')).length, ?_⟩
  rw [← List.eq_replicate_of_mem slashes, ← String.toList_inj, String.toList_append,
    toList_dropTrailingSlashes, String.toList_ofList, dropEndWhile_eq_rdropWhile,
    List.rdropWhile_append_rtakeWhile]

/-- Something is left exactly of a text that has a name. -/
theorem dropTrailingSlashes_ne_empty_iff {text : String} :
    dropTrailingSlashes text ≠ "" ↔ Path.HasName ⟨text⟩ := by
  rw [ne_eq, ← String.toList_inj, toList_dropTrailingSlashes, dropEndWhile_eq_rdropWhile]
  change ¬text.toList.rdropWhile (· == '/') = [] ↔ ∃ c ∈ text.toList, c ≠ '/'
  rw [List.rdropWhile_eq_nil_iff]
  simp

section Absolute

variable {text : String} (absolute : Path.isAbsolute ⟨text⟩ = true)
include absolute

theorem isAbsolute_dropTrailingSlashes (named : Path.HasName ⟨text⟩) :
    Path.isAbsolute ⟨dropTrailingSlashes text⟩ = true := by
  rcases exists_dropTrailingSlashes_append text with ⟨count, whole⟩
  rw [whole, Path.isAbsolute_append (dropTrailingSlashes_ne_empty_iff.mpr named)] at absolute
  exact absolute

/-- What is left of an absolute path is absolute exactly if anything is left. -/
theorem isAbsolute_dropTrailingSlashes_iff :
    Path.isAbsolute ⟨dropTrailingSlashes text⟩ = true ↔ Path.HasName ⟨text⟩ := by
  constructor
  · intro left
    rw [← dropTrailingSlashes_ne_empty_iff]
    intro empty
    rw [empty] at left
    cases left
  · exact isAbsolute_dropTrailingSlashes absolute

/-- Behind what is left, other paths are found where they are found behind the whole. -/
theorem samePlace_join (named : Path.HasName ⟨text⟩) (rest : String) :
    Path.SamePlace ⟨dropTrailingSlashes text ++ "/" ++ rest⟩ ⟨text ++ "/" ++ rest⟩ := by
  have left := dropTrailingSlashes_ne_empty_iff.mpr named
  have whole : text ≠ "" := by
    rintro rfl
    cases absolute
  apply Path.samePlace_of_names
  · simp
  · simp
  · rw [String.append_assoc, String.append_assoc, Path.isAbsolute_append left,
      Path.isAbsolute_append whole, absolute, isAbsolute_dropTrailingSlashes absolute named]
  · rcases exists_dropTrailingSlashes_append text with ⟨count, equal⟩
    rw [Path.names_join, Path.names_join, ← Path.names_slashes _ count, ← equal]

theorem samePlace_dropTrailingSlashes (named : Path.HasName ⟨text⟩) :
    Path.SamePlace ⟨dropTrailingSlashes text⟩ ⟨text⟩ := by
  apply Path.samePlace_of_names
  · exact dropTrailingSlashes_ne_empty_iff.mpr named
  · rintro rfl
    cases absolute
  · rw [absolute, isAbsolute_dropTrailingSlashes absolute named]
  · rcases exists_dropTrailingSlashes_append text with ⟨count, equal⟩
    rw [← Path.names_slashes _ count, ← equal]

end Absolute

end Text

/-! ## Contexts -/

namespace PackageBuild

/-- The context of a package with an absolute path: it is absolute if the path has a name, and below
the root directory only if the service says so. -/
structure KeepsPlace (path service : String) : Prop where
  absolute_iff : Path.isAbsolute ⟨context path service⟩ = true ↔
    Path.HasName ⟨Text.trim path⟩ ∨ Path.isAbsolute ⟨service⟩ = true
  samePlace : Path.HasName ⟨Text.trim path⟩ →
    Path.SamePlace ⟨context path service⟩ ⟨Text.trim path ++ "/" ++ service⟩

/-- An absolute place is the context. -/
theorem context_of_absolute {path service : String}
    (absolute : Path.isAbsolute ⟨placed path service⟩ = true) :
    context path service = placed path service := by
  rcases context_cases path service with ⟨same, -⟩ | ⟨-, relative⟩
  · exact same
  · exact absurd (Path.isAbsolute_iff.mp absolute) relative

theorem isAbsolute_context_iff {path service : String} :
    Path.isAbsolute ⟨context path service⟩ = true ↔
      Path.isAbsolute ⟨placed path service⟩ = true := by
  rcases context_cases path service with ⟨same, -⟩ | ⟨dotted, relative⟩
  · rw [same]
  · rw [dotted, Path.isAbsolute_append (by decide)]
    constructor
    · nofun
    · exact fun absolute => absurd (Path.isAbsolute_iff.mp absolute) relative

theorem placed_of_hasName {path service : String} (named : Path.HasName ⟨Text.trim path⟩) :
    placed path service = Text.dropTrailingSlashes (Text.trim path) ++ "/" ++ service := by
  have left := Text.dropTrailingSlashes_ne_empty_iff.mpr named
  rw [placed]
  exact if_neg (by simpa using left)

theorem placed_of_not_hasName {path service : String} (unnamed : ¬Path.HasName ⟨Text.trim path⟩) :
    placed path service = service := by
  rw [← Text.dropTrailingSlashes_ne_empty_iff, not_not] at unnamed
  rw [placed, unnamed]
  rfl

theorem keepsPlace {path : String} (absolute : Path.isAbsolute ⟨Text.trim path⟩ = true)
    (service : String) : KeepsPlace path service := by
  have placedAbsolute (named : Path.HasName ⟨Text.trim path⟩) :
      Path.isAbsolute ⟨placed path service⟩ = true := by
    rw [placed_of_hasName named, String.append_assoc,
      Path.isAbsolute_append (Text.dropTrailingSlashes_ne_empty_iff.mpr named)]
    exact Text.isAbsolute_dropTrailingSlashes absolute named
  constructor
  · rw [isAbsolute_context_iff]
    by_cases named : Path.HasName ⟨Text.trim path⟩
    · simp only [placedAbsolute named, named, true_or]
    · simp only [placed_of_not_hasName named, named, false_or]
  · intro named
    rw [context_of_absolute (placedAbsolute named), placed_of_hasName named]
    exact Text.samePlace_join absolute named service

end PackageBuild

/-! ## Workspaces -/

namespace BuildSpec

/-- The line enters a directory. -/
def entersDirectory (line : String) : Bool := "WORKDIR ".toList.isPrefixOf line.toList

variable {spec : BuildSpec}

theorem entersDirectory_run (command : String) : entersDirectory ("RUN " ++ command) = false := by
  simp [entersDirectory, List.isPrefixOf]

theorem entersDirectory_installCommand (packages : List String) :
    entersDirectory (installCommand packages) = false := by
  rcases exists_installCommand_eq packages with ⟨command, equal⟩
  rw [equal, entersDirectory_run]

theorem not_entersDirectory_of_mem_fetchLines {line : String} (member : line ∈ spec.fetchLines) :
    entersDirectory line = false := by
  rw [fetchLines] at member
  split at member
  next =>
    simp only [List.mem_append, List.mem_cons, List.not_mem_nil, or_false, List.mem_map] at member
    rcases member with (((((rfl | rfl | rfl) | key) | rfl) | file) | ⟨command, -, rfl⟩) | rfl
    · rfl
    · simp [entersDirectory, List.isPrefixOf]
    · exact entersDirectory_installCommand _
    · rw [keyLines] at key
      split at key
      next => cases key
      next =>
        simp only [List.mem_cons, List.not_mem_nil, or_false] at key
        rcases key with rfl | rfl | rfl
        · rfl
        · rfl
        · rfl
    · simp [entersDirectory, List.isPrefixOf]
    · rcases exists_place_of_mem_rosinstallLines file with ⟨place, -, rfl⟩
      simp [entersDirectory, List.isPrefixOf]
    · exact entersDirectory_run command
    · rfl
  next => cases member

theorem not_entersDirectory_of_mem_workspaceLines {line : String}
    (member : line ∈ spec.workspaceLines) : entersDirectory line = false := by
  rw [workspaceLines] at member
  split at member
  next =>
    simp only [List.mem_cons, List.not_mem_nil, or_false] at member
    rcases member with rfl | rfl | rfl
    · simp [entersDirectory, List.isPrefixOf]
    · rcases exists_dependenciesLine_eq with ⟨command, equal⟩
      rw [equal, entersDirectory_run]
    · simp [entersDirectory, List.isPrefixOf]
  next => cases member

/-- One line of a Dockerfile enters a directory, and it enters the workspace. -/
theorem mem_dockerfileLines_enters_iff {line : String} :
    line ∈ spec.dockerfileLines ∧ entersDirectory line = true ↔
      line = "WORKDIR " ++ spec.workspace := by
  constructor
  · rintro ⟨member, enters⟩
    simp only [dockerfileLines, headerLines, finalLines, List.mem_append, List.mem_cons,
      List.not_mem_nil, or_false] at member
    rcases member with ((rfl | rfl) | fetch) | (((rfl | install) | rfl) | inWorkspace) | rfl
    · cases enters
    · simp [entersDirectory, List.isPrefixOf] at enters
    · rw [not_entersDirectory_of_mem_fetchLines fetch] at enters
      cases enters
    · simp [entersDirectory, List.isPrefixOf] at enters
    · split at install
      · cases install
      · rw [List.mem_singleton.mp install, entersDirectory_installCommand] at enters
        cases enters
    · rfl
    · rw [not_entersDirectory_of_mem_workspaceLines inWorkspace] at enters
      cases enters
    · simp [entersDirectory, List.isPrefixOf] at enters
  · rintro rfl
    constructor
    · simp [dockerfileLines, finalLines]
    · simp [entersDirectory, List.isPrefixOf]

end BuildSpec

namespace Settings

/-- Settings whose workspace is given by a text: they come from a settings file that has it, or it
is set. -/
inductive TakesWorkspace (text : String) : Settings → Prop where
  | ofSource {source : String} {file : SettingsFile} {settings : Settings}
      (read : SettingsFile.ofSource source = .ok file) (given : file.workspace = some text)
      (accepted : ofSource source = .ok settings) : TakesWorkspace text settings
  | withWorkspace (settings : Settings) : TakesWorkspace text (settings.withWorkspace text)

/-- The workspace of settings that take it from an absolute path: it is there and absolute if the
path has a name, and the Dockerfiles of all documents enter it. -/
structure KeepsWorkspace (text : String) (settings : Settings) : Prop where
  nonempty_iff : settings.workspace ≠ "" ↔ Path.HasName ⟨text⟩
  absolute_iff : Path.isAbsolute ⟨settings.workspace⟩ = true ↔ Path.HasName ⟨text⟩
  samePlace : Path.HasName ⟨text⟩ → Path.SamePlace ⟨settings.workspace⟩ ⟨text⟩
  enters_iff : ∀ (doc : Document) (model : Model), (doc.toModel settings).outcome = .ok model →
    ∀ build ∈ model.builds, ∀ line,
      line ∈ build.dockerfileLines ∧ BuildSpec.entersDirectory line = true ↔
        line = "WORKDIR " ++ settings.workspace

variable {text : String} {settings : Settings}

/-- Both ways of giving a workspace drop the slashes at its end. -/
theorem TakesWorkspace.workspace_eq (takes : TakesWorkspace text settings) :
    settings.workspace = Text.dropTrailingSlashes text := by
  cases takes with
  | ofSource read given accepted =>
      rw [Settings.ofSource, read] at accepted
      have loaded := mapError_eq_ok_iff.mp accepted
      rw [ofFile] at loaded
      split at loaded
      · cases loaded
      · cases loaded
        rw [overlay, given]
        rfl
  | withWorkspace settings => rfl

theorem workspace_of_mem_builds {doc : Document} {model : Model}
    (compiled : (doc.toModel settings).outcome = .ok model) {build : BuildSpec}
    (member : build ∈ model.builds) : build.workspace = settings.workspace := by
  rcases Document.toModel_eq_ok_iff.mp compiled with ⟨-, -, -, rfl⟩
  rw [Model.builds_built] at member
  rcases List.mem_flatMap.mp member with ⟨robot, -, inRobot⟩
  rcases List.mem_map.mp inRobot with ⟨package, -, rfl⟩
  simp only [Model.builtSpec, PackageBuild.built, PackageBuild.assemble]

theorem keepsWorkspace (takes : TakesWorkspace text settings)
    (absolute : Path.isAbsolute ⟨text⟩ = true) : KeepsWorkspace text settings where
  nonempty_iff := by
    rw [takes.workspace_eq]
    exact Text.dropTrailingSlashes_ne_empty_iff
  absolute_iff := by
    rw [takes.workspace_eq]
    exact Text.isAbsolute_dropTrailingSlashes_iff absolute
  samePlace := by
    rw [takes.workspace_eq]
    exact Text.samePlace_dropTrailingSlashes absolute
  enters_iff := by
    intro doc model compiled build member line
    rw [← workspace_of_mem_builds compiled member]
    exact BuildSpec.mem_dockerfileLines_enters_iff

end Settings

/-! ## Documents and settings -/

/-- An absolute package path and an absolute workspace keep their places exactly if they name
something below the root directory. -/
theorem directoriesKept (path service text : String) (settings : Settings) :
    (Path.isAbsolute ⟨Text.trim path⟩ = true → PackageBuild.KeepsPlace path service) ∧
    (Settings.TakesWorkspace text settings → Path.isAbsolute ⟨text⟩ = true →
      Settings.KeepsWorkspace text settings) := by
  constructor
  · intro absolute
    exact PackageBuild.keepsPlace absolute service
  · intro takes absolute
    exact Settings.keepsWorkspace takes absolute

/-- Settings with slashes at the end of the workspace. -/
def slashedSource : String := "[defaults]\nworkspace = \"/catkin_ws//\"\n"

/-- A package path and a workspace with slashes at their ends, the workspace in a settings file. -/
theorem slashed_directoriesKept :
    ∃ settings, Settings.ofSource slashedSource = .ok settings ∧
      settings.workspace = "/catkin_ws" ∧
      Path.isAbsolute ⟨PackageBuild.context " /opt/drivers// " "carrier-driver"⟩ = true ∧
      Settings.KeepsWorkspace "/catkin_ws//" settings := by
  have read : (SettingsFile.ofSource slashedSource).toOption.map SettingsFile.workspace =
      some (some "/catkin_ws//") := by
    decide +kernel
  have accepted : (Settings.ofSource slashedSource).toOption.map Settings.workspace =
      some "/catkin_ws" := by
    decide +kernel
  rcases exists_ok_of_map_eq_some read with ⟨file, reads, given⟩
  rcases exists_ok_of_map_eq_some accepted with ⟨settings, accepts, workspace⟩
  rcases directoriesKept " /opt/drivers// " "carrier-driver" "/catkin_ws//" settings with
    ⟨place, kept⟩
  refine ⟨settings, accepts, workspace, ?_, kept (.ofSource reads given accepts) (by decide)⟩
  rw [(place (by decide)).absolute_iff]
  exact .inl (by decide)

/-- The root directory is not kept: a context below it is relative, and a workspace empty. -/
theorem not_forall_absolute :
    (¬∀ path service, Path.isAbsolute ⟨Text.trim path⟩ = true →
      Path.isAbsolute ⟨PackageBuild.context path service⟩ = true) ∧
    ¬∀ text settings, Settings.TakesWorkspace text settings → Path.isAbsolute ⟨text⟩ = true →
      settings.workspace ≠ "" ∧ Path.isAbsolute ⟨settings.workspace⟩ = true := by
  constructor
  · intro always
    have relative : PackageBuild.context "/" "carrier-driver" = "./carrier-driver" := by
      decide
    have absolute := always "/" "carrier-driver" (by decide)
    rw [relative] at absolute
    cases absolute
  · intro always
    have kept := always "/" _ (.withWorkspace .standard) (by decide)
    exact kept.1 (by decide)

end FleetCompose
