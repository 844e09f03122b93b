import FleetCompose.Proofs.FailedDelivery

/-!
# Missing host files

A delivery that needs a host file which is not there is refused before anything is written. The
error names the first such file in the order of the artifacts, and nothing but look-ups was done.
What counts is what is there when the delivery begins: a directory is no file, and a file that the
delivery would write itself is not there yet.
-/

namespace FleetCompose

namespace FileSystem

/-- There is a regular file at the path. A path with a slash at its end names no file. -/
def HasFile (files : FileSystem) (path : Path) : Prop :=
  path.endsWithSlash = false ∧
    ∃ location content, files.locate path = .ok location ∧
      files.get? location = some (.file content)

theorem isFile_iff {files : FileSystem} {path : Path} :
    files.isFile path = true ↔ files.HasFile path := by
  rw [isFile, find, HasFile]
  cases files.locate path with
  | error failure => simp
  | ok location =>
      cases found : files.get? location with
      | none => simp [found]
      | some item =>
          cases item with
          | directory => simp [found]
          | file content => cases path.endsWithSlash <;> simp [found]

theorem isFile_eq_false_iff {files : FileSystem} {path : Path} :
    files.isFile path = false ↔ ¬files.HasFile path := by
  rw [← isFile_iff, Bool.not_eq_true]

end FileSystem

namespace Artifacts

/-! ## The look-ups -/

/-- The path names the first host file that is not there: those in front of it are. -/
def FirstMissing (artifacts : Artifacts) (source : Path) (files : FileSystem) (path : Path) :
    Prop :=
  ∃ before asset after, artifacts.assets = before ++ asset :: after ∧
    (∀ earlier ∈ before, files.HasFile (source.join earlier.source)) ∧
    ¬files.HasFile (source.join asset.source) ∧ path = source.join asset.source

/-- A delivery that is refused for a missing file: it has only looked files up, has logged
nothing, and leaves all files as they were. -/
structure Refused (artifacts : Artifacts) (source : Path) (files : FileSystem) (path : Path)
    (delivery : Delivery) : Prop where
  lookUps : delivery = FileStep.performAll files (artifacts.assets.map (checkStep source))
  error_eq : delivery.error = some (.missing path)
  files_eq : delivery.files = files
  log_eq : delivery.log = []

variable {files : FileSystem} {artifacts : Artifacts} {manifest source path : Path}

theorem error_checkStep_iff :
    (FileStep.performAll files (artifacts.assets.map (checkStep source))).error =
        some (.missing path) ↔ artifacts.FirstMissing source files path := by
  rw [performAll_checkStep, FirstMissing]
  constructor
  · intro failed
    rcases Option.map_eq_some_iff.mp failed with ⟨asset, first, named⟩
    rcases List.find?_eq_some_iff_append.mp first with ⟨absent, before, after, split, present⟩
    refine ⟨before, asset, after, split, ?_, ?_, (StepError.missing.inj named).symm⟩
    · intro earlier member
      rw [← FileSystem.isFile_iff]
      simpa using present earlier member
    · rw [← FileSystem.isFile_eq_false_iff]
      simpa using absent
  · rintro ⟨before, asset, after, split, present, absent, rfl⟩
    have first : artifacts.assets.find?
        (fun asset => !files.isFile (source.join asset.source)) = some asset := by
      rw [List.find?_eq_some_iff_append]
      refine ⟨?_, before, after, split, ?_⟩
      · rw [FileSystem.isFile_eq_false_iff.mpr absent]
        rfl
      · intro earlier member
        rw [FileSystem.isFile_iff.mpr (present earlier member)]
        rfl
    rw [first]
    rfl

/-- Some host file is the first one that is not there, unless all are there. -/
theorem exists_firstMissing_iff :
    (∃ path, artifacts.FirstMissing source files path) ↔
      ∃ asset ∈ artifacts.assets, ¬files.HasFile (source.join asset.source) := by
  constructor
  · rintro ⟨path, before, asset, after, split, -, absent, -⟩
    exact ⟨asset, by simp [split], absent⟩
  · rintro ⟨asset, member, absent⟩
    cases first : artifacts.assets.find?
        fun asset => !files.isFile (source.join asset.source) with
    | some found =>
        refine ⟨source.join found.source, error_checkStep_iff.mp ?_⟩
        rw [performAll_checkStep, first]
        rfl
    | none =>
        have present := List.find?_eq_none.mp first asset member
        rw [FileSystem.isFile_eq_false_iff.mpr absent] at present
        exact absurd rfl present

/-! ## The delivery -/

/-- Only look-ups tell that a file is missing. -/
theorem error_checkStep_of_deliver
    (refused : (deliver files artifacts manifest source).error = some (.missing path)) :
    (FileStep.performAll files (artifacts.assets.map (checkStep source))).error =
      some (.missing path) := by
  cases looked : (FileStep.performAll files (artifacts.assets.map (checkStep source))).error with
  | some error =>
      rw [deliver, steps_eq, FileStep.performAll_append_of_error _ looked, looked] at refused
      exact refused
  | none =>
      rcases FileStep.performAll_append_of_none
        (artifacts.fillingSteps manifest source ++ artifacts.closingSteps manifest) looked with
        ⟨errorsAgree, -⟩
      rw [deliver, steps_eq, errorsAgree] at refused
      have noCheck : ∀ path, .require path ∉
          artifacts.fillingSteps manifest source ++ artifacts.closingSteps manifest := by
        intro path member
        rcases List.mem_append.mp member with filling | closing
        · exact require_notMem_fillingSteps path filling
        · simp [closingSteps] at closing
      rcases FileStep.exists_failed_of_performAll noCheck refused with ⟨place, cause, failed⟩
      cases failed

theorem refused_of_firstMissing (first : artifacts.FirstMissing source files path) :
    artifacts.Refused source files path (deliver files artifacts manifest source) := by
  have looked := error_checkStep_iff.mpr first
  have same : deliver files artifacts manifest source =
      FileStep.performAll files (artifacts.assets.map (checkStep source)) := by
    rw [deliver, steps_eq, FileStep.performAll_append_of_error _ looked]
  exact
    { lookUps := same
      error_eq := by rw [same, looked]
      files_eq := by rw [same, performAll_checkStep]
      log_eq := by rw [same, performAll_checkStep] }

/-- A delivery is refused exactly for the first host file that is not there when it begins, and
some file is missing exactly if one is not there. A refused delivery changes nothing. -/
theorem missing_of_deliver (files : FileSystem) (artifacts : Artifacts) (manifest source : Path) :
    ((∃ path, (deliver files artifacts manifest source).error = some (.missing path)) ↔
      ∃ asset ∈ artifacts.assets, ¬files.HasFile (source.join asset.source)) ∧
    ∀ path, ((deliver files artifacts manifest source).error = some (.missing path) ↔
        artifacts.FirstMissing source files path) ∧
      ((deliver files artifacts manifest source).error = some (.missing path) →
        artifacts.Refused source files path (deliver files artifacts manifest source)) := by
  have error_iff : ∀ path, (deliver files artifacts manifest source).error = some (.missing path) ↔
      artifacts.FirstMissing source files path := by
    intro path
    constructor
    · exact fun refused => error_checkStep_iff.mp (error_checkStep_of_deliver refused)
    · exact fun first => (refused_of_firstMissing first).error_eq
  constructor
  · rw [← exists_firstMissing_iff]
    exact exists_congr error_iff
  · intro path
    exact ⟨error_iff path, fun refused => refused_of_firstMissing ((error_iff path).mp refused)⟩

/-! ## A run -/

/-- A key and a directory with settings next to a configuration. -/
def workbench : FileSystem where
  items := .ofList
    [(["src"], .directory), (["src", "id_rsa"], .file "key".toUTF8),
      (["src", "params"], .directory), (["src", "params", "rate.yaml"], .file "10".toUTF8)]
  workingDirectory := []

/-- Artifacts that need a key, a directory in the place of a file, a file of the host and the
Dockerfile itself. -/
def needy : Artifacts where
  manifest := "services: \x7b\x7d\n"
  dockerfiles := [⟨"carrier-driver", "builds/carrier-driver/Dockerfile", "FROM ros:humble\n"⟩]
  assets :=
    [⟨"id_rsa", "builds/carrier-driver/keys/id_rsa"⟩,
      ⟨"params", "builds/carrier-driver/files/params"⟩,
      ⟨"/etc/rate.yaml", "builds/carrier-driver/files/rate.yaml"⟩,
      ⟨"builds/carrier-driver/Dockerfile", "builds/carrier-driver/files/Dockerfile"⟩]

/-- The directory is refused, and so is a Dockerfile that is still to be written. -/
theorem needy_refused :
    needy.Refused ⟨"src"⟩ workbench ⟨"src/params"⟩
        (deliver workbench needy ⟨"src/docker-compose.yml"⟩ ⟨"src"⟩) ∧
      ∃ path, (deliver workbench { needy with assets := needy.assets.drop 3 }
        ⟨"src/docker-compose.yml"⟩ ⟨"src"⟩).error = some (.missing path) := by
  have fails : (deliver workbench needy ⟨"src/docker-compose.yml"⟩ ⟨"src"⟩).error =
      some (.missing ⟨"src/params"⟩) := by
    decide +kernel
  have unwritten : workbench.isFile ⟨"src/builds/carrier-driver/Dockerfile"⟩ = false := by
    decide +kernel
  constructor
  · exact ((missing_of_deliver workbench needy _ _).2 _).2 fails
  · rw [(missing_of_deliver workbench _ _ _).1]
    refine ⟨_, List.mem_singleton_self _, ?_⟩
    rw [← FileSystem.isFile_eq_false_iff]
    exact unwritten

end Artifacts

end FleetCompose
