import FleetCompose.CommandLine.Run
import FleetCompose.Proofs.FileChanges

/-!
# What a failed run leaves behind

All host files are looked up before anything is written, so a missing one leaves the files as they
are. A failure later on, such as a directory in the place of a file, ends the steps where it
arises: directories, Dockerfiles and copied host files that were written before it stay, each of
them complete, and only the manifest is never among them.
-/

namespace FleetCompose

namespace FileStep

variable {files : FileSystem} {steps : List FileStep}

/-! ## Steps in two parts -/

theorem performAll_append_of_error {error : StepError} (more : List FileStep)
    (failed : (performAll files steps).error = some error) :
    performAll files (steps ++ more) = performAll files steps := by
  induction steps generalizing files with
  | nil => cases failed
  | cons step rest ih =>
      rw [List.cons_append]
      cases first : (step.perform files).error with
      | some failure =>
          rw [performAll_cons_of_error _ first, performAll_cons_of_error _ first]
      | none =>
          rw [performAll_cons_of_none rest first] at failed
          rw [performAll_cons_of_none _ first, performAll_cons_of_none _ first, ih failed]

theorem performAll_append_of_none (more : List FileStep)
    (done : (performAll files steps).error = none) :
    (performAll files (steps ++ more)).error =
        (performAll (performAll files steps).files more).error ∧
      (performAll files (steps ++ more)).files =
        (performAll (performAll files steps).files more).files := by
  induction steps generalizing files with
  | nil => exact ⟨rfl, rfl⟩
  | cons step rest ih =>
      rw [List.cons_append]
      cases first : (step.perform files).error with
      | some failure =>
          rw [performAll_cons_of_error _ first, first] at done
          cases done
      | none =>
          rw [performAll_cons_of_none rest first] at done
          rw [performAll_cons_of_none _ first, performAll_cons_of_none _ first]
          exact ih done

theorem exists_failed_of_delivery {path : Path} {outcome : FileSystem.Outcome} {error : StepError}
    (failed : (delivery path outcome).error = some error) :
    ∃ cause, error = .failed path cause := by
  rcases Option.map_eq_some_iff.mp failed with ⟨cause, -, rfl⟩
  exact ⟨cause, rfl⟩

/-- Steps that look nothing up fail in an operation on files. -/
theorem exists_failed_of_performAll (noCheck : ∀ path, .require path ∉ steps)
    {error : StepError} (failed : (performAll files steps).error = some error) :
    ∃ path cause, error = .failed path cause := by
  induction steps generalizing files with
  | nil => cases failed
  | cons step rest ih =>
      cases first : (step.perform files).error with
      | none =>
          rw [performAll_cons_of_none rest first] at failed
          exact ih (fun path member => noCheck path (List.mem_cons_of_mem step member)) failed
      | some failure =>
          rw [performAll_cons_of_error rest first, first] at failed
          cases failed
          cases step with
          | require path => exact absurd List.mem_cons_self (noCheck path)
          | report event => cases first
          | makeAll path => exact ⟨path, exists_failed_of_delivery first⟩
          | write path content => exact ⟨path, exists_failed_of_delivery first⟩
          | copy source target => exact ⟨target, exists_failed_of_delivery first⟩

end FileStep

/-! ## Deliveries -/

namespace Artifacts

variable (artifacts : Artifacts) (manifest source : Path)

/-- A path at which a Dockerfile or a host file is written names this file too. -/
def Replaces (after : FileSystem) (path : Path) : Prop :=
  ∃ target ∈ (artifacts.written manifest).dockerfiles ++ (artifacts.written manifest).assets,
    ∃ location, after.locate target = .ok location ∧ after.locate path = .ok location

/-- What is left behind by a failure: new directories, and complete files at the places of
Dockerfiles and host files. A copy has what its source had before, unless that is itself one of the
files that were written. -/
structure LeftBehind (before after : FileSystem) : Prop
    extends FileSystem.ExtendedBy before after where
  changed : ∀ location, after.get? location = before.get? location ∨
    (before.get? location = none ∧ after.get? location = some .directory) ∨
    (∃ dockerfile ∈ artifacts.dockerfiles,
      after.locate (manifest.directory.join dockerfile.path) = .ok location ∧
        after.get? location = some (.file dockerfile.content.toUTF8)) ∨
    ∃ asset ∈ artifacts.assets, ∃ content,
      after.locate (manifest.directory.join asset.target) = .ok location ∧
        after.get? location = some (.file content) ∧
        (before.read (source.join asset.source) = .ok content ∨
          artifacts.Replaces manifest after (source.join asset.source))

/-- How writing artifacts fails: a host file is missing and nothing is changed, or an operation on
files fails after all host files were found. -/
inductive FailsWith (before : FileSystem) : StepError → FileSystem → Prop where
  | missing {asset : Asset} (member : asset ∈ artifacts.assets)
      (missing : before.isFile (source.join asset.source) = false) :
      FailsWith before (.missing (source.join asset.source)) before
  | failed {path : Path} {cause : FileError} {after : FileSystem}
      (found : ∀ asset ∈ artifacts.assets, before.isFile (source.join asset.source) = true)
      (left : artifacts.LeftBehind manifest source before after) :
      FailsWith before (.failed path cause) after

theorem FailsWith.eq_of_missing {before after : FileSystem} {path : Path}
    (fails : artifacts.FailsWith manifest source before (.missing path) after) : after = before := by
  cases fails with
  | missing member missing => rfl

/-- The steps between the look-up of the host files and the manifest. -/
def fillingSteps : List FileStep :=
  artifacts.dockerfiles.flatMap (dockerfileSteps manifest) ++
    artifacts.assets.flatMap (assetSteps manifest source) ++ FileStep.makeParent manifest

/-- The steps that end with the manifest. -/
def closingSteps : List FileStep :=
  [.write manifest artifacts.manifest, .report (artifacts.writtenEvent manifest)]

theorem steps_eq : artifacts.steps manifest source =
    artifacts.assets.map (checkStep source) ++
      (artifacts.fillingSteps manifest source ++ artifacts.closingSteps manifest) := by
  simp only [steps, fillingSteps, closingSteps, manifestSteps, List.append_assoc]

variable {artifacts manifest source}

theorem exists_makeAll_of_mem_makeParent {path : Path} {step : FileStep}
    (member : step ∈ FileStep.makeParent path) : ∃ parent, step = .makeAll parent := by
  unfold FileStep.makeParent at member
  split at member
  next parent _ =>
    split at member
    · cases member
    · exact ⟨parent, List.mem_singleton.mp member⟩
  next => cases member

/-- The steps that write Dockerfiles and copy host files. -/
theorem mem_fillingSteps_cases {step : FileStep}
    (member : step ∈ artifacts.fillingSteps manifest source) :
    (∃ path, step = .makeAll path) ∨ (∃ event, step = .report event) ∨
      (∃ dockerfile ∈ artifacts.dockerfiles,
        step = .write (manifest.directory.join dockerfile.path) dockerfile.content) ∨
      ∃ asset ∈ artifacts.assets,
        step = .copy (source.join asset.source) (manifest.directory.join asset.target) := by
  rw [fillingSteps, List.mem_append, List.mem_append] at member
  rcases member with (inDockerfiles | inAssets) | inParent
  · rcases List.mem_flatMap.mp inDockerfiles with ⟨dockerfile, dockerfileMember, inSteps⟩
    rcases List.mem_append.mp inSteps with inParent | inWrite
    · exact .inl (exists_makeAll_of_mem_makeParent inParent)
    · simp only [List.mem_cons, List.not_mem_nil, or_false] at inWrite
      rcases inWrite with rfl | rfl
      · exact .inr (.inr (.inl ⟨dockerfile, dockerfileMember, rfl⟩))
      · exact .inr (.inl ⟨_, rfl⟩)
  · rcases List.mem_flatMap.mp inAssets with ⟨asset, assetMember, inSteps⟩
    rcases List.mem_append.mp inSteps with inParent | inCopy
    · exact .inl (exists_makeAll_of_mem_makeParent inParent)
    · exact .inr (.inr (.inr ⟨asset, assetMember, List.mem_singleton.mp inCopy⟩))
  · exact .inl (exists_makeAll_of_mem_makeParent inParent)

theorem mem_written_of_target {step : FileStep}
    (member : step ∈ artifacts.fillingSteps manifest source) {target : Path}
    (isTarget : target ∈ step.target?) :
    target ∈ (artifacts.written manifest).dockerfiles ++ (artifacts.written manifest).assets := by
  rcases mem_fillingSteps_cases member with ⟨path, rfl⟩ | ⟨event, rfl⟩ |
    ⟨dockerfile, dockerfileMember, rfl⟩ | ⟨asset, assetMember, rfl⟩
  · cases isTarget
  · cases isTarget
  · cases isTarget
    exact List.mem_append_left _ (List.mem_map_of_mem dockerfileMember)
  · cases isTarget
    exact List.mem_append_right _ (List.mem_map_of_mem assetMember)

/-- What the steps before the manifest have changed is what a failure leaves behind. -/
theorem leftBehind_of_progress {before after : FileSystem}
    (progress : FileStep.Progress (artifacts.fillingSteps manifest source) before after) :
    artifacts.LeftBehind manifest source before after where
  toExtendedBy := progress.toExtendedBy
  changed := by
    intro location
    rcases progress.changed location with same | made | ⟨step, member, content, wrote, found⟩
    · exact .inl same
    · exact .inr (.inl made)
    · rcases mem_fillingSteps_cases member with ⟨path, rfl⟩ | ⟨event, rfl⟩ |
        ⟨dockerfile, dockerfileMember, rfl⟩ | ⟨asset, assetMember, rfl⟩
      · cases wrote
      · cases wrote
      · cases wrote with
        | write located =>
            exact .inr (.inr (.inl ⟨dockerfile, dockerfileMember, located, found⟩))
      · cases wrote with
        | copy located copied =>
            refine .inr (.inr (.inr ⟨asset, assetMember, content, located, found, ?_⟩))
            rcases copied with same | ⟨other, otherMember, target, isTarget, place⟩
            · exact .inl same
            · exact .inr ⟨target, mem_written_of_target otherMember isTarget, place⟩

/-- The steps before the manifest look nothing up, and they copy host files only. -/
theorem leftBehind_fillingSteps {files : FileSystem}
    (found : ∀ asset ∈ artifacts.assets, files.isFile (source.join asset.source) = true) :
    artifacts.LeftBehind manifest source files
      (FileStep.performAll files (artifacts.fillingSteps manifest source)).files := by
  apply leftBehind_of_progress
  apply FileStep.progress_performAll
  intro from_ target member
  rcases mem_fillingSteps_cases member with ⟨path, equal⟩ | ⟨event, equal⟩ |
    ⟨dockerfile, dockerfileMember, equal⟩ | ⟨asset, assetMember, equal⟩
  · cases equal
  · cases equal
  · cases equal
  · cases equal
    exact found asset assetMember

theorem require_notMem_fillingSteps (path : Path) :
    .require path ∉ artifacts.fillingSteps manifest source := by
  intro member
  rcases mem_fillingSteps_cases member with ⟨path, equal⟩ | ⟨event, equal⟩ |
    ⟨dockerfile, dockerfileMember, equal⟩ | ⟨asset, assetMember, equal⟩
  · cases equal
  · cases equal
  · cases equal
  · cases equal

/-- The manifest is written in one step: if this fails, nothing changes any more. -/
theorem failed_of_closingSteps {files : FileSystem} {error : StepError}
    (failed : (FileStep.performAll files (artifacts.closingSteps manifest)).error = some error) :
    (∃ cause, error = .failed manifest cause) ∧
      (FileStep.performAll files (artifacts.closingSteps manifest)).files = files := by
  rw [closingSteps] at failed ⊢
  cases writes : files.write manifest artifacts.manifest.toUTF8 with
  | ok after =>
      have done : (FileStep.perform files (.write manifest artifacts.manifest)).error = none := by
        rw [FileStep.perform, writes]
        rfl
      rw [FileStep.performAll_cons_of_none _ done] at failed
      cases failed
  | error cause =>
      have fails : FileStep.perform files (.write manifest artifacts.manifest) =
          ⟨[], some (.failed manifest cause), files⟩ := by
        rw [FileStep.perform, writes]
        rfl
      have error := congrArg Delivery.error fails
      rw [FileStep.performAll_cons_of_error _ error] at failed ⊢
      exact ⟨⟨cause, Option.some.inj (failed.symm.trans error)⟩, congrArg Delivery.files fails⟩

/-- The look-ups end at the first asset whose host file is not there. -/
theorem performAll_checkStep {files : FileSystem} :
    FileStep.performAll files (artifacts.assets.map (checkStep source)) =
      ⟨[], (artifacts.assets.find? fun asset => !files.isFile (source.join asset.source)).map
        fun asset => .missing (source.join asset.source), files⟩ := by
  have checks : artifacts.assets.map (checkStep source) =
      (artifacts.assets.map fun asset => source.join asset.source).map .require := by
    rw [List.map_map]
    rfl
  rw [checks, FileStep.performAll_require, List.find?_map, Option.map_map]
  rfl

/-- A delivery ends at the first host file that is not there, or goes on to write. -/
theorem deliver_cases (files : FileSystem) (artifacts : Artifacts) (manifest source : Path) :
    (∃ asset ∈ artifacts.assets, files.isFile (source.join asset.source) = false ∧
        deliver files artifacts manifest source =
          ⟨[], some (.missing (source.join asset.source)), files⟩) ∨
      (∀ asset ∈ artifacts.assets, files.isFile (source.join asset.source) = true) ∧
        (deliver files artifacts manifest source).error = (FileStep.performAll files
          (artifacts.fillingSteps manifest source ++ artifacts.closingSteps manifest)).error ∧
        (deliver files artifacts manifest source).files = (FileStep.performAll files
          (artifacts.fillingSteps manifest source ++ artifacts.closingSteps manifest)).files := by
  have looked := @performAll_checkStep artifacts source files
  rw [deliver, steps_eq]
  cases lookUp : artifacts.assets.find? fun asset => !files.isFile (source.join asset.source) with
  | some asset =>
      rw [lookUp] at looked
      refine .inl ⟨asset, List.mem_of_find?_eq_some lookUp, ?_, ?_⟩
      · simpa using List.find?_some lookUp
      · rw [FileStep.performAll_append_of_error _ (congrArg Delivery.error looked), looked]
        rfl
  | none =>
      rw [lookUp] at looked
      refine .inr ⟨fun asset member => by simpa using List.find?_eq_none.mp lookUp asset member, ?_⟩
      have goesOn := FileStep.performAll_append_of_none
        (artifacts.fillingSteps manifest source ++ artifacts.closingSteps manifest)
        (congrArg Delivery.error looked)
      rwa [looked] at goesOn

/-- Writing fails at a path, and leaves behind what the steps before the manifest have changed. -/
theorem failed_of_writingSteps {files : FileSystem} {error : StepError}
    (found : ∀ asset ∈ artifacts.assets, files.isFile (source.join asset.source) = true)
    (failed : (FileStep.performAll files (artifacts.fillingSteps manifest source ++
      artifacts.closingSteps manifest)).error = some error) :
    (∃ path cause, error = .failed path cause) ∧
      artifacts.LeftBehind manifest source files (FileStep.performAll files
        (artifacts.fillingSteps manifest source ++ artifacts.closingSteps manifest)).files := by
  have left : artifacts.LeftBehind manifest source files
      (FileStep.performAll files (artifacts.fillingSteps manifest source)).files :=
    leftBehind_fillingSteps found
  cases filled : (FileStep.performAll files (artifacts.fillingSteps manifest source)).error with
  | some failure =>
      rw [FileStep.performAll_append_of_error _ filled] at failed ⊢
      exact ⟨FileStep.exists_failed_of_performAll require_notMem_fillingSteps failed, left⟩
  | none =>
      rcases FileStep.performAll_append_of_none (artifacts.closingSteps manifest) filled with
        ⟨closingError, closingFiles⟩
      rw [closingError] at failed
      rw [closingFiles]
      rcases failed_of_closingSteps failed with ⟨⟨cause, rfl⟩, unchanged⟩
      rw [unchanged]
      exact ⟨⟨manifest, cause, rfl⟩, left⟩

/-- Every delivery that fails fails in one of these ways. -/
theorem failsWith_deliver {files : FileSystem} {error : StepError}
    (failed : (deliver files artifacts manifest source).error = some error) :
    artifacts.FailsWith manifest source files error
      (deliver files artifacts manifest source).files := by
  rcases deliver_cases files artifacts manifest source with ⟨asset, member, absent, ended⟩ |
    ⟨found, sameError, sameFiles⟩
  · rw [ended] at failed ⊢
    cases failed
    exact .missing member absent
  · rw [sameError] at failed
    rw [sameFiles]
    obtain ⟨⟨path, cause, rfl⟩, left⟩ := failed_of_writingSteps found failed
    exact .failed found left

end Artifacts

/-! ## Runs -/

namespace CommandLine

/-- What a run writes are artifacts at the place that its arguments name. -/
theorem exists_steps_eq_of_course {filter : LogFilter} {options : Options} {inputs : Inputs}
    {errors : String} {steps : List FileStep}
    (writes : course filter options inputs = .writing errors steps) :
    ∃ artifacts : Artifacts, steps = artifacts.steps ⟨options.output⟩ (sourceDirectory options) := by
  rw [course] at writes
  split at writes
  next => cases writes
  next =>
    split at writes
    next => cases writes
    next =>
      rw [compile] at writes
      split at writes
      next => cases writes
      next =>
        split at writes
        next => cases writes
        next =>
          rw [writeModel] at writes
          split at writes
          next => cases writes
          next artifacts _ =>
            cases writes
            exact ⟨artifacts, rfl⟩

theorem exists_error_of_answerOf {filter : LogFilter} {errors : String} {log : List LogEvent}
    {error : Option StepError} (failed : (answerOf filter errors log error).status ≠ 0) :
    ∃ failure, error = some failure := by
  cases error with
  | none => exact absurd rfl failed
  | some failure => exact ⟨failure, rfl⟩

/-- A run that fails changes nothing, unless writing its artifacts fails in an operation on
files. -/
theorem unchanged_or_of_run {arguments : List String} {logVariable : Option String}
    {files : FileSystem} (failed : (run arguments logVariable files).1.status ≠ 0) :
    (run arguments logVariable files).2 = files ∨
      ∃ options artifacts path cause, Options.ofArguments arguments = .ok options ∧
        (Artifacts.deliver files artifacts ⟨options.output⟩ (sourceDirectory options)).error =
          some (.failed path cause) ∧
        (run arguments logVariable files).2 =
          (Artifacts.deliver files artifacts ⟨options.output⟩ (sourceDirectory options)).files := by
  unfold run at failed ⊢
  cases parsed : Options.ofArguments arguments with
  | error refusal => exact .inl rfl
  | ok options =>
      rw [parsed] at failed
      dsimp only at failed ⊢
      generalize reached : course _ options _ = going at failed ⊢
      cases going with
      | finished answer => exact .inl rfl
      | writing errors steps =>
          rcases exists_steps_eq_of_course reached with ⟨artifacts, rfl⟩
          rcases exists_error_of_answerOf failed with ⟨failure, fails⟩
          cases failure with
          | missing path => exact .inl (Artifacts.failsWith_deliver fails).eq_of_missing
          | failed path cause =>
              exact .inr ⟨options, artifacts, path, cause, rfl, fails, rfl⟩

/-- What is left behind when artifacts cannot be written, and when a run fails. -/
theorem leftBehind_of_failure (arguments : List String) (logVariable : Option String)
    (files : FileSystem) :
    (∀ (artifacts : Artifacts) (manifest source : Path) (error : StepError),
      (Artifacts.deliver files artifacts manifest source).error = some error →
        artifacts.FailsWith manifest source files error
          (Artifacts.deliver files artifacts manifest source).files) ∧
      ((run arguments logVariable files).1.status ≠ 0 →
        (run arguments logVariable files).2 = files ∨
          ∃ options artifacts path cause, Options.ofArguments arguments = .ok options ∧
            (Artifacts.deliver files artifacts ⟨options.output⟩ (sourceDirectory options)).error =
              some (.failed path cause) ∧
            (run arguments logVariable files).2 =
              (Artifacts.deliver files artifacts ⟨options.output⟩
                (sourceDirectory options)).files) :=
  ⟨fun _ _ _ _ failed => Artifacts.failsWith_deliver failed, unchanged_or_of_run⟩

/-- A configuration with one package, and a directory in the place of the manifest. -/
def blocked : FileSystem where
  items := .ofList
    [(["fleet.yaml"], .file ("areas: [\x7bid: a, robots: [r]\x7d]\n" ++
        "robots: [\x7bid: r, ros: humble, packages: [p]\x7d]\n" ++
        "packages: [\x7bid: p, path: b, command: c, apt: [g]\x7d]\n").toUTF8),
      (["out"], .directory), (["out", "docker-compose.yml"], .directory)]
  workingDirectory := []

/-- Artifacts with one Dockerfile. -/
def carrierArtifacts : Artifacts where
  manifest := "services: \x7b\x7d\n"
  dockerfiles := [⟨"carrier-driver", "./builds/carrier-driver/Dockerfile", "FROM ros:humble\n"⟩]
  assets := []

/-- The manifest is the last file that is written, and that fails. -/
theorem blocked_leftBehind :
    (Artifacts.deliver blocked carrierArtifacts ⟨"out/docker-compose.yml"⟩ ⟨"src"⟩).error =
        some (.failed ⟨"out/docker-compose.yml"⟩ .isDirectory) ∧
      (run ["fleet.yaml", "out/docker-compose.yml"] none blocked).1.status = 1 ∧
      carrierArtifacts.FailsWith ⟨"out/docker-compose.yml"⟩ ⟨"src"⟩ blocked
        (.failed ⟨"out/docker-compose.yml"⟩ .isDirectory)
        (Artifacts.deliver blocked carrierArtifacts ⟨"out/docker-compose.yml"⟩ ⟨"src"⟩).files ∧
      ((run ["fleet.yaml", "out/docker-compose.yml"] none blocked).2 = blocked ∨
        ∃ options artifacts path cause,
          Options.ofArguments ["fleet.yaml", "out/docker-compose.yml"] = .ok options ∧
          (Artifacts.deliver blocked artifacts ⟨options.output⟩ (sourceDirectory options)).error =
            some (.failed path cause) ∧
          (run ["fleet.yaml", "out/docker-compose.yml"] none blocked).2 =
            (Artifacts.deliver blocked artifacts ⟨options.output⟩
              (sourceDirectory options)).files) := by
  have fails :
      (Artifacts.deliver blocked carrierArtifacts ⟨"out/docker-compose.yml"⟩ ⟨"src"⟩).error =
        some (.failed ⟨"out/docker-compose.yml"⟩ .isDirectory) := by
    decide +kernel
  have status : (run ["fleet.yaml", "out/docker-compose.yml"] none blocked).1.status = 1 := by
    decide +kernel
  rcases leftBehind_of_failure ["fleet.yaml", "out/docker-compose.yml"] none blocked with
    ⟨delivery, ofRun⟩
  refine ⟨fails, status, delivery _ _ _ _ fails, ofRun ?_⟩
  rw [status]
  decide

/-- Not every failure leaves the files as they are: the Dockerfile stays. -/
theorem not_forall_unchanged :
    ¬∀ (files : FileSystem) (artifacts : Artifacts) (manifest source : Path),
      (Artifacts.deliver files artifacts manifest source).error ≠ none →
        (Artifacts.deliver files artifacts manifest source).files = files := by
  intro always
  have changed :
      (Artifacts.deliver blocked carrierArtifacts ⟨"out/docker-compose.yml"⟩ ⟨"src"⟩).error ≠ none ∧
        (Artifacts.deliver blocked carrierArtifacts ⟨"out/docker-compose.yml"⟩ ⟨"src"⟩).files ≠
          blocked := by
    decide +kernel
  exact changed.2 (always _ _ _ _ changed.1)

end CommandLine

end FleetCompose
