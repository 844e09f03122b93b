import FleetCompose.Compile
import FleetCompose.Proofs.FailedDelivery

/-!
# What a completed delivery leaves behind

Artifacts are written one after the other, each at the place to which its path leads. When all of
them are written, the manifest is in place. A Dockerfile or a copied host file is in place too,
unless an artifact that is written later goes to the same file; and a copy has what its source held
at first, unless the source is itself a file that was written before, or the one that the copy goes
to. In the last case the host file is emptied.
-/

namespace FleetCompose

/-! ## One step among others -/

namespace FileStep

variable {files before after : FileSystem} {earlier later steps : List FileStep} {step : FileStep}

/-- Steps that are all done pass through the files that every one of them finds. -/
theorem performAll_append_cons (done : (performAll files (earlier ++ step :: later)).error = none) :
    ∃ found next, found = (performAll files earlier).files ∧
      (step.perform found).error = none ∧ next = (step.perform found).files ∧
      (performAll files (earlier ++ step :: later)).files = (performAll next later).files := by
  cases first : (performAll files earlier).error with
  | some error =>
      rw [performAll_append_of_error _ first, first] at done
      cases done
  | none =>
      obtain ⟨sameError, sameFiles⟩ := performAll_append_of_none (step :: later) first
      rw [sameError] at done
      refine ⟨_, _, rfl, ?_, rfl, ?_⟩
      · cases this : (step.perform (performAll files earlier).files).error with
        | none => rfl
        | some error =>
            rw [performAll_cons_of_error _ this, this] at done
            cases done
      · rw [sameFiles]
        cases this : (step.perform (performAll files earlier).files).error with
        | none => rw [performAll_cons_of_none _ this]
        | some error =>
            rw [performAll_cons_of_error _ this, this] at done
            cases done

/-- What the steps copy is there before them. -/
def Sourced (files : FileSystem) (steps : List FileStep) : Prop :=
  ∀ source target, .copy source target ∈ steps → files.isFile source = true

theorem Sourced.subset (sourced : Sourced files steps) (subset : later ⊆ steps) :
    Sourced files later :=
  fun source target member => sourced source target (subset member)

namespace Progress

/-- A file stays a file. -/
theorem isFile (progress : Progress steps before after) {path : Path}
    (wasFile : before.isFile path = true) : after.isFile path = true := by
  obtain ⟨content, reads⟩ := FileSystem.isFile_eq_true_iff.mp wasFile
  obtain ⟨location, located, found, slash⟩ := FileSystem.read_eq_ok_iff.mp reads
  have place := progress.toExtendedBy.locate located
  rw [FileSystem.isFile_eq_true_iff]
  rcases progress.changed location with same | ⟨absent, -⟩ | ⟨_, -, text, -, new⟩
  · exact ⟨content, FileSystem.read_eq_ok_iff.mpr ⟨location, place, same.trans found, slash⟩⟩
  · rw [absent] at found
    cases found
  · exact ⟨text, FileSystem.read_eq_ok_iff.mpr ⟨location, place, new, slash⟩⟩

/-- What is written stays, unless a later step writes the same file. -/
theorem read_of_writtenAt (progress : Progress later before after) {found : FileSystem}
    {location : Location} {content : ByteArray}
    (written : found.WrittenAt location content before) {path : Path}
    (located : found.locate path = .ok location) (slash : path.endsWithSlash = false) :
    after.read path = .ok content ∨ Overwritten later after path := by
  have place := progress.toExtendedBy.locate (written.extendedBy.locate located)
  rcases progress.changed location with same | ⟨absent, -⟩ | ⟨step, member, _, wrote, -⟩
  · exact .inl (FileSystem.read_eq_ok_iff.mpr ⟨location, place, same.trans written.new, slash⟩)
  · rw [written.new] at absent
    cases absent
  · obtain ⟨target, isTarget, targetLocated⟩ := wrote.exists_target
    exact .inr ⟨step, member, target, isTarget, location, targetLocated, place⟩

end Progress

/-- The steps in front of one of them, and those behind it, each make progress. -/
theorem progress_of_append_cons (sourced : Sourced files (earlier ++ step :: later)) :
    Progress earlier files (performAll files earlier).files ∧
      Progress later (step.perform (performAll files earlier).files).files
        (performAll (step.perform (performAll files earlier).files).files later).files := by
  have front := progress_performAll files (sourced.subset (List.subset_append_left _ _))
  have upTo : Progress (earlier ++ [step]) files
      (step.perform (performAll files earlier).files).files := by
    refine (front.mono (List.subset_append_left _ _)).perform (by simp) ?_
    rintro source target rfl
    exact sourced source target (by simp)
  refine ⟨front, progress_performAll _ fun source target member => upTo.isFile ?_⟩
  exact sourced source target (by simp [member])

/-- A written file holds its text, unless a later step writes the same file. -/
theorem read_of_write {path : Path} {text : String}
    (done : (performAll files (earlier ++ .write path text :: later)).error = none)
    (sourced : Sourced files (earlier ++ .write path text :: later)) :
    (performAll files (earlier ++ .write path text :: later)).files.read path =
        .ok text.toUTF8 ∨
      Overwritten later (performAll files (earlier ++ .write path text :: later)).files path := by
  obtain ⟨found, next, rfl, succeeds, rfl, same⟩ := performAll_append_cons done
  have behind := (progress_of_append_cons sourced).2
  rw [same]
  revert behind
  rw [perform, delivery] at succeeds ⊢
  cases writes : (performAll files earlier).files.write path text.toUTF8 with
  | error failure =>
      rw [writes] at succeeds
      cases succeeds
  | ok written =>
      intro behind
      obtain ⟨location, located, slash, free, rfl⟩ := FileSystem.write_eq_ok_iff.mp writes
      exact behind.read_of_writtenAt (FileSystem.writtenAt_put free text.toUTF8) located slash

/-- A copy among steps that are all done succeeds on the files that it finds. -/
theorem exists_copied {source target : Path}
    (done : (performAll files (earlier ++ .copy source target :: later)).error = none)
    (sourced : Sourced files (earlier ++ .copy source target :: later)) :
    ∃ found next location content, Progress earlier files found ∧
      found.Copied source target location content next ∧
      Progress later next
        (performAll files (earlier ++ .copy source target :: later)).files := by
  obtain ⟨found, next, rfl, succeeds, rfl, same⟩ := performAll_append_cons done
  obtain ⟨front, behind⟩ := progress_of_append_cons sourced
  rw [same]
  revert behind
  rw [perform, delivery] at succeeds ⊢
  rcases (performAll files earlier).files.copy_cases source target with ⟨failure, fails⟩ |
    ⟨location, content, next, copies, copied⟩
  · rw [fails] at succeeds
    cases succeeds
  · intro behind
    rw [copies] at behind ⊢
    exact ⟨_, next, location, content, front, copied, behind⟩

/-- A copy holds what its source held at first, unless a later step writes the same file, or the
source was written before it was copied, or by copying it. -/
theorem read_of_copy {source target : Path}
    (done : (performAll files (earlier ++ .copy source target :: later)).error = none)
    (sourced : Sourced files (earlier ++ .copy source target :: later)) :
    (∃ content, files.read source = .ok content ∧
        (performAll files (earlier ++ .copy source target :: later)).files.read target =
          .ok content) ∨
      Overwritten later (performAll files (earlier ++ .copy source target :: later)).files target ∨
      Overwritten (earlier ++ [.copy source target])
        (performAll files (earlier ++ .copy source target :: later)).files source := by
  obtain ⟨found, next, location, content, front, copied, behind⟩ := exists_copied done sourced
  have wasFile := sourced source target (by simp)
  have onward := copied.written.extendedBy.trans behind.toExtendedBy
  rcases copied.origin with ⟨same, -⟩ | ⟨-, reads⟩
  · exact .inr (.inr ⟨_, List.mem_append_right _ List.mem_cons_self, target, rfl, location,
      onward.locate copied.located, onward.locate same⟩)
  · rcases front.read wasFile reads with first | overwritten
    · rcases behind.read_of_writtenAt copied.written copied.located copied.slash with holds |
        overwritten
      · exact .inl ⟨content, first, holds⟩
      · exact .inr (.inl overwritten)
    · exact .inr (.inr (overwritten.mono (List.subset_append_left _ _) onward))

/-- A file that is copied to itself is empty, unless a later step writes it. -/
theorem read_of_copy_same {source target : Path} {location : Location}
    (done : (performAll files (earlier ++ .copy source target :: later)).error = none)
    (sourced : Sourced files (earlier ++ .copy source target :: later))
    (sourceLocated : (performAll files (earlier ++ .copy source target :: later)).files.locate
      source = .ok location)
    (targetLocated : (performAll files (earlier ++ .copy source target :: later)).files.locate
      target = .ok location) :
    (performAll files (earlier ++ .copy source target :: later)).files.read target =
        .ok ByteArray.empty ∨
      Overwritten later (performAll files (earlier ++ .copy source target :: later)).files
        target := by
  obtain ⟨found, next, place, content, front, copied, behind⟩ := exists_copied done sourced
  have onward := copied.written.extendedBy.trans behind.toExtendedBy
  obtain ⟨first, reads⟩ := FileSystem.isFile_eq_true_iff.mp (sourced source target (by simp))
  obtain ⟨origin, sourcePlace, -, -⟩ := FileSystem.read_eq_ok_iff.mp reads
  have sourceFound := front.toExtendedBy.locate sourcePlace
  cases sourceLocated.symm.trans (onward.locate sourceFound)
  cases targetLocated.symm.trans (onward.locate copied.located)
  obtain ⟨-, rfl⟩ := copied.origin.resolve_right fun other => other.1 sourceFound
  exact behind.read_of_writtenAt copied.written copied.located copied.slash

end FileStep

/-! ## Deliveries -/

/-- One of the paths leads to the same file. -/
def Path.SharesFile (files : FileSystem) (others : List Path) (path : Path) : Prop :=
  ∃ other ∈ others, ∃ location, files.locate other = .ok location ∧
    files.locate path = .ok location

/-- Following the paths tells. -/
theorem Path.sharesFile_iff {files : FileSystem} {others : List Path} {path : Path} :
    path.SharesFile files others ↔ ∃ other ∈ others, (files.locate path).toOption.isSome ∧
      (files.locate other).toOption = (files.locate path).toOption := by
  refine exists_congr fun other => and_congr_right fun _ => ?_
  cases files.locate path <;> cases files.locate other <;> simp [Except.toOption, eq_comm]

instance (files : FileSystem) (others : List Path) (path : Path) :
    Decidable (path.SharesFile files others) :=
  decidable_of_iff _ Path.sharesFile_iff.symm

theorem FileStep.Overwritten.sharesFile {steps : List FileStep} {after : FileSystem} {path : Path}
    (overwritten : Overwritten steps after path) :
    path.SharesFile after (steps.filterMap target?) := by
  obtain ⟨step, member, target, isTarget, location, located, same⟩ := overwritten
  exact ⟨target, List.mem_filterMap.mpr ⟨step, member, isTarget⟩, location, located, same⟩

namespace Artifacts

/-- The place of a Dockerfile. -/
def dockerfilePath (manifest : Path) (dockerfile : Dockerfile) : Path :=
  manifest.directory.join dockerfile.path

/-- The place of a copied host file. -/
def assetPath (manifest : Path) (asset : Asset) : Path := manifest.directory.join asset.target

/-- All paths to which artifacts are written, in order. -/
def paths (artifacts : Artifacts) (manifest : Path) : List Path :=
  artifacts.dockerfiles.map (dockerfilePath manifest) ++
    artifacts.assets.map (assetPath manifest) ++ [manifest]

/-- What is in place behind a delivery, artifact by artifact, and what stands in the way of it. -/
structure Delivered (artifacts : Artifacts) (manifest source : Path) (before after : FileSystem) :
    Prop extends FileSystem.ExtendedBy before after where
  manifest_read : after.read manifest = .ok artifacts.manifest.toUTF8
  dockerfile_read : ∀ earlier dockerfile later,
    artifacts.dockerfiles = earlier ++ dockerfile :: later →
      after.read (dockerfilePath manifest dockerfile) = .ok dockerfile.content.toUTF8 ∨
      (dockerfilePath manifest dockerfile).SharesFile after
        (later.map (dockerfilePath manifest) ++ artifacts.assets.map (assetPath manifest) ++
          [manifest])
  asset_read : ∀ earlier asset later, artifacts.assets = earlier ++ asset :: later →
    (∃ content, before.read (source.join asset.source) = .ok content ∧
      after.read (assetPath manifest asset) = .ok content) ∨
    (assetPath manifest asset).SharesFile after (later.map (assetPath manifest) ++ [manifest]) ∨
    (source.join asset.source).SharesFile after
      (artifacts.dockerfiles.map (dockerfilePath manifest) ++
        earlier.map (assetPath manifest) ++ [assetPath manifest asset])
  asset_emptied : ∀ earlier asset later, artifacts.assets = earlier ++ asset :: later →
    (source.join asset.source).SharesFile after [assetPath manifest asset] →
      after.read (assetPath manifest asset) = .ok ByteArray.empty ∨
      (assetPath manifest asset).SharesFile after (later.map (assetPath manifest) ++ [manifest])
  elsewhere : ∀ location, after.get? location = before.get? location ∨
    (before.get? location = none ∧ after.get? location = some .directory) ∨
    ∃ path ∈ artifacts.paths manifest, after.locate path = .ok location

variable {artifacts : Artifacts} {manifest source : Path} {files : FileSystem}

theorem filterMap_target?_makeParent (path : Path) :
    (FileStep.makeParent path).filterMap FileStep.target? = [] := by
  rw [List.filterMap_eq_nil_iff]
  intro step member
  obtain ⟨parent, rfl⟩ := exists_makeAll_of_mem_makeParent member
  rfl

theorem filterMap_target?_dockerfileSteps (dockerfiles : List Dockerfile) :
    (dockerfiles.flatMap (dockerfileSteps manifest)).filterMap FileStep.target? =
      dockerfiles.map (dockerfilePath manifest) := by
  rw [List.filterMap_flatMap, List.map_eq_flatMap]
  apply List.flatMap_congr
  intro dockerfile _
  rw [dockerfileSteps, List.filterMap_append, filterMap_target?_makeParent]
  rfl

theorem filterMap_target?_assetSteps (assets : List Asset) :
    (assets.flatMap (assetSteps manifest source)).filterMap FileStep.target? =
      assets.map (assetPath manifest) := by
  rw [List.filterMap_flatMap, List.map_eq_flatMap]
  apply List.flatMap_congr
  intro asset _
  rw [assetSteps, List.filterMap_append, filterMap_target?_makeParent]
  rfl

theorem filterMap_target?_manifestSteps :
    (artifacts.manifestSteps manifest).filterMap FileStep.target? = [manifest] := by
  rw [manifestSteps, List.filterMap_append, filterMap_target?_makeParent]
  rfl

theorem filterMap_target?_checkSteps (assets : List Asset) :
    (assets.map (checkStep source)).filterMap FileStep.target? = [] := by
  rw [List.filterMap_map, List.filterMap_eq_nil_iff]
  intro asset _
  rfl

theorem filterMap_target?_steps :
    (artifacts.steps manifest source).filterMap FileStep.target? = artifacts.paths manifest := by
  simp only [steps, List.filterMap_append, filterMap_target?_checkSteps,
    filterMap_target?_dockerfileSteps, filterMap_target?_assetSteps,
    filterMap_target?_manifestSteps, paths, List.nil_append]

/-- A delivery that is completed has found all host files. -/
theorem isFile_of_deliver (done : (deliver files artifacts manifest source).error = none)
    {asset : Asset} (member : asset ∈ artifacts.assets) :
    files.isFile (source.join asset.source) = true := by
  rcases deliver_cases files artifacts manifest source with ⟨absent, -, -, ended⟩ | ⟨found, -⟩
  · rw [ended] at done
    cases done
  · exact found asset member

/-- Only host files are copied. -/
theorem sourced_steps (done : (deliver files artifacts manifest source).error = none) :
    FileStep.Sourced files (artifacts.steps manifest source) := by
  intro origin target member
  rw [steps_eq, List.mem_append, List.mem_append] at member
  rcases member with isCheck | isFilling | isClosing
  · obtain ⟨asset, -, equal⟩ := List.mem_map.mp isCheck
    cases equal
  · rcases mem_fillingSteps_cases isFilling with ⟨path, equal⟩ | ⟨event, equal⟩ |
      ⟨dockerfile, -, equal⟩ | ⟨asset, assetMember, equal⟩
    · cases equal
    · cases equal
    · cases equal
    · cases equal
      exact isFile_of_deliver done assetMember
  · simp [closingSteps] at isClosing

/-! ## The steps around one artifact -/

theorem steps_eq_of_dockerfiles {earlier later : List Dockerfile} {dockerfile : Dockerfile}
    (split : artifacts.dockerfiles = earlier ++ dockerfile :: later) :
    artifacts.steps manifest source =
      (artifacts.assets.map (checkStep source) ++ earlier.flatMap (dockerfileSteps manifest) ++
        FileStep.makeParent (dockerfilePath manifest dockerfile)) ++
      .write (dockerfilePath manifest dockerfile) dockerfile.content ::
      (.report (dockerfileEvent (dockerfilePath manifest dockerfile)) ::
        (later.flatMap (dockerfileSteps manifest) ++
          artifacts.assets.flatMap (assetSteps manifest source) ++
            artifacts.manifestSteps manifest)) := by
  rw [steps, split, List.flatMap_append, List.flatMap_cons, dockerfileSteps]
  simp only [List.append_assoc, List.cons_append, List.nil_append, dockerfilePath]

theorem steps_eq_of_assets {earlier later : List Asset} {asset : Asset}
    (split : artifacts.assets = earlier ++ asset :: later) :
    artifacts.steps manifest source =
      (artifacts.assets.map (checkStep source) ++
        artifacts.dockerfiles.flatMap (dockerfileSteps manifest) ++
          earlier.flatMap (assetSteps manifest source) ++
            FileStep.makeParent (assetPath manifest asset)) ++
      .copy (source.join asset.source) (assetPath manifest asset) ::
      (later.flatMap (assetSteps manifest source) ++ artifacts.manifestSteps manifest) := by
  have assets : artifacts.assets.flatMap (assetSteps manifest source) =
      earlier.flatMap (assetSteps manifest source) ++
        (FileStep.makeParent (assetPath manifest asset) ++
          .copy (source.join asset.source) (assetPath manifest asset) ::
            later.flatMap (assetSteps manifest source)) := by
    rw [split, List.flatMap_append, List.flatMap_cons, assetSteps]
    simp only [List.append_assoc, List.cons_append, List.nil_append, assetPath]
  rw [steps, assets]
  simp only [List.append_assoc, List.cons_append]

theorem steps_eq_of_manifest :
    artifacts.steps manifest source =
      (artifacts.assets.map (checkStep source) ++
        artifacts.dockerfiles.flatMap (dockerfileSteps manifest) ++
          artifacts.assets.flatMap (assetSteps manifest source) ++ FileStep.makeParent manifest) ++
      .write manifest artifacts.manifest :: [.report (artifacts.writtenEvent manifest)] := by
  simp only [steps, manifestSteps, List.append_assoc]

/-- What is written behind a copied host file is a later one, or the manifest. -/
theorem sharesFile_of_overwritten {later : List Asset} {after : FileSystem} {path : Path}
    (overwritten : FileStep.Overwritten (later.flatMap (assetSteps manifest source) ++
      artifacts.manifestSteps manifest) after path) :
    path.SharesFile after (later.map (assetPath manifest) ++ [manifest]) := by
  have shares := overwritten.sharesFile
  rwa [List.filterMap_append, filterMap_target?_assetSteps, filterMap_target?_manifestSteps]
    at shares

/-- What every completed delivery leaves behind. -/
theorem delivered_deliver (done : (deliver files artifacts manifest source).error = none) :
    artifacts.Delivered manifest source files (deliver files artifacts manifest source).files where
  toExtendedBy := (FileStep.progress_performAll files (sourced_steps done)).toExtendedBy
  manifest_read := by
    have sourced := sourced_steps done
    rw [deliver] at done ⊢
    rw [steps_eq_of_manifest] at done sourced ⊢
    rcases FileStep.read_of_write done sourced with holds | overwritten
    · exact holds
    · obtain ⟨other, member, -⟩ := overwritten.sharesFile
      simp [FileStep.target?] at member
  dockerfile_read := by
    intro earlier dockerfile later split
    have sourced := sourced_steps done
    rw [deliver] at done ⊢
    rw [steps_eq_of_dockerfiles split] at done sourced ⊢
    refine (FileStep.read_of_write done sourced).imp_right fun overwritten => ?_
    have shares := overwritten.sharesFile
    rwa [List.filterMap_cons_none rfl, List.filterMap_append, List.filterMap_append,
      filterMap_target?_dockerfileSteps, filterMap_target?_assetSteps,
      filterMap_target?_manifestSteps] at shares
  asset_read := by
    intro earlier asset later split
    have sourced := sourced_steps done
    rw [deliver] at done ⊢
    rw [steps_eq_of_assets split] at done sourced ⊢
    refine (FileStep.read_of_copy done sourced).imp_right
      (Or.imp sharesFile_of_overwritten fun overwritten => ?_)
    have shares := overwritten.sharesFile
    rwa [List.filterMap_append, List.filterMap_append, List.filterMap_append,
      List.filterMap_append, filterMap_target?_checkSteps, filterMap_target?_dockerfileSteps,
      filterMap_target?_assetSteps, filterMap_target?_makeParent, List.nil_append,
      List.append_nil] at shares
  asset_emptied := by
    intro earlier asset later split same
    have sourced := sourced_steps done
    rw [deliver] at done same ⊢
    rw [steps_eq_of_assets split] at done sourced same ⊢
    obtain ⟨target, member, location, targetLocated, sourceLocated⟩ := same
    cases List.mem_singleton.mp member
    exact (FileStep.read_of_copy_same done sourced sourceLocated targetLocated).imp_right
      sharesFile_of_overwritten
  elsewhere := by
    intro location
    have progress := FileStep.progress_performAll files (sourced_steps done)
    refine (progress.changed location).imp_right (Or.imp_right ?_)
    rintro ⟨step, member, content, wrote, -⟩
    obtain ⟨target, isTarget, located⟩ := wrote.exists_target
    refine ⟨target, ?_, located⟩
    have targets : (artifacts.steps manifest source).filterMap FileStep.target? =
        artifacts.paths manifest := filterMap_target?_steps
    rw [← targets]
    exact List.mem_filterMap.mpr ⟨step, member, isTarget⟩

/-! ## Artifacts that are kept apart -/

/-- No artifact goes to the file of another one, or to a host file that is copied. -/
structure Apart (artifacts : Artifacts) (manifest source : Path) (after : FileSystem) : Prop where
  targets : (artifacts.paths manifest).Pairwise fun path other => ¬path.SharesFile after [other]
  sources : ∀ asset ∈ artifacts.assets,
    ¬(source.join asset.source).SharesFile after (artifacts.paths manifest)

/-- Everything is in place: the manifest, the Dockerfiles, and the copied host files with what they
held at first. The host files are as they were, and so is every file to which nothing was written. -/
structure InPlace (artifacts : Artifacts) (manifest source : Path) (before after : FileSystem) :
    Prop where
  manifest_read : after.read manifest = .ok artifacts.manifest.toUTF8
  dockerfile_read : ∀ dockerfile ∈ artifacts.dockerfiles,
    after.read (dockerfilePath manifest dockerfile) = .ok dockerfile.content.toUTF8
  asset_read : ∀ asset ∈ artifacts.assets, ∃ content,
    before.read (source.join asset.source) = .ok content ∧
      after.read (assetPath manifest asset) = .ok content
  source_kept : ∀ asset ∈ artifacts.assets,
    after.read (source.join asset.source) = before.read (source.join asset.source)
  others_kept : ∀ location content, before.get? location = some (.file content) →
    (∀ path ∈ artifacts.paths manifest, after.locate path ≠ .ok location) →
      after.get? location = some (.file content)

theorem not_sharesFile_of_pairwise {after : FileSystem} {earlier later : List Path} {path : Path}
    (apart : (earlier ++ path :: later).Pairwise fun path other => ¬path.SharesFile after [other]) :
    ¬path.SharesFile after later := by
  rintro ⟨other, member, same⟩
  obtain ⟨behind, -⟩ := List.pairwise_cons.mp (List.pairwise_append.mp apart).2.1
  exact behind other member ⟨other, List.mem_singleton_self other, same⟩

theorem Apart.dockerfile {after : FileSystem} (apart : artifacts.Apart manifest source after)
    {earlier later : List Dockerfile} {dockerfile : Dockerfile}
    (split : artifacts.dockerfiles = earlier ++ dockerfile :: later) :
    ¬(dockerfilePath manifest dockerfile).SharesFile after
      (later.map (dockerfilePath manifest) ++ artifacts.assets.map (assetPath manifest) ++
        [manifest]) := by
  have targets := apart.targets
  rw [paths, split, List.map_append, List.map_cons] at targets
  simp only [List.append_assoc, List.cons_append] at targets ⊢
  exact not_sharesFile_of_pairwise targets

theorem Apart.asset {after : FileSystem} (apart : artifacts.Apart manifest source after)
    {earlier later : List Asset} {asset : Asset}
    (split : artifacts.assets = earlier ++ asset :: later) :
    ¬(assetPath manifest asset).SharesFile after (later.map (assetPath manifest) ++ [manifest]) := by
  have targets := apart.targets
  rw [paths, split, List.map_append, List.map_cons, ← List.append_assoc,
    List.append_assoc _ (_ :: _) [manifest], List.cons_append] at targets
  exact not_sharesFile_of_pairwise targets

theorem Apart.hostFile {after : FileSystem} (apart : artifacts.Apart manifest source after)
    {asset : Asset} (member : asset ∈ artifacts.assets) {others : List Path}
    (subset : others ⊆ artifacts.paths manifest) :
    ¬(source.join asset.source).SharesFile after others := by
  rintro ⟨other, found, same⟩
  exact apart.sources asset member ⟨other, subset found, same⟩

/-- Nothing is missing behind a delivery whose artifacts are apart. -/
theorem Delivered.inPlace {before after : FileSystem}
    (delivered : artifacts.Delivered manifest source before after)
    (apart : artifacts.Apart manifest source after) :
    artifacts.InPlace manifest source before after := by
  have copied : ∀ asset ∈ artifacts.assets, ∃ content,
      before.read (source.join asset.source) = .ok content ∧
        after.read (assetPath manifest asset) = .ok content := by
    intro asset member
    obtain ⟨earlier, later, split⟩ := List.append_of_mem member
    rcases delivered.asset_read earlier asset later split with holds | shares | shares
    · exact holds
    · exact absurd shares (apart.asset split)
    · refine absurd shares (apart.hostFile member ?_)
      rw [paths, split]
      intro path
      simp only [List.mem_append, List.map_append, List.map_cons, List.mem_cons, List.not_mem_nil]
      tauto
  refine ⟨delivered.manifest_read, ?_, copied, ?_, ?_⟩
  · intro dockerfile member
    obtain ⟨earlier, later, split⟩ := List.append_of_mem member
    exact (delivered.dockerfile_read earlier dockerfile later split).resolve_right
      (apart.dockerfile split)
  · intro asset member
    obtain ⟨content, reads, -⟩ := copied asset member
    obtain ⟨location, located, found, slash⟩ := FileSystem.read_eq_ok_iff.mp reads
    have place := delivered.toExtendedBy.locate located
    rw [reads]
    rcases delivered.elsewhere location with same | ⟨absent, -⟩ | ⟨path, isPath, leads⟩
    · exact FileSystem.read_eq_ok_iff.mpr ⟨location, place, same.trans found, slash⟩
    · rw [absent] at found
      cases found
    · exact absurd ⟨path, isPath, location, leads, place⟩ (apart.sources asset member)
  · intro location content held untouched
    rcases delivered.elsewhere location with same | ⟨absent, -⟩ | ⟨path, isPath, leads⟩
    · exact same.trans held
    · rw [absent] at held
      cases held
    · exact absurd leads (untouched path isPath)

/-- What a completed delivery leaves behind, whatever files the paths lead to. With artifacts that
are apart, everything is in place. -/
theorem inPlace_of_deliver (files : FileSystem) (artifacts : Artifacts) (manifest source : Path)
    (done : (deliver files artifacts manifest source).error = none) :
    artifacts.Delivered manifest source files (deliver files artifacts manifest source).files ∧
      (artifacts.Apart manifest source (deliver files artifacts manifest source).files →
        artifacts.InPlace manifest source files (deliver files artifacts manifest source).files) :=
  ⟨delivered_deliver done, (delivered_deliver done).inPlace⟩

theorem apart_iff {after : FileSystem} : artifacts.Apart manifest source after ↔
    ((artifacts.paths manifest).Pairwise fun path other => ¬path.SharesFile after [other]) ∧
      ∀ asset ∈ artifacts.assets,
        ¬(source.join asset.source).SharesFile after (artifacts.paths manifest) :=
  ⟨fun apart => ⟨apart.targets, apart.sources⟩, fun ⟨targets, sources⟩ => ⟨targets, sources⟩⟩

instance (after : FileSystem) : Decidable (artifacts.Apart manifest source after) :=
  decidable_of_iff _ apart_iff.symm

end Artifacts

/-! ## Keys that are copied -/

namespace Document

/-- Artifacts of a document of which a view is known. -/
theorem exists_artifacts_of_view {settings : Settings} {doc : Document} {β : Type}
    {view : Artifacts → β} {seen : β}
    (ran : ((doc.toModel settings).outcome.toOption.bind fun model =>
      model.toArtifacts.outcome.toOption.map view) = some seen) :
    ∃ model artifacts, (doc.toModel settings).outcome = .ok model ∧
      model.toArtifacts.outcome = .ok artifacts ∧ view artifacts = seen := by
  cases compiled : (doc.toModel settings).outcome with
  | error failure =>
      rw [compiled] at ran
      cases ran
  | ok model =>
      rw [compiled] at ran
      have renders : model.toArtifacts.outcome.toOption.map view = some seen := ran
      obtain ⟨artifacts, rendered, viewed⟩ := exists_ok_of_map_eq_some renders
      exact ⟨model, artifacts, rfl, rendered, viewed⟩

/-- A package that is cloned with a key, which is in the given directory. -/
def keyed (directories : List String) : Document where
  areas := some [⟨some "yard", some ["carrier"]⟩]
  robots := [⟨some "carrier", some "humble", none, some ["driver"], none, .empty⟩]
  images := []
  packages := [⟨some "driver", some "src/driver", some "drive", none,
    some ["https://lab/driver.git"], none, some ["/".intercalate (directories ++ ["key"])], none,
    .empty⟩]
  globals := []

/-- The key alone. -/
def keyFiles (directories : List String) : FileSystem where
  items := .ofList (directories.inits.tail.map (·, .directory) ++
    [(directories ++ ["key"], .file "secret".toUTF8)])
  workingDirectory := []

/-- The key is copied next to the Dockerfile of the package. -/
theorem keyed_inPlace :
    ∃ model artifacts, ((keyed ["keys"]).toModel .standard).outcome = .ok model ∧
      model.toArtifacts.outcome = .ok artifacts ∧
      (artifacts.dockerfiles.length, artifacts.assets.length) = (1, 1) ∧
      artifacts.InPlace ⟨"docker-compose.yml"⟩ ⟨"."⟩ (keyFiles ["keys"])
        (artifacts.deliver (keyFiles ["keys"]) ⟨"docker-compose.yml"⟩ ⟨"."⟩).files := by
  have ran : (((keyed ["keys"]).toModel .standard).outcome.toOption.bind fun model =>
      model.toArtifacts.outcome.toOption.map fun artifacts =>
        ((artifacts.dockerfiles.length, artifacts.assets.length),
          decide ((artifacts.deliver (keyFiles ["keys"]) ⟨"docker-compose.yml"⟩ ⟨"."⟩).error =
            none ∧
            artifacts.Apart ⟨"docker-compose.yml"⟩ ⟨"."⟩
              (artifacts.deliver (keyFiles ["keys"]) ⟨"docker-compose.yml"⟩ ⟨"."⟩).files))) =
        some ((1, 1), true) := by
    decide +kernel
  obtain ⟨model, artifacts, compiled, rendered, viewed⟩ := exists_artifacts_of_view ran
  obtain ⟨sizes, holds⟩ := Prod.mk.inj viewed
  obtain ⟨done, apart⟩ := of_decide_eq_true holds
  exact ⟨model, artifacts, compiled, rendered, sizes,
    (Artifacts.inPlace_of_deliver _ _ _ _ done).2 apart⟩

/-- Not everything is in place behind every completed delivery: a key that is already where it is
copied to is emptied. -/
theorem not_forall_inPlace :
    ¬∀ (settings : Settings) (doc : Document) (model : Model) (artifacts : Artifacts)
        (files : FileSystem) (manifest source : Path),
      (doc.toModel settings).outcome = .ok model → model.toArtifacts.outcome = .ok artifacts →
        (artifacts.deliver files manifest source).error = none →
          artifacts.InPlace manifest source files
            (artifacts.deliver files manifest source).files := by
  intro always
  let directories := ["src", "driver", "carrier-driver", "ssh"]
  let before := keyFiles directories
  let content (files : FileSystem) (asset : Asset) : Option (Array UInt8) :=
    (files.read (Path.join ⟨"."⟩ asset.source)).toOption.map (·.data)
  have ran : (((keyed directories).toModel .standard).outcome.toOption.bind fun model =>
      model.toArtifacts.outcome.toOption.map fun artifacts =>
        decide ((artifacts.deliver before ⟨"docker-compose.yml"⟩ ⟨"."⟩).error = none ∧
          ∃ asset ∈ artifacts.assets, content before asset ≠ content
            (artifacts.deliver before ⟨"docker-compose.yml"⟩ ⟨"."⟩).files asset)) = some true := by
    decide +kernel
  obtain ⟨model, artifacts, compiled, rendered, viewed⟩ := exists_artifacts_of_view ran
  obtain ⟨done, asset, member, differs⟩ := of_decide_eq_true viewed
  have inPlace := always _ _ _ _ _ _ _ compiled rendered done
  apply differs
  simp only [content, inPlace.source_kept asset member]

end Document

end FleetCompose
