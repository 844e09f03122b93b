import FleetCompose.Files.Step
import FleetCompose.Proofs.Checks

/-!
# What steps on files leave behind

Nothing that steps do takes a directory away, so a path that was followed to a location is
followed there ever after. What changes at a location is that a directory is made where nothing
was, or that a file is written. This tells the files behind a list of steps, location by location,
also when a failure ended the list.
-/

namespace FleetCompose

namespace FileSystem

variable {before after later : FileSystem}

/-! ## Directories stay -/

/-- Directories stay, and relative paths start where they did. -/
structure ExtendedBy (before after : FileSystem) : Prop where
  workingDirectory_eq : after.workingDirectory = before.workingDirectory
  directory : ∀ location, before.get? location = some .directory →
    after.get? location = some .directory

theorem ExtendedBy.refl (files : FileSystem) : files.ExtendedBy files :=
  ⟨rfl, fun _ member => member⟩

theorem ExtendedBy.trans (first : before.ExtendedBy after) (second : after.ExtendedBy later) :
    before.ExtendedBy later where
  workingDirectory_eq := second.workingDirectory_eq.trans first.workingDirectory_eq
  directory := fun location found => second.directory location (first.directory location found)

/-- One segment is followed only from a directory. -/
theorem ExtendedBy.step (extended : before.ExtendedBy after) {location next : Location}
    {segment : String} (stepped : before.step location segment = .ok next) :
    after.step location segment = .ok next := by
  cases found : before.get? location with
  | none => simp [FileSystem.step, found] at stepped
  | some item =>
      cases item with
      | file content => simp [FileSystem.step, found] at stepped
      | directory =>
          simp only [FileSystem.step, found] at stepped
          simp only [FileSystem.step, extended.directory location found]
          exact stepped

theorem ExtendedBy.follow (extended : before.ExtendedBy after) {location target : Location}
    {segments : List String} (followed : before.follow location segments = .ok target) :
    after.follow location segments = .ok target := by
  induction segments generalizing location with
  | nil => exact followed
  | cons segment rest ih =>
      rw [FileSystem.follow] at followed ⊢
      by_cases empty : segment = ""
      · rw [if_pos empty] at followed ⊢
        exact ih followed
      · rw [if_neg empty] at followed ⊢
        cases stepped : before.step location segment with
        | error failure => simp [stepped] at followed
        | ok next =>
            rw [stepped] at followed
            rw [extended.step stepped]
            exact ih followed

/-- A path keeps its location. -/
theorem ExtendedBy.locate (extended : before.ExtendedBy after) {path : Path}
    {location : Location} (located : before.locate path = .ok location) :
    after.locate path = .ok location := by
  rw [FileSystem.locate] at located ⊢
  have origin : after.origin path = before.origin path := by
    rw [FileSystem.origin, FileSystem.origin, extended.workingDirectory_eq]
  cases empty : path.isEmpty with
  | true => simp [empty] at located
  | false =>
      rw [empty] at located
      rw [origin]
      exact extended.follow located

/-! ## Operations -/

variable {files : FileSystem} {path : Path}

theorem read_eq_ok_iff {content : ByteArray} :
    files.read path = .ok content ↔
      ∃ location, files.locate path = .ok location ∧
        files.get? location = some (.file content) ∧ path.endsWithSlash = false := by
  rw [read, find]
  cases located : files.locate path with
  | error failure => simp
  | ok location =>
      cases found : files.get? location with
      | none => simp [found]
      | some item =>
          cases item with
          | directory => simp [found]
          | file other => cases slash : path.endsWithSlash <;> simp [found]

theorem isFile_eq_true_iff : files.isFile path = true ↔ ∃ content, files.read path = .ok content := by
  rw [isFile, read]
  cases files.find path with
  | error failure => simp
  | ok item => cases item <;> simp

theorem write_eq_ok_iff {content : ByteArray} :
    files.write path content = .ok after ↔
      ∃ location, files.locate path = .ok location ∧ path.endsWithSlash = false ∧
        files.get? location ≠ some .directory ∧ after = files.put location (.file content) := by
  rw [write]
  cases located : files.locate path with
  | error failure => simp
  | ok location =>
      by_cases directory : files.get? location = some .directory
      · simp [directory]
      · cases slash : path.endsWithSlash <;> simp [directory, eq_comm (a := after)]

/-- Writing a file at a location where a file can be. -/
structure WrittenAt (before : FileSystem) (location : Location) (content : ByteArray)
    (after : FileSystem) : Prop where
  free : before.get? location ≠ some .directory
  workingDirectory_eq : after.workingDirectory = before.workingDirectory
  new : after.get? location = some (.file content)
  same : ∀ other, other ≠ location → after.get? other = before.get? other

theorem writtenAt_put {location : Location} (free : files.get? location ≠ some .directory)
    (content : ByteArray) : files.WrittenAt location content (files.put location (.file content))
    where
  free
  workingDirectory_eq := rfl
  new := by
    have apart : location ≠ [] := by
      rintro rfl
      exact free rfl
    rw [get?_put, if_pos ⟨apart, rfl⟩]
  same := by
    intro other apart
    rw [get?_put, if_neg fun given => apart given.2]

namespace WrittenAt

variable {location : Location} {content : ByteArray}

theorem extendedBy (written : before.WrittenAt location content after) :
    before.ExtendedBy after where
  workingDirectory_eq := written.workingDirectory_eq
  directory := by
    intro other found
    by_cases here : other = location
    · exact absurd (here ▸ found) written.free
    · rw [written.same other here, found]

/-- A file can be written over. -/
theorem trans {text : ByteArray} (first : before.WrittenAt location content after)
    (second : after.WrittenAt location text later) : before.WrittenAt location text later where
  free := first.free
  workingDirectory_eq := second.workingDirectory_eq.trans first.workingDirectory_eq
  new := second.new
  same := fun other apart => (second.same other apart).trans (first.same other apart)

end WrittenAt

/-- What a copy does that succeeds: it writes the content of its source, which is gone when the
source is the file that it writes. -/
structure Copied (before : FileSystem) (source target : Path) (location : Location)
    (content : ByteArray) (after : FileSystem) : Prop where
  located : before.locate target = .ok location
  slash : target.endsWithSlash = false
  written : before.WrittenAt location content after
  origin : (before.locate source = .ok location ∧ content = ByteArray.empty) ∨
    (before.locate source ≠ .ok location ∧ before.read source = .ok content)

/-- The source of a copy can still be read when the target is emptied: it is empty now, or as it
was. -/
theorem WrittenAt.read_source {location : Location} (emptied : files.WrittenAt location
    ByteArray.empty after) {source : Path} {held : ByteArray}
    (reads : files.read source = .ok held) :
    ∃ content, after.read source = .ok content ∧
      ((files.locate source = .ok location ∧ content = ByteArray.empty) ∨
        (files.locate source ≠ .ok location ∧ files.read source = .ok content)) := by
  obtain ⟨origin, located, found, slash⟩ := read_eq_ok_iff.mp reads
  have still := emptied.extendedBy.locate located
  by_cases here : origin = location
  · subst here
    exact ⟨_, read_eq_ok_iff.mpr ⟨_, still, emptied.new, slash⟩, .inl ⟨located, rfl⟩⟩
  · have kept := (emptied.same origin here).trans found
    refine ⟨held, read_eq_ok_iff.mpr ⟨_, still, kept, slash⟩, .inr ⟨?_, reads⟩⟩
    rw [located]
    exact fun same => here (Except.ok.inj same)

/-- A copy that fails changes nothing. -/
theorem copy_cases (files : FileSystem) (source target : Path) :
    (∃ failure, files.copy source target = (some failure, files)) ∨
      ∃ location content after, files.copy source target = (none, after) ∧
        files.Copied source target location content after := by
  rw [copy]
  cases reads : files.read source with
  | error failure => exact .inl ⟨failure, rfl⟩
  | ok held =>
      cases writes : files.write target ByteArray.empty with
      | error failure => exact .inl ⟨failure, rfl⟩
      | ok emptied =>
          right
          obtain ⟨location, located, slash, free, rfl⟩ := write_eq_ok_iff.mp writes
          have first := writtenAt_put free ByteArray.empty
          obtain ⟨content, readsAgain, origin⟩ := first.read_source reads
          have stillFree : (files.put location (.file ByteArray.empty)).get? location ≠
              some .directory := by
            rw [first.new]
            nofun
          have writesAgain : (files.put location (.file ByteArray.empty)).write target content =
              .ok ((files.put location (.file ByteArray.empty)).put location (.file content)) :=
            write_eq_ok_iff.mpr ⟨_, first.extendedBy.locate located, slash, stillFree, rfl⟩
          refine ⟨location, content, _, ?_, located, slash,
            first.trans (writtenAt_put stillFree content), origin⟩
          simp only [readsAgain, writesAgain, single_ok]

/-- Directories are made where nothing was. -/
structure GainsDirectories (before after : FileSystem) : Prop where
  workingDirectory_eq : after.workingDirectory = before.workingDirectory
  changed : ∀ location, after.get? location = before.get? location ∨
    before.get? location = none ∧ after.get? location = some .directory

namespace GainsDirectories

theorem refl (files : FileSystem) : files.GainsDirectories files :=
  ⟨rfl, fun _ => .inl rfl⟩

theorem extendedBy (gains : before.GainsDirectories after) : before.ExtendedBy after where
  workingDirectory_eq := gains.workingDirectory_eq
  directory := by
    intro location found
    rcases gains.changed location with same | ⟨-, made⟩
    · exact same.trans found
    · exact made

theorem trans (first : before.GainsDirectories after) (second : after.GainsDirectories later) :
    before.GainsDirectories later where
  workingDirectory_eq := second.workingDirectory_eq.trans first.workingDirectory_eq
  changed := by
    intro location
    rcases second.changed location with same | ⟨absent, made⟩
    · rw [same]
      exact first.changed location
    · rcases first.changed location with before | ⟨-, earlier⟩
      · exact .inr ⟨before ▸ absent, made⟩
      · rw [earlier] at absent
        cases absent

end GainsDirectories

theorem gainsDirectories_of_makeDirectory (made : files.makeDirectory path = .ok after) :
    files.GainsDirectories after := by
  rw [makeDirectory] at made
  cases located : files.locate path with
  | error failure => simp [located] at made
  | ok location =>
      cases found : files.get? location with
      | some item => simp [located, found] at made
      | none =>
          simp only [located, found] at made
          cases made
          refine ⟨rfl, fun other => ?_⟩
          rw [get?_put]
          split
          next here => exact .inr ⟨here.2 ▸ found, rfl⟩
          next => exact .inl rfl

theorem gainsDirectories_of_ensureDirectory (ensured : files.ensureDirectory path = .ok after) :
    files.GainsDirectories after := by
  rw [ensureDirectory] at ensured
  cases made : files.makeDirectory path with
  | ok other =>
      rw [made] at ensured
      cases ensured
      exact gainsDirectories_of_makeDirectory made
  | error failure =>
      cases there : files.isDirectory path with
      | false => simp [made, there] at ensured
      | true =>
          simp only [made, there] at ensured
          cases ensured
          exact .refl _

theorem gainsDirectories_single_ensureDirectory (files : FileSystem) (path : Path) :
    files.GainsDirectories (files.single (files.ensureDirectory path)).2 := by
  cases ensured : files.ensureDirectory path with
  | ok after => exact gainsDirectories_of_ensureDirectory ensured
  | error failure => exact .refl files

theorem gainsDirectories_makeDirectories (fuel : Nat) (files : FileSystem) (path : Path) :
    files.GainsDirectories (makeDirectories fuel files path).2 := by
  induction fuel generalizing files path with
  | zero => exact gainsDirectories_single_ensureDirectory files path
  | succ fuel ih =>
      rw [makeDirectories]
      split
      next => exact .refl files
      next =>
        split
        next parent _ _ =>
          have front := ih files parent
          cases parents : makeDirectories fuel files parent with
          | mk error middle =>
              rw [parents] at front
              cases error with
              | some failure => exact front
              | none => exact front.trans (gainsDirectories_single_ensureDirectory middle path)
        next => exact gainsDirectories_single_ensureDirectory files path

end FileSystem

/-! ## Steps -/

namespace FileStep

/-- The path of the file that a step writes. -/
def target? : FileStep → Option Path
  | .write path _ => some path
  | .copy _ target => some target
  | .require _ | .makeAll _ | .report _ => none

/-- The path names a file that one of the steps writes. -/
def Overwritten (steps : List FileStep) (after : FileSystem) (path : Path) : Prop :=
  ∃ step ∈ steps, ∃ target ∈ step.target?, ∃ location,
    after.locate target = .ok location ∧ after.locate path = .ok location

/-- A step has written a content at a location. A copy has the content of its source, which is what
was there before the steps unless one of them writes the source. -/
inductive Wrote (steps : List FileStep) (before after : FileSystem) (location : Location) :
    FileStep → ByteArray → Prop where
  | write {path : Path} {text : String} (located : after.locate path = .ok location) :
      Wrote steps before after location (.write path text) text.toUTF8
  | copy {source target : Path} {content : ByteArray}
      (located : after.locate target = .ok location)
      (copied : before.read source = .ok content ∨ Overwritten steps after source) :
      Wrote steps before after location (.copy source target) content

/-- What steps have changed: directories are new, and files are complete. -/
structure Progress (steps : List FileStep) (before after : FileSystem) : Prop
    extends FileSystem.ExtendedBy before after where
  changed : ∀ location, after.get? location = before.get? location ∨
    (before.get? location = none ∧ after.get? location = some .directory) ∨
    ∃ step ∈ steps, ∃ content, Wrote steps before after location step content ∧
      after.get? location = some (.file content)

variable {steps more : List FileStep} {before current after : FileSystem}

theorem Overwritten.mono {path : Path} (overwritten : Overwritten steps current path)
    (subset : steps ⊆ more) (extended : current.ExtendedBy after) :
    Overwritten more after path := by
  rcases overwritten with ⟨step, member, target, isTarget, location, located, same⟩
  exact ⟨step, subset member, target, isTarget, location, extended.locate located,
    extended.locate same⟩

theorem Wrote.mono {location : Location} {step : FileStep} {content : ByteArray}
    (wrote : Wrote steps before current location step content) (subset : steps ⊆ more)
    (extended : current.ExtendedBy after) : Wrote more before after location step content := by
  cases wrote with
  | write located => exact .write (extended.locate located)
  | copy located copied =>
      refine .copy (extended.locate located) ?_
      rcases copied with same | overwritten
      · exact .inl same
      · exact .inr (overwritten.mono subset extended)

/-- A step that has written at a location writes a file, and its path leads there. -/
theorem Wrote.exists_target {location : Location} {step : FileStep} {content : ByteArray}
    (wrote : Wrote steps before after location step content) :
    ∃ target ∈ step.target?, after.locate target = .ok location := by
  cases wrote with
  | write located => exact ⟨_, rfl, located⟩
  | copy located copied => exact ⟨_, rfl, located⟩

namespace Progress

theorem refl (steps : List FileStep) (files : FileSystem) : Progress steps files files where
  toExtendedBy := .refl files
  changed := fun _ => .inl rfl

theorem mono (progress : Progress steps before after) (subset : steps ⊆ more) :
    Progress more before after where
  toExtendedBy := progress.toExtendedBy
  changed := by
    intro location
    rcases progress.changed location with same | made | ⟨step, member, content, wrote, found⟩
    · exact .inl same
    · exact .inr (.inl made)
    · exact .inr (.inr ⟨step, subset member, content, wrote.mono subset (.refl after), found⟩)

/-- Locations at which nothing more happens. -/
theorem changed_of_same (progress : Progress steps before current)
    (extended : current.ExtendedBy after) {location : Location}
    (same : after.get? location = current.get? location) :
    after.get? location = before.get? location ∨
      (before.get? location = none ∧ after.get? location = some .directory) ∨
      ∃ step ∈ steps, ∃ content, Wrote steps before after location step content ∧
        after.get? location = some (.file content) := by
  rw [same]
  rcases progress.changed location with kept | made | ⟨step, member, content, wrote, found⟩
  · exact .inl kept
  · exact .inr (.inl made)
  · exact .inr (.inr ⟨step, member, content, wrote.mono (List.Subset.refl steps) extended, found⟩)

/-- Nothing is at a location only if nothing was there before. -/
theorem absent (progress : Progress steps before current) {location : Location}
    (empty : current.get? location = none) : before.get? location = none := by
  rcases progress.changed location with same | made | ⟨step, member, content, wrote, found⟩
  · exact same.symm.trans empty
  · exact made.1
  · rw [found] at empty
    cases empty

/-- Directories are made. -/
theorem gains (progress : Progress steps before current)
    (gains : current.GainsDirectories after) : Progress steps before after where
  toExtendedBy := progress.toExtendedBy.trans gains.extendedBy
  changed := by
    intro location
    rcases gains.changed location with same | ⟨empty, made⟩
    · exact progress.changed_of_same gains.extendedBy same
    · exact .inr (.inl ⟨progress.absent empty, made⟩)

/-- A file is written. -/
theorem written (progress : Progress steps before current) {location : Location}
    {content : ByteArray} (written : current.WrittenAt location content after) {step : FileStep}
    (member : step ∈ steps) (wrote : Wrote steps before after location step content) :
    Progress steps before after where
  toExtendedBy := progress.toExtendedBy.trans written.extendedBy
  changed := by
    intro other
    by_cases here : other = location
    · subst here
      exact .inr (.inr ⟨step, member, content, wrote, written.new⟩)
    · exact progress.changed_of_same written.extendedBy (written.same other here)

/-- What is read now was there before, unless a step writes it. -/
theorem read (progress : Progress steps before current) {path : Path} {content : ByteArray}
    (wasFile : before.isFile path = true) (reads : current.read path = .ok content) :
    before.read path = .ok content ∨ Overwritten steps current path := by
  rcases FileSystem.isFile_eq_true_iff.mp wasFile with ⟨earlier, readEarlier⟩
  rcases FileSystem.read_eq_ok_iff.mp readEarlier with ⟨location, located, -, slash⟩
  rcases FileSystem.read_eq_ok_iff.mp reads with ⟨other, otherLocated, found, -⟩
  have kept := progress.toExtendedBy.locate located
  cases kept.symm.trans otherLocated
  rcases progress.changed location with same | made | ⟨step, member, _, wrote, -⟩
  · exact .inl (FileSystem.read_eq_ok_iff.mpr ⟨location, located, same ▸ found, slash⟩)
  · rw [made.2] at found
    cases found
  · rcases wrote.exists_target with ⟨target, isTarget, targetLocated⟩
    exact .inr ⟨step, member, target, isTarget, location, targetLocated, otherLocated⟩

/-- One step more, whether it fails or not. -/
theorem perform (progress : Progress steps before current) {step : FileStep}
    (member : step ∈ steps)
    (sources : ∀ source target, step = .copy source target → before.isFile source = true) :
    Progress steps before (step.perform current).files := by
  cases step with
  | require path => exact progress
  | report event => exact progress
  | makeAll path =>
      exact progress.gains (FileSystem.gainsDirectories_makeDirectories _ current path)
  | write path text =>
      change Progress steps before (current.single (current.write path text.toUTF8)).2
      cases writes : current.write path text.toUTF8 with
      | error failure => exact progress
      | ok after =>
          rcases FileSystem.write_eq_ok_iff.mp writes with ⟨location, located, -, free, rfl⟩
          have written := FileSystem.writtenAt_put free text.toUTF8
          exact progress.written written member (.write (written.extendedBy.locate located))
  | copy source target =>
      change Progress steps before (current.copy source target).2
      rcases current.copy_cases source target with ⟨failure, fails⟩ |
        ⟨location, content, after, succeeds, copied⟩
      · rw [fails]
        exact progress
      · rw [succeeds]
        have extended := copied.written.extendedBy
        have place := extended.locate copied.located
        apply progress.written copied.written member
        refine .copy place ?_
        rcases copied.origin with ⟨same, -⟩ | ⟨-, reads⟩
        · exact .inr ⟨_, member, target, rfl, location, place, extended.locate same⟩
        · rcases progress.read (sources source target rfl) reads with kept | overwritten
          · exact .inl kept
          · exact .inr (overwritten.mono (List.Subset.refl steps) extended)

end Progress

/-- What steps have changed, up to the first one that fails. -/
theorem progress_performAll (files : FileSystem) {steps : List FileStep}
    (sources : ∀ source target, .copy source target ∈ steps → files.isFile source = true) :
    Progress steps files (performAll files steps).files := by
  -- The induction is on the steps that are left; `current` is what the others have made of the
  -- files.
  have run : ∀ rest current, rest ⊆ steps → Progress steps files current →
      Progress steps files (performAll current rest).files := by
    intro rest
    induction rest with
    | nil =>
        intro current _ progress
        exact progress
    | cons step rest ih =>
        intro current subset progress
        rw [List.cons_subset] at subset
        have next := progress.perform subset.1 fun source target equal =>
          sources source target (equal ▸ subset.1)
        cases failed : (step.perform current).error with
        | some error => rw [performAll_cons_of_error rest failed]; exact next
        | none => rw [performAll_cons_of_none rest failed]; exact ih _ subset.2 next
  exact run steps files (List.Subset.refl steps) (.refl steps files)

end FileStep

end FleetCompose
