import FleetCompose.Files.FileSystem
import FleetCompose.Logged

/-!
# Steps on files

What is done with files is a list of steps. The first step that fails ends the list; the
changes of the steps before it stay.
-/

namespace FleetCompose

/-- Why a list of steps is ended. -/
inductive StepError where
  | missing (path : Path)
  | failed (path : Path) (cause : FileError)
  deriving DecidableEq, Repr

/-- The wording of an error. -/
def StepError.message : StepError → String
  | .missing path => "file '" ++ path.text ++ "' does not exist"
  | .failed path cause => "failed to write '" ++ path.text ++ "': " ++ cause.message

/-- A step: check that there is a file, make a directory with the directories it is in, write
or copy a file, or log an event. -/
inductive FileStep where
  | require (path : Path)
  | makeAll (path : Path)
  | write (path : Path) (content : String)
  | copy (source target : Path)
  | report (event : LogEvent)
  deriving DecidableEq, Repr

/-- What came out of steps: the events, the error that ended them if there is one, and the file
system behind them. -/
structure Delivery where
  log : List LogEvent
  error : Option StepError
  files : FileSystem

namespace FileStep

/-- The outcome of an operation on a path. -/
def delivery (path : Path) (outcome : FileSystem.Outcome) : Delivery :=
  ⟨[], outcome.1.map (.failed path), outcome.2⟩

/-- Carry out one step. -/
def perform (files : FileSystem) : FileStep → Delivery
  | .require path => ⟨[], if files.isFile path then none else some (.missing path), files⟩
  | .makeAll path => delivery path (files.makeAll path)
  | .write path content => delivery path (files.single (files.write path content.toUTF8))
  | .copy source target => delivery target (files.copy source target)
  | .report event => ⟨[event], none, files⟩

/-- Carry out steps up to the first one that fails. -/
def performAll (files : FileSystem) : List FileStep → Delivery
  | [] => ⟨[], none, files⟩
  | step :: steps =>
      let first := step.perform files
      match first.error with
      | some _ => first
      | none =>
          let rest := performAll first.files steps
          { rest with log := first.log ++ rest.log }

@[simp] theorem performAll_nil (files : FileSystem) : performAll files [] = ⟨[], none, files⟩ :=
  rfl

/-- A step that fails is the last one. -/
theorem performAll_cons_of_error {files : FileSystem} {step : FileStep} {error : StepError}
    (steps : List FileStep) (h : (step.perform files).error = some error) :
    performAll files (step :: steps) = step.perform files := by
  simp [performAll, h]

/-- Behind a step that does not fail come the others. -/
theorem performAll_cons_of_none {files : FileSystem} {step : FileStep} (steps : List FileStep)
    (h : (step.perform files).error = none) :
    performAll files (step :: steps) =
      { performAll (step.perform files).files steps with
        log := (step.perform files).log ++ (performAll (step.perform files).files steps).log } := by
  simp [performAll, h]

/-- A step that looks a file up changes nothing. -/
@[simp] theorem files_perform_require (files : FileSystem) (path : Path) :
    ((FileStep.require path).perform files).files = files := rfl

/-- Steps that only look files up fail at the first path that is no file, and change nothing. -/
theorem performAll_require (files : FileSystem) (paths : List Path) :
    performAll files (paths.map .require) =
      ⟨[], (paths.find? fun path => !files.isFile path).map .missing, files⟩ := by
  induction paths with
  | nil => rfl
  | cons path paths ih =>
      cases h : files.isFile path with
      | false =>
          have e : ((FileStep.require path).perform files).error = some (.missing path) := by
            simp [perform, h]
          rw [List.map_cons, performAll_cons_of_error _ e]
          simp [perform, h]
      | true =>
          have e : ((FileStep.require path).perform files).error = none := by
            simp [perform, h]
          rw [List.map_cons, performAll_cons_of_none _ e, files_perform_require, ih]
          simp [perform, h]

end FileStep

end FleetCompose
