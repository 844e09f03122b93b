import FleetCompose.CommandLine.Run

/-!
# The program

The outer layer of the command line: it reads the files of a run, carries out the steps that
the run decides on, and prints its answer.
-/

namespace FleetCompose.CommandLine

/-- The cause of a failure of the file system. -/
def causeOf (failure : IO.Error) : FileError :=
  match failure with
  | .noFileOrDirectory .. => .notFound
  | .alreadyExists .. => .alreadyExists
  | .inappropriateType _ code _ => if code = 20 then .notDirectory else .isDirectory
  | failure => .other failure.toString

/-- Do something with files and keep the cause of a failure. -/
def attempt {α : Type} (action : IO α) : IO (Except FileError α) := do
  match ← action.toBaseIO with
  | .ok value => return .ok value
  | .error failure => return .error (causeOf failure)

/-- Read a file. -/
def readFile (path : Path) : IO (Except FileError ByteArray) :=
  attempt (IO.FS.readBinFile path.text)

/-- Does the path name a regular file? -/
def isRegularFile (path : Path) : IO Bool := do
  let place := (← IO.currentDir) / path.text
  match ← place.metadata.toBaseIO with
  | .ok metadata => return metadata.type == .file
  | .error _ => return false

/-- Copy a file; the target is emptied first. -/
def copyFile (source target : Path) : IO Unit := do
  discard (IO.FS.readBinFile source.text)
  IO.FS.writeBinFile target.text ByteArray.empty
  IO.FS.writeBinFile target.text (← IO.FS.readBinFile source.text)

/-- Carry out a step: the events that it reports and the error that it ends with. -/
def carryOut (step : FileStep) : IO (List LogEvent × Option StepError) := do
  let failing (path : Path) (action : IO Unit) : IO (List LogEvent × Option StepError) := do
    match ← attempt action with
    | .ok () => return ([], none)
    | .error cause => return ([], some (.failed path cause))
  match step with
  | .require path => return ([], if ← isRegularFile path then none else some (.missing path))
  | .makeAll path => failing path (IO.FS.createDirAll path.text)
  | .write path content => failing path (IO.FS.writeBinFile path.text content.toUTF8)
  | .copy source target => failing target (copyFile source target)
  | .report event => return ([event], none)

/-- Carry out steps up to the first one that fails. -/
def carryOutAll : List FileStep → IO (List LogEvent × Option StepError)
  | [] => return ([], none)
  | step :: steps => do
      match ← carryOut step with
      | (log, some failure) => return (log, some failure)
      | (log, none) =>
          let (rest, error) ← carryOutAll steps
          return (log ++ rest, error)

/-- Print an answer and give its exit status. -/
def print (answer : Answer) : IO UInt32 := do
  IO.print answer.output
  IO.eprint answer.errors
  return answer.status

/-- Run the command line on the files of the system. -/
def runOnSystem (arguments : List String) : IO UInt32 := do
  match Options.ofArguments arguments with
  | .error refusal => print (.ofRefusal refusal)
  | .ok options =>
      let filter := LogFilter.ofRun options.verbose (← IO.getEnv "RUST_LOG")
      let settings ← options.settings.mapM fun path => readFile ⟨path⟩
      let config ← readFile ⟨options.config⟩
      match course filter options ⟨settings, config⟩ with
      | .finished answer => print answer
      | .writing errors steps =>
          let (log, error) ← carryOutAll steps
          print (answerOf filter errors log error)

end FleetCompose.CommandLine

/-- Run the command line. -/
def main (arguments : List String) : IO UInt32 :=
  FleetCompose.CommandLine.runOnSystem arguments
