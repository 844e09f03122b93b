import FleetCompose.CommandLine.Usage
import FleetCompose.Compile
import FleetCompose.Compose.Delivery
import FleetCompose.Compose.Dump
import FleetCompose.Logged.Filter
import FleetCompose.Report
import FleetCompose.Settings.Source

/-!
# Runs of the command line

A run reads its arguments, the settings and the configuration, and then prints the model or
writes the artifacts. Log lines and messages go to the error output in the order in which they
arise.
-/

namespace FleetCompose.CommandLine

/-- What a run prints, and its exit status. -/
structure Answer where
  status : UInt32
  output : String
  errors : String
  deriving DecidableEq, Repr

namespace Answer

/-- A run that fails with a message. -/
def failed (errors : String) : Answer := ⟨1, "", errors⟩

/-- Arguments that are refused, or a wish for help. -/
def ofRefusal : Refusal → Answer
  | .help => ⟨0, helpText, ""⟩
  | refusal => ⟨2, "", refusal.text⟩

end Answer

/-- The files that a run reads before it does anything else. -/
structure Inputs where
  settings : Option (Except FileError ByteArray)
  config : Except FileError ByteArray

/-- What a run does once its files are read: it is finished, or it has steps on files to carry
out and has printed `errors` so far. -/
inductive Course where
  | finished (answer : Answer)
  | writing (errors : String) (steps : List FileStep)

/-- The text of a file that was read. -/
def textOf (content : Except FileError ByteArray) : Except FileError String :=
  match content with
  | .error failure => .error failure
  | .ok bytes =>
      match String.fromUTF8? bytes with
      | some text => .ok text
      | none => .error .notText

/-- The settings of a run. -/
def settingsOf : Option (Except FileError ByteArray) → Except SettingsError Settings
  | none => .ok .standard
  | some content =>
      match textOf content with
      | .error failure => .error (.unreadable failure.message)
      | .ok text => Settings.ofSource text

/-- The directory of the configuration; the host files of packages are seen from there. -/
def sourceDirectory (options : Options) : Path := (Path.parent? ⟨options.config⟩).getD ⟨"."⟩

/-- The message of a compilation that fails. A document that cannot be read gets a report. -/
def compileFailure (options : Options) (source : String) : CompileError → String
  | .reading error => error.report options.config source
  | error => "Error: " ++ error.message ++ "\n"

/-- Print a model. -/
def printModel (errors : String) (model : Model) : Answer :=
  match model.toJson with
  | .ok json => ⟨0, json.pretty ++ "\n", errors⟩
  | .error failure => .failed (errors ++ "Error: " ++ failure.message ++ "\n")

/-- Write the artifacts of a model. -/
def writeModel (filter : LogFilter) (options : Options) (errors : String) (model : Model) :
    Course :=
  let rendered := model.toArtifacts
  let errors := errors ++ filter.lines rendered.log
  match rendered.outcome with
  | .error failure => .finished (.failed (errors ++ "Error: " ++ failure.message ++ "\n"))
  | .ok artifacts =>
      .writing errors (artifacts.steps ⟨options.output⟩ (sourceDirectory options))

/-- Compile a source, and print the model or write its artifacts. -/
def compile (filter : LogFilter) (options : Options) (settings : Settings) (source : String) :
    Course :=
  let compiled := compileModel settings source
  let errors := filter.lines compiled.log
  match compiled.outcome with
  | .error failure => .finished (.failed (errors ++ compileFailure options source failure))
  | .ok model =>
      if options.emitModel then .finished (printModel errors model)
      else writeModel filter options errors model

/-- What a run does with the files that it has read. The settings come first. -/
def course (filter : LogFilter) (options : Options) (inputs : Inputs) : Course :=
  match settingsOf inputs.settings with
  | .error failure =>
      .finished <| .failed <|
        "Error loading settings '" ++ options.settings.getD "" ++ "': " ++ failure.message ++ "\n"
  | .ok settings =>
      match textOf inputs.config with
      | .error failure =>
          .finished <| .failed <|
            "Error reading file '" ++ options.config ++ "': " ++ failure.message ++ "\n"
      | .ok source => compile filter options settings source

/-- The answer of a run whose steps were carried out. -/
def answerOf (filter : LogFilter) (errors : String) (log : List LogEvent)
    (error : Option StepError) : Answer :=
  let errors := errors ++ filter.lines log
  match error with
  | none => ⟨0, "", errors⟩
  | some failure => .failed (errors ++ "Error: " ++ failure.message ++ "\n")

/-- Run the command line on a file system. `logVariable` is the log filter of the
environment. -/
def run (arguments : List String) (logVariable : Option String) (files : FileSystem) :
    Answer × FileSystem :=
  match Options.ofArguments arguments with
  | .error refusal => (.ofRefusal refusal, files)
  | .ok options =>
      let filter := LogFilter.ofRun options.verbose logVariable
      let inputs : Inputs :=
        ⟨options.settings.map fun path => files.read ⟨path⟩, files.read ⟨options.config⟩⟩
      match course filter options inputs with
      | .finished answer => (answer, files)
      | .writing errors steps =>
          let delivery := FileStep.performAll files steps
          (answerOf filter errors delivery.log delivery.error, delivery.files)

end FleetCompose.CommandLine
