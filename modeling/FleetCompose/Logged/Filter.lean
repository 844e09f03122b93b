import FleetCompose.Logged
import FleetCompose.Text.Blank
import FleetCompose.Text.Split

/-!
# Log filters

A log filter says which events are shown. It is a list of rules with commas between them: a
threshold for all events, or a threshold for the events of a part of the program. Of the rules
that apply to an event the one with the longest name counts, and of those with the same name
the last one.
-/

namespace FleetCompose

/-- How many levels are shown: none, errors, warnings, notices, debug events or everything. -/
abbrev Threshold := Nat

/-- How many levels have to be shown for an event of the level to be shown. -/
def Level.threshold : Level → Threshold
  | .warn => 2
  | .info => 3
  | .debug => 4

/-- The name of a level in a log line. -/
def Level.name : Level → String
  | .warn => "WARN"
  | .info => "INFO"
  | .debug => "DEBUG"

/-- The name under which filters know the events of a stage. -/
def Stage.target : Stage → String
  | .reading => "ros_composer::parser::document"
  | .loading => "ros_composer::loader"
  | .expanding => "ros_composer::decoder"
  | .converting => "ros_composer::converter"
  | .wiring => "ros_composer::converter::service"
  | .compiling => "ros_composer"
  | .rendering => "ros_composer::renderer"
  | .writing => "ros_composer::output"

/-- A rule of a filter. Rules for spans apply to no event, since there are no spans. -/
inductive LogRule where
  | events (target : String) (threshold : Threshold)
  | spans
  deriving DecidableEq, Repr

/-- A log filter. -/
structure LogFilter where
  rules : List LogRule
  deriving DecidableEq, Repr

/-- The threshold that a word stands for. -/
def threshold? (word : String) : Option Threshold :=
  match word.toList.map Char.toLower |> String.ofList with
  | "off" | "0" => some 0
  | "error" | "1" => some 1
  | "warn" | "2" => some 2
  | "info" | "3" => some 3
  | "debug" | "4" => some 4
  | "trace" | "5" => some 5
  | _ => none

namespace LogRule

/-- A character with which a rule may start. -/
def isStart (c : Char) : Bool :=
  c.isAlphanum || c == '_' || c == '-' || c == ':' || 0x80 ≤ c.toNat

/-- Read a rule: a threshold, a name, or a name with a threshold behind an equals sign. A name
alone shows all events of that part. -/
def ofText? (written : String) : Option LogRule :=
  let text := Text.trim written
  match text.toList with
  | [] => none
  | '[' :: cs => if cs.contains ']' then some .spans else none
  | c :: cs =>
      if !isStart c then none
      else if cs.contains '[' then if cs.contains ']' then some .spans else none
      else
        match Text.splitFirst '=' text with
        | some (target, "") => some (.events target 5)
        | some (target, word) => (threshold? word).map (.events target)
        | none =>
            match threshold? text with
            | some threshold => some (.events "" threshold)
            | none => some (.events text 5)

end LogRule

namespace LogFilter

/-- A filter that shows all events up to a threshold. -/
def upTo (threshold : Threshold) : LogFilter := ⟨[.events "" threshold]⟩

/-- Read a filter. Without any rule it shows errors only. -/
def ofText? (written : String) : Option LogFilter :=
  let parts := (Text.splitOnChars ',' written.toList).filter (!·.isEmpty)
  if parts.isEmpty then some (upTo 1)
  else (parts.mapM fun part => LogRule.ofText? (String.ofList part)).map .mk

/-- Of two rules for an event, given by the length of the name and the threshold, the one that
counts. -/
def stronger (first second : Nat × Threshold) : Nat × Threshold :=
  if first.1 ≤ second.1 then second else first

/-- The threshold for the events of a stage. -/
def thresholdOf (filter : LogFilter) (stage : Stage) : Threshold :=
  let applicable := filter.rules.filterMap fun rule =>
    match rule with
    | .events target threshold =>
        if target.toList.isPrefixOf stage.target.toList then some (target.length, threshold)
        else none
    | .spans => none
  (applicable.foldl stronger (0, 0)).2

/-- Does the filter show an event? -/
def shows (filter : LogFilter) (event : LogEvent) : Bool :=
  event.level.threshold ≤ filter.thresholdOf event.stage

/-- The filter of a run: the written one if it can be read, and else debug events in a verbose
run and warnings in another one. -/
def ofRun (verbose : Bool) (written : Option String) : LogFilter :=
  (written.bind ofText?).getD (upTo (if verbose then 4 else 2))

end LogFilter

/-- The line of an event. -/
def LogEvent.line (event : LogEvent) : String :=
  " ".intercalate <|
    [event.level.name, event.message] ++
      event.fields.map fun (name, value) => name ++ "=" ++ value.lineText

/-- The lines of the events that a filter shows. -/
def LogFilter.lines (filter : LogFilter) (events : List LogEvent) : String :=
  String.join ((events.filter filter.shows).map fun event => event.line ++ "\n")

end FleetCompose
