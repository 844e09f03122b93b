import FleetCompose.Text.Similarity
import FleetCompose.Text.Split

/-!
# Arguments of the command line

The command line takes the configuration, perhaps the manifest, and options. Arguments that
cannot be understood are refused with a hint on what could have been meant.
-/

namespace FleetCompose.CommandLine

/-- What the arguments of a run say. -/
structure Options where
  config : String
  output : String
  settings : Option String
  emitModel : Bool
  verbose : Bool
  deriving DecidableEq, Repr

/-- The things that arguments may give. -/
inductive Argument where
  | config
  | output
  | settings
  | emitModel
  | verbose
  | help
  deriving DecidableEq, Repr

/-- The name of an option behind two dashes. -/
def Argument.long? : Argument → Option String
  | .config | .output => none
  | .settings => some "settings"
  | .emitModel => some "emit-model"
  | .verbose => some "verbose"
  | .help => some "help"

/-- The letter of an option behind one dash. -/
def Argument.short? : Argument → Option Char
  | .settings => some 's'
  | .verbose => some 'v'
  | .help => some 'h'
  | _ => none

/-- All options, in the order in which they are declared. -/
def allOptions : List Argument := [.settings, .emitModel, .verbose, .help]

/-- How an argument is shown in messages. -/
def Argument.shown : Argument → String
  | .config => "<CONFIG>"
  | .output => "[OUTPUT]"
  | .settings => "--settings <SETTINGS>"
  | argument => "--" ++ argument.long?.getD ""

/-- A hint for an argument that is not known. -/
inductive Tip where
  | nothing
  | similar (argument : Argument)
  | behindDashes
  deriving DecidableEq, Repr

/-- Why arguments are not carried out; help is one of the reasons. `used` are the arguments
that the usage line shows. -/
inductive Refusal where
  | help
  | unknown (written : String) (tip : Tip) (used : List Argument)
  | valueMissing (argument : Argument)
  | valueUnneeded (value : String) (argument : Argument) (used : List Argument)
  | repeated (argument : Argument)
  | configMissing (used : List Argument)
  deriving DecidableEq, Repr

/-! ## Reading -/

/-- What was read so far. A value that was read last is not taken over before the next argument
is looked at. -/
structure Progress where
  used : List Argument
  pending : Option (Argument × Option String)
  values : List (Argument × String)
  trailing : Bool
  deriving DecidableEq, Repr

namespace Progress

/-- Nothing was read. -/
def start : Progress := ⟨[], none, [], false⟩

/-- Is the argument given already? -/
def has (progress : Progress) (argument : Argument) : Bool := progress.used.contains argument

/-- The value of an argument. -/
def value? (progress : Progress) (argument : Argument) : Option String :=
  (progress.values.find? fun entry => entry.1 == argument).map Prod.snd

/-- Take an argument over. Options may be given once, and values must not be empty. -/
def take (progress : Progress) (argument : Argument) (value : Option String) :
    Progress × Option Refusal :=
  if progress.has argument then (progress, some (.repeated argument))
  else
    let marked := { progress with used := progress.used ++ [argument] }
    match value with
    | none => (marked, none)
    | some "" => (marked, some (.valueMissing argument))
    | some text => ({ marked with values := marked.values ++ [(argument, text)] }, none)

/-- Take the pending value over. -/
def settle (progress : Progress) : Progress × Option Refusal :=
  let settled := { progress with pending := none }
  match progress.pending with
  | none => (settled, none)
  | some (argument, none) => (settled, some (.valueMissing argument))
  | some (argument, some value) => settled.take argument (some value)

/-- Take the pending value over, and then another argument. -/
def settleAndTake (progress : Progress) (argument : Argument) (value : Option String) :
    Except Refusal Progress :=
  match progress.settle with
  | (_, some refusal) => .error refusal
  | (settled, none) =>
      if argument = .help then .error .help
      else
        match settled.take argument value with
        | (_, some refusal) => .error refusal
        | (taken, none) => .ok taken

/-- Wait for the value of an option. -/
def await (progress : Progress) (argument : Argument) : Except Refusal Progress :=
  match progress.settle with
  | (_, some refusal) => .error refusal
  | (settled, none) => .ok { settled with pending := some (argument, none) }

/-- The arguments given so far, with a pending one that has its value. -/
def usedInAll (progress : Progress) : List Argument := progress.settle.1.used

end Progress

/-- The option that a misspelt name is most similar to, if it is similar enough. -/
def similarOption? (name : String) : Option Argument :=
  let candidates := allOptions.filterMap fun option =>
    option.long?.map fun long => (option, Text.jaro name long)
  let close := candidates.filter fun candidate => Text.Ratio.lt ⟨7, 10⟩ candidate.2
  let better (first second : Argument × Text.Ratio) : Argument × Text.Ratio :=
    if first.2.le second.2 then second else first
  match close with
  | [] => none
  | first :: rest => some (rest.foldl better first).1

/-- Add an argument to those of a usage line. -/
def addUsed (used : List Argument) (argument : Argument) : List Argument :=
  if used.contains argument then used else used ++ [argument]

/-- Read an option behind two dashes. -/
def readLong (progress : Progress) (written : String) : Except Refusal Progress :=
  let body := String.ofList (written.toList.drop 2)
  let (name, value) :=
    match Text.splitFirst '=' body with
    | some (name, value) => (name, some value)
    | none => (body, none)
  match allOptions.find? fun option => option.long? == some name, value with
  | some .settings, some value => progress.settleAndTake .settings (some value)
  | some .settings, none => progress.await .settings
  | some option, some value =>
      let used := progress.used.filter fun argument => argument != .config
      .error (.valueUnneeded value option (addUsed used option))
  | some option, none => progress.settleAndTake option none
  | none, _ =>
      let used := progress.usedInAll
      match similarOption? name with
      | some option => .error (.unknown ("--" ++ name) (.similar option) (addUsed used option))
      | none => .error (.unknown ("--" ++ name) .behindDashes used)

/-- Read options of one letter behind one dash. The letters behind that of an option with a
value are its value. -/
def readShort (progress : Progress) : List Char → Except Refusal Progress
  | [] => .ok progress
  | c :: cs =>
      match allOptions.find? fun option => option.short? == some c with
      | none => .error (.unknown (String.ofList ['-', c]) .behindDashes [])
      | some .settings =>
          match cs with
          | [] => progress.await .settings
          | '=' :: value => progress.settleAndTake .settings (some (String.ofList value))
          | value => progress.settleAndTake .settings (some (String.ofList value))
      | some option =>
          match progress.settleAndTake option none with
          | .error refusal => .error refusal
          | .ok progress => readShort progress cs

/-- Read an argument that is no option. -/
def readPlain (progress : Progress) (written : String) : Except Refusal Progress :=
  match progress.settle with
  | (_, some refusal) => .error refusal
  | (settled, none) =>
      if !settled.has .config then .ok { settled with pending := some (.config, some written) }
      else if !settled.has .output then .ok { settled with pending := some (.output, some written) }
      else .error (.unknown written .nothing [])

/-- Read an argument. -/
def readArgument (progress : Progress) (written : String) : Except Refusal Progress :=
  match progress.trailing, written.toList with
  | true, _ => readPlain progress written
  | false, ['-', '-'] => .ok { progress with trailing := true }
  | false, '-' :: '-' :: _ => readLong progress written
  | false, '-' :: c :: cs => readShort progress (c :: cs)
  | false, _ =>
      match progress.pending with
      | some (argument, none) => .ok { progress with pending := some (argument, some written) }
      | _ => readPlain progress written

/-- The options that were read. The configuration has to be given. -/
def Progress.finish (progress : Progress) : Except Refusal Options :=
  match progress.settle with
  | (_, some refusal) => .error refusal
  | (settled, none) =>
      match settled.value? .config with
      | none => .error (.configMissing settled.used)
      | some config =>
          .ok {
            config
            output := (settled.value? .output).getD "docker-compose.yml"
            settings := settled.value? .settings
            emitModel := settled.has .emitModel
            verbose := settled.has .verbose }

/-- Read the arguments of a run. -/
def Options.ofArguments (arguments : List String) : Except Refusal Options := do
  (← arguments.foldlM readArgument .start).finish

end FleetCompose.CommandLine
