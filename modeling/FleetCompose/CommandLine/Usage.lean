import FleetCompose.CommandLine.Options

/-!
# Help and usage messages

The text of the help, and the messages for arguments that are refused.
-/

namespace FleetCompose.CommandLine

/-- The usage line. When arguments were used it shows them instead of the word for options. -/
def usageLine (used : List Argument) : String :=
  let words :=
    if used.isEmpty then ["[OPTIONS]", "<CONFIG>", "[OUTPUT]"]
    else
      let options := (used.filter fun argument => argument.long?.isSome).map Argument.shown
      options ++ ["<CONFIG>", if used.contains .output then "<OUTPUT>" else "[OUTPUT]"]
  "Usage: ros-composer " ++ " ".intercalate words

/-- The text of the help. -/
def helpText : String :=
  "Generate docker-compose files for multi-robot ROS deployments\n\n" ++
  usageLine [] ++ "\n\n" ++
  "Arguments:\n" ++
  "  <CONFIG>  Infrastructure configuration (YAML)\n" ++
  "  [OUTPUT]  Manifest to write; Dockerfiles go next to it [default: docker-compose.yml]\n\n" ++
  "Options:\n" ++
  "  -s, --settings <SETTINGS>  Generator settings (TOML format)\n" ++
  "      --emit-model           Print the intermediate model as JSON instead of writing files\n" ++
  "  -v, --verbose              Log pipeline details to stderr\n" ++
  "  -h, --help                 Print help\n"

namespace Refusal

/-- The message of a refusal and the usage line below it. -/
def parts : Refusal → String × Option (List Argument)
  | .help => ("", none)
  | .unknown written tip used =>
      let hint :=
        match tip with
        | .nothing => ""
        | .similar option => "\n\n  tip: a similar argument exists: '--" ++ option.long?.getD "" ++ "'"
        | .behindDashes =>
            "\n\n  tip: to pass '" ++ written ++ "' as a value, use '-- " ++ written ++ "'"
      ("unexpected argument '" ++ written ++ "' found" ++ hint, some used)
  | .valueMissing argument =>
      ("a value is required for '" ++ argument.shown ++ "' but none was supplied", none)
  | .valueUnneeded value argument used =>
      ("unexpected value '" ++ value ++ "' for '" ++ argument.shown ++
        "' found; no more were expected", some used)
  | .repeated argument =>
      ("the argument '" ++ argument.shown ++ "' cannot be used multiple times", some [])
  | .configMissing used =>
      ("the following required arguments were not provided:\n  <CONFIG>",
        some (addUsed used .config))

/-- The text of a refusal. -/
def text (refusal : Refusal) : String :=
  let (message, used) := refusal.parts
  let usage :=
    match used with
    | some used => "\n\n" ++ usageLine used
    | none => ""
  "error: " ++ message ++ usage ++ "\n\nFor more information, try '--help'.\n"

end Refusal

end FleetCompose.CommandLine
