import FleetCompose.Settings
import FleetCompose.Text.Quoted
import FleetCompose.Toml.Grammar

/-!
# Settings files

A settings file has two tables, `distros` and `defaults`, and no other entries than those that
are settings. A table may also be written as an array of all its values in their order.
-/

namespace FleetCompose

open Toml

/-! ## Values -/

/-- Numbers are shown without an exponent. -/
def plainLayout : Decimal.Layout := ⟨-400, 400, false⟩

/-- A floating point number as it is shown. -/
def shownFloat (x : Binary64) : String :=
  if x.isNaN then "NaN"
  else if x.isInfinite then if x.negative then "-inf" else "inf"
  else plainLayout.writeFinite x

/-- What stands where something else is expected. A date counts as a map. -/
def Toml.Node.found : Node → String
  | .string _ text => "string " ++ Text.quoted text
  | .integer _ value => "integer " ++ ticked (toString value)
  | .float _ value => "floating point " ++ ticked (shownFloat value)
  | .boolean _ value => "boolean " ++ ticked (if value then "true" else "false")
  | .dateTime _ | .table _ => "map"
  | .array _ _ | .tables _ => "sequence"

/-- Refuse a value. A value without a place of its own is refused at its key. -/
def Toml.Node.refuse {α : Type} (node : Node) (key : Key) (reason : Reason) : Except Fault α :=
  .error ⟨node.span?.getD key.span, .refused reason⟩

/-- Read a text. -/
def Toml.Node.readText (key : Key) : Node → Except Fault String
  | .string _ text => .ok text
  | node => node.refuse key (.wrongType node.found "a string")

/-- Read a list of texts. -/
def Toml.Node.readTexts (key : Key) : Node → Except Fault (List String)
  | .array _ items => items.mapM (Node.readText key)
  | .tables inners => (inners.map Node.table).mapM (Node.readText key)
  | node => node.refuse key (.wrongType node.found "a sequence")

/-- Read an unsigned number of 32 bits. -/
def Toml.Node.readWord (key : Key) (node : Node) : Except Fault UInt32 :=
  match node with
  | .integer _ value =>
      if 0 ≤ value && value < UInt32.size then .ok (UInt32.ofNat value.toNat)
      else node.refuse key (.wrongValue node.found "u32")
  | node => node.refuse key (.wrongType node.found "u32")

/-! ## Tables of settings -/

/-- A table of settings: its name in refusals, its fields in their order, and how a field is
read. -/
structure SettingsTable where
  name : String
  fields : List String
  read : SettingsFile → Key → Node → Except Fault SettingsFile

namespace SettingsTable

/-- The table of the distributions of both families. -/
def distros : SettingsTable where
  name := "struct TomlDistros"
  fields := ["ros1", "ros2"]
  read file key node := do
    match key.text with
    | "ros1" => return { file with ros1Distros := some (← node.readTexts key) }
    | "ros2" => return { file with ros2Distros := some (← node.readTexts key) }
    | _ => return file

/-- The table of what is filled in. -/
def defaults : SettingsTable where
  name := "struct TomlDefaults"
  fields := ["ros1_master_port", "ros2_domain_id", "restart", "workspace", "compose_version"]
  read file key node := do
    match key.text with
    | "ros1_master_port" => return { file with ros1MasterPort := some (← node.readWord key) }
    | "ros2_domain_id" => return { file with ros2DomainId := some (← node.readWord key) }
    | "restart" => return { file with restart := some (← node.readText key) }
    | "workspace" => return { file with workspace := some (← node.readText key) }
    | "compose_version" => return { file with composeVersion := some (← node.readText key) }
    | _ => return file

/-- Read an entry of a table of settings. -/
def readEntry (table : SettingsTable) (file : SettingsFile) (entry : Key × Node) :
    Except Fault SettingsFile :=
  if entry.1.text ∈ table.fields then table.read file entry.1 entry.2
  else .error ⟨entry.1.span, .refused (.unknownField entry.1.text table.fields)⟩

/-- Read all fields of a table of settings from a list. -/
def readList (table : SettingsTable) (key : Key) (node : Node) (items : List Node)
    (file : SettingsFile) : Except Fault SettingsFile := do
  let file ← (table.fields.zip items).foldlM
    (fun file (field, item) => table.read file ⟨field, key.span⟩ item) file
  if items.length < table.fields.length then
    let expected := table.name ++ " with " ++ Nat.repr table.fields.length ++ " elements"
    node.refuse key (.wrongLength items.length expected)
  else return file

/-- Read a table of settings. A date counts as a map with a field that nobody can write. -/
def readNode (table : SettingsTable) (file : SettingsFile) (key : Key) (node : Node) :
    Except Fault SettingsFile :=
  match node with
  | .table inner => inner.entries.foldlM table.readEntry file
  | .array _ items => table.readList key node items file
  | .tables inners => table.readList key node (inners.map .table) file
  | .dateTime _ => node.refuse key (.unknownField "$__toml_private_datetime" table.fields)
  | node => node.refuse key (.wrongType node.found table.name)

end SettingsTable

/-! ## Files -/

/-- A settings file that says nothing. -/
def SettingsFile.blank : SettingsFile := ⟨none, none, none, none, none, none, none⟩

/-- Read an entry of a settings file. -/
def SettingsFile.readEntry (file : SettingsFile) (entry : Key × Node) :
    Except Fault SettingsFile :=
  match entry.1.text with
  | "distros" => SettingsTable.distros.readNode file entry.1 entry.2
  | "defaults" => SettingsTable.defaults.readNode file entry.1 entry.2
  | name => .error ⟨entry.1.span, .refused (.unknownField name ["distros", "defaults"])⟩

/-- Read a settings file. -/
def SettingsFile.ofSource (source : String) : Except Fault SettingsFile := do
  (← Table.ofSource source).entries.foldlM readEntry .blank

/-- Why there are no settings: the file cannot be read, it has a fault, or it lists a
distribution in both families. -/
inductive SettingsError where
  | unreadable (cause : String)
  | malformed (source : String) (fault : Fault)
  | ambiguous (distro : String)

/-- The text of a settings error. -/
def SettingsError.message : SettingsError → String
  | .unreadable cause => "Failed to read settings file: " ++ cause
  | .malformed source fault => "Failed to parse settings TOML: " ++ fault.text source
  | .ambiguous distro => "distro '" ++ distro ++ "' is listed as both ROS1 and ROS2"

/-- The settings that a settings file stands for. -/
def Settings.ofSource (source : String) : Except SettingsError Settings :=
  match SettingsFile.ofSource source with
  | .error fault => .error (.malformed source fault)
  | .ok file => (Settings.ofFile file).mapError .ambiguous

end FleetCompose
