import FleetCompose.Document
import FleetCompose.Document.Read
import FleetCompose.Logged
import FleetCompose.Text.Blank
import FleetCompose.Yaml.Node.Grammar

/-!
# Reading documents

The document of a source. Every section is a list of entries. Areas have known fields only;
the other entries may have any further fields, which are kept in order. A source without
anything but blanks is the empty document.
-/

namespace FleetCompose

namespace Document

open Yaml (Node)

/-! ## Entries -/

/-- How the known fields of an entry are read into what is known of the entry so far. -/
structure EntryReader (α : Type) where
  expected : String
  fields : List String
  read : (depth : Nat) → DocumentPath → α → String → Node → Read α

/-- Read the name of a field. Where the entry is closed, it must be a known one. -/
def fieldName (closed : Bool) (known : List String) (path : DocumentPath) (key : Node) :
    Read String :=
  Read.frame path key fun
    | .scalar name _ _ _ =>
        if closed && !known.contains name then Read.wrong (.unknownField name known)
        else return name
    | key => Read.wrong (Read.misplaced "field identifier" key)

/-- Read the fields of an entry. Known fields must not repeat; of the others the names and
values are kept as they come. -/
def readFields {α : Type} (reader : EntryReader α) (closed : Bool) (depth : Nat)
    (path : DocumentPath) : (seen : List String) → α → (extra : List (String × Yaml.Value)) →
    List (Node × Node) → Read (α × List (String × Yaml.Value))
  | _, entry, extra, [] => return (entry, extra)
  | seen, entry, extra, (key, value) :: rest => do
      let name ← fieldName closed reader.fields path key
      let place := path ++ [Read.stepOf key]
      if reader.fields.contains name then
        if seen.contains name then Read.wrong (.duplicateField name)
        else
          let entry ← reader.read depth place entry name value
          readFields reader closed depth path (name :: seen) entry extra rest
      else
        let value ← Read.value depth place value
        readFields reader closed depth path seen entry (extra ++ [(name, value)]) rest

/-- The further fields of an entry. The keys of a mapping inside them must not repeat. -/
def extraFields (entries : List (String × Yaml.Value)) : Read Fields :=
  match entries.findSome? fun entry => entry.2.repeatedKey? with
  | some key => Read.wrong (.repeatedKey key)
  | none => return OrderedMap.ofList entries

/-- Read an entry with known fields only. -/
def closedEntry {α : Type} (reader : EntryReader α) (blank : α) (depth : Nat)
    (path : DocumentPath) (node : Node) : Read α :=
  Read.entries depth path reader.expected
    (fun depth entries => do
      let (entry, _) ← readFields reader true depth path [] blank [] entries
      return entry)
    node

/-- Read an entry with further fields. -/
def openEntry {α : Type} (reader : EntryReader α) (blank : α) (withExtra : α → Fields → α)
    (depth : Nat) (path : DocumentPath) (node : Node) : Read α :=
  Read.entries depth path reader.expected
    (fun depth entries => do
      let (entry, extra) ← readFields reader false depth path [] blank [] entries
      return withExtra entry (← extraFields extra))
    node

/-! ## Fields -/

/-- Read a text that may be absent. -/
def optionalText (path : DocumentPath) (node : Node) : Read (Option String) :=
  Read.optional (Read.text path) node

/-- Read a list of texts that may be absent. -/
def optionalTexts (depth : Nat) (path : DocumentPath) (node : Node) :
    Read (Option (List String)) :=
  Read.optional (Read.sequence depth path fun _ => Read.text) node

/-- A mapping from names to values whose keys do not repeat. -/
def namedValues? : Yaml.Value → Option Fields
  | .mapping entries => do
      let named ← entries.mapM fun (key, value) =>
        match key, value.repeatedKey? with
        | .string name, none => some (name, value)
        | _, _ => none
      return OrderedMap.ofList named
  | _ => none

/-- The variables of a robot: a list of mappings, or one mapping. -/
def vars? : Yaml.Value → Option VarsDecl
  | .sequence items => (items.mapM namedValues?).map .list
  | value => (namedValues? value).map .map

/-- Read the variables of a robot. -/
def readVars (depth : Nat) (path : DocumentPath) (node : Node) : Read VarsDecl := do
  match vars? (← Read.value depth path node) with
  | some vars => return vars
  | none => Read.wrong .noFormOfVars

/-! ## Sections -/

/-- Areas. -/
def areaReader : EntryReader AreaDecl where
  expected := "struct RawArea"
  fields := ["id", "robots"]
  read depth path area name value := do
    if name = "id" then return { area with id := ← optionalText path value }
    else return { area with robots := ← optionalTexts depth path value }

/-- Robots. -/
def robotReader : EntryReader RobotDecl where
  expected := "struct RawRobot"
  fields := ["id", "ros", "images", "packages", "vars"]
  read depth path robot name value := do
    if name = "id" then return { robot with id := ← optionalText path value }
    else if name = "ros" then return { robot with ros := ← optionalText path value }
    else if name = "images" then return { robot with images := ← optionalTexts depth path value }
    else if name = "packages" then
      return { robot with packages := ← optionalTexts depth path value }
    else return { robot with vars := ← Read.optional (readVars depth path) value }

/-- Images. -/
def imageReader : EntryReader ImageDecl where
  expected := "struct RawImage"
  fields := ["id", "image"]
  read _ path image name value := do
    if name = "id" then return { image with id := ← optionalText path value }
    else return { image with image := ← optionalText path value }

/-- Packages. -/
def packageReader : EntryReader PackageDecl where
  expected := "struct RawPackage"
  fields := ["id", "path", "command", "apt", "git", "rosinstall", "ssh", "files"]
  read depth path package name value := do
    if name = "id" then return { package with id := ← optionalText path value }
    else if name = "path" then return { package with path := ← optionalText path value }
    else if name = "command" then return { package with command := ← optionalText path value }
    else if name = "apt" then return { package with apt := ← optionalTexts depth path value }
    else if name = "git" then return { package with git := ← optionalTexts depth path value }
    else if name = "rosinstall" then
      return { package with rosinstall := ← optionalText path value }
    else if name = "ssh" then return { package with ssh := ← optionalTexts depth path value }
    else return { package with files := ← optionalTexts depth path value }

/-- Globals. -/
def globalReader : EntryReader GlobalDecl where
  expected := "struct RawGlobal"
  fields := ["id"]
  read _ path global _ value := do
    return { global with id := ← optionalText path value }

/-- Read an area. -/
def readArea : (depth : Nat) → DocumentPath → Node → Read AreaDecl :=
  closedEntry areaReader ⟨none, none⟩

/-- Read a robot. -/
def readRobot : (depth : Nat) → DocumentPath → Node → Read RobotDecl :=
  openEntry robotReader ⟨none, none, none, none, none, .empty⟩
    fun robot extra => { robot with extra }

/-- Read an image. -/
def readImage : (depth : Nat) → DocumentPath → Node → Read ImageDecl :=
  openEntry imageReader ⟨none, none, .empty⟩ fun image extra => { image with extra }

/-- Read a package. -/
def readPackage : (depth : Nat) → DocumentPath → Node → Read PackageDecl :=
  openEntry packageReader ⟨none, none, none, none, none, none, none, none, .empty⟩
    fun package extra => { package with extra }

/-- Read a global. -/
def readGlobal : (depth : Nat) → DocumentPath → Node → Read GlobalDecl :=
  openEntry globalReader ⟨none, .empty⟩ fun global extra => { global with extra }

/-- Documents. -/
def documentReader : EntryReader Document where
  expected := "struct RawDocument"
  fields := ["areas", "robots", "images", "packages", "globals"]
  read depth path doc name value := do
    if name = "areas" then
      return { doc with areas := ← Read.optional (Read.sequence depth path readArea) value }
    else if name = "robots" then
      return { doc with robots := ← Read.sequence depth path readRobot value }
    else if name = "images" then
      return { doc with images := ← Read.sequence depth path readImage value }
    else if name = "packages" then
      return { doc with packages := ← Read.sequence depth path readPackage value }
    else return { doc with globals := ← Read.sequence depth path readGlobal value }

/-! ## Sources -/

/-- Read a document from a tree. A wrong value counts before a syntax error behind it. -/
def ofTree (tree : Yaml.Tree) : Except ReadError Document :=
  let read := closedEntry documentReader Document.empty Read.depthLimit [] tree.root
  match (read tree).run 0 with
  | .error error => .error error
  | .ok (doc, _) =>
      match tree.failure with
      | some cause => .error (.brokenOff cause)
      | none => if tree.followed then .error .severalDocuments else .ok doc

/-- An error, placed by a range of bytes of the source if it has a place. -/
structure SourceError where
  span : Option (Nat × Nat)
  message : String
  deriving DecidableEq, Repr

namespace SourceError

/-- The error of a source of the given size in bytes. Its range is one byte, or empty at the
end of the source. -/
def ofReadError (size : Nat) (error : ReadError) : SourceError where
  span := error.mark?.map fun mark =>
    let start := min mark.index size
    (start, max (min (start + 1) size) start)
  message := error.message

/-- The wording of an error. -/
def text (error : SourceError) : String :=
  "YAML error at " ++
    (match error.span with
      | some (first, last) => Nat.repr first ++ ".." ++ Nat.repr last
      | none => "unknown location") ++
    ": " ++ error.message

end SourceError

/-- The sizes of the sections of a document. -/
def readEvent (doc : Document) : LogEvent :=
  ⟨.debug, .reading, "parsed configuration document",
    [("areas", .shown (Nat.repr (doc.areas.getD []).length)),
     ("robots", .shown (Nat.repr doc.robots.length)),
     ("images", .shown (Nat.repr doc.images.length)),
     ("packages", .shown (Nat.repr doc.packages.length)),
     ("globals", .shown (Nat.repr doc.globals.length))]⟩

/-- Read the document of a source. -/
def ofSource (source : String) : Logged SourceError Document :=
  if Text.isAllBlank source then return Document.empty
  else do
    let doc ← Logged.ofExcept
      ((ofTree (.ofSource source)).mapError (SourceError.ofReadError source.utf8ByteSize))
    Logged.tell [doc.readEvent]
    return doc

end Document

end FleetCompose
