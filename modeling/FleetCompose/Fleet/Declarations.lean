import FleetCompose.Data.Accumulate
import FleetCompose.Document
import FleetCompose.Fleet.LoadError
import FleetCompose.Text.EditDistance
import FleetCompose.Text.Identifier

/-!
# Checked declarations

Every section of a document is checked from the front: required texts must not be blank,
ids must not repeat, and references must lead to declared entities. Texts are trimmed on
the way. The first violation, in the order of the checks, is the answer.
-/

namespace FleetCompose

/-- A robot whose fields are checked and whose area is not known yet. Its images and
packages are positions in the lists of declared images and packages. -/
structure CheckedRobot where
  id : String
  ros : RosSpec
  images : List Nat
  packages : List Nat
  vars : List (String × String)
  extra : Fields

/-- An area and the ids of the robots it lists. -/
structure Membership where
  id : String
  robots : List String

/-- The checked sections of a document. -/
structure Declarations where
  images : List Image
  packages : List Package
  globals : List Global
  robots : List CheckedRobot
  areas : List Membership

namespace Declarations

/-- A required text: trimmed, and not empty after that. -/
def required (value : Option String) (kind : EntityKind) (id : Option String)
    (name : String) : Except LoadError String :=
  let text := Text.trim (value.getD "")
  if text.isEmpty then .error (.missingField kind id (.field name)) else .ok text

/-- Refuse a text that occurs in the list. -/
def refuseRepeated (ids : List String) (id : String) (failure : LoadError) :
    Except LoadError Unit :=
  if id ∈ ids then .error failure else .ok ()

/-! ## Images -/

/-- Check one image. -/
def checkImage (accepted : List Image) (decl : ImageDecl) : Except LoadError Image := do
  let id ← required decl.id .image none "id"
  let image ← required decl.image .image (some id) "image"
  refuseRepeated (accepted.map Image.id) id (.duplicateId .image id none)
  return ⟨id, image, decl.extra⟩

/-- Check the images. -/
def checkImages (decls : List ImageDecl) : Except LoadError (List Image) :=
  accumulate checkImage [] decls

/-! ## Packages -/

/-- Check the entries of a list field: trimmed, and none empty after that. -/
def checkEntries (package : String) (name : String) (entries : Option (List String)) :
    Except LoadError (List String) :=
  accumulate
    (fun accepted entry =>
      let text := Text.trim entry
      if text.isEmpty then
        .error (.missingField .package (some package) (.item name accepted.length))
      else .ok text)
    [] (entries.getD [])

/-- A trimmed text, if it is not empty. -/
def optional (value : Option String) : Option String :=
  match value with
  | none => none
  | some value =>
      let text := Text.trim value
      if text.isEmpty then none else some text

/-- The name under which a path is copied: what follows the last slash once the slashes at
the end are gone. -/
def fileName (path : String) : String :=
  Text.afterLast '/' (Text.dropTrailingSlashes (Text.trim path))

/-- Refuse paths that would be copied under one name. -/
def checkFileNames (package : String) (name : String) (paths : List String) :
    Except LoadError (List String) :=
  accumulate
    (fun accepted path =>
      let file := fileName path
      if file ∈ accepted then .error (.conflicting .package package (.sameFileName name file))
      else .ok file)
    [] paths

/-- Does an entry have the form `HOST:CONTAINER` with two parts that are not blank? -/
def isFileEntry (entry : String) : Bool :=
  match Text.splitFirst ':' entry with
  | none => false
  | some (host, container) => !(Text.trim host).isEmpty && !(Text.trim container).isEmpty

/-- The host parts of file entries. -/
def hostParts (files : List String) : List String :=
  files.filterMap fun entry => (Text.splitFirst ':' entry).map (·.1)

/-- Check one package. -/
def checkPackage (accepted : List Package) (decl : PackageDecl) :
    Except LoadError Package := do
  let id ← required decl.id .package none "id"
  let path ← required decl.path .package (some id) "path"
  let command ← required decl.command .package (some id) "command"
  refuseRepeated (accepted.map Package.id) id (.duplicateId .package id none)
  let apt ← checkEntries id "apt" decl.apt
  let git ← checkEntries id "git" decl.git
  let rosinstall := optional decl.rosinstall
  if apt.isEmpty && git.isEmpty && rosinstall.isNone then
    throw (.conflicting .package id .noSources)
  let ssh ← checkEntries id "ssh" decl.ssh
  let files ← checkEntries id "files" decl.files
  match files.find? fun entry => !isFileEntry entry with
  | some entry => throw (.conflicting .package id (.malformedFile entry))
  | none => pure ()
  let _ ← checkFileNames id "ssh" ssh
  let _ ← checkFileNames id "files" (hostParts files)
  return ⟨id, path, command, apt, git, rosinstall, ssh, files, decl.extra⟩

/-- Check the packages. -/
def checkPackages (decls : List PackageDecl) : Except LoadError (List Package) :=
  accumulate checkPackage [] decls

/-! ## Globals -/

/-- Check one global. Its id must differ from those of images and packages as well. -/
def checkGlobal (images : List Image) (packages : List Package) (accepted : List Global)
    (decl : GlobalDecl) : Except LoadError Global := do
  let id ← required decl.id .global none "id"
  refuseRepeated (accepted.map Global.id) id (.duplicateId .global id none)
  refuseRepeated (images.map Image.id ++ packages.map Package.id) id
    (.duplicateId .global id (some .imagesAndPackages))
  return ⟨id, decl.extra⟩

/-- Check the globals. -/
def checkGlobals (images : List Image) (packages : List Package) (decls : List GlobalDecl) :
    Except LoadError (List Global) :=
  accumulate (checkGlobal images packages) [] decls

/-! ## Robots -/

/-- Resolve one reference of a robot to a declared id. -/
def resolveReference (robot : String) (kind : EntityKind) (name : String)
    (known : List String) (accepted : List (String × Nat)) (written : String) :
    Except LoadError (String × Nat) :=
  let id := Text.trim written
  if id.isEmpty then
    .error (.missingField .robot (some robot) (.item name accepted.length))
  else if id ∈ accepted.map Prod.fst then
    .error (.duplicateId kind id (some (.robot robot)))
  else
    match known.findIdx? (· == id) with
    | none => .error (.unresolved .robot robot kind id (Text.similarNames known id))
    | some position => .ok (id, position)

/-- Resolve the references of a robot to positions among the declared ids. -/
def resolveReferences (robot : String) (kind : EntityKind) (name : String)
    (known : List String) (references : Option (List String)) :
    Except LoadError (List Nat) :=
  (accumulate (resolveReference robot kind name known) [] (references.getD [])).map
    (·.map Prod.snd)

/-- Check one variable of a robot. -/
def checkVariable (robot : String) (_accepted : List (String × String))
    (entry : String × Yaml.Value) : Except LoadError (String × String) :=
  if ¬ Text.isIdentifier entry.1 then
    .error (.conflicting .robot robot (.variableName entry.1))
  else
    match entry.2.scalarText with
    | none => .error (.conflicting .robot robot (.variableValue entry.1))
    | some text => .ok (entry.1, text)

/-- Check the fields of a robot. -/
def checkRobotFields (settings : Settings) (images packages : List String)
    (decl : RobotDecl) : Except LoadError CheckedRobot := do
  let id ← required decl.id .robot none "id"
  let rosText ← required decl.ros .robot (some id) "ros"
  let ros ← (RosSpec.parse settings rosText).mapError (LoadError.invalidRos id rosText)
  let imageRefs ← resolveReferences id .image "images" images decl.images
  let packageRefs ← resolveReferences id .package "packages" packages decl.packages
  if imageRefs.isEmpty && packageRefs.isEmpty then
    throw (.conflicting .robot id .nothingToRun)
  let vars ← accumulate (checkVariable id) [] ((decl.vars.map VarsDecl.entries).getD [])
  return ⟨id, ros, imageRefs, packageRefs, vars, decl.extra⟩

/-- Check one robot. -/
def checkRobot (settings : Settings) (images packages : List String)
    (accepted : List CheckedRobot) (decl : RobotDecl) : Except LoadError CheckedRobot := do
  let robot ← checkRobotFields settings images packages decl
  refuseRepeated (accepted.map CheckedRobot.id) robot.id (.duplicateId .robot robot.id none)
  return robot

/-- Check the robots. -/
def checkRobots (settings : Settings) (images packages : List String)
    (decls : List RobotDecl) : Except LoadError (List CheckedRobot) :=
  accumulate (checkRobot settings images packages) [] decls

/-! ## Areas -/

/-- The area, among those accepted so far, that lists a robot. -/
def ownerOf (areas : List Membership) (robot : String) : Option Membership :=
  areas.find? fun area => robot ∈ area.robots

/-- Check one robot that an area lists. -/
def checkMember (robots : List String) (areas : List Membership) (area : String)
    (accepted : List String) (written : String) : Except LoadError String :=
  let robot := Text.trim written
  if robot.isEmpty then
    .error (.missingField .area (some area) (.item "robots" accepted.length))
  else if robot ∈ accepted then
    .error (.duplicateId .robot robot (some (.area area)))
  else if robot ∉ robots then
    .error (.unresolved .area area .robot robot (Text.similarNames robots robot))
  else
    match ownerOf areas robot with
    | some owner => .error (.conflicting .robot robot (.listedTwice owner.id area))
    | none => .ok robot

/-- Check one area. -/
def checkArea (robots : List String) (accepted : List Membership) (decl : AreaDecl) :
    Except LoadError Membership := do
  let id ← required decl.id .area none "id"
  refuseRepeated (accepted.map Membership.id) id (.duplicateId .area id none)
  let listed := decl.robots.getD []
  if listed.isEmpty then throw (.missingField .area (some id) (.field "robots"))
  let members ← accumulate (checkMember robots accepted id) [] listed
  return ⟨id, members⟩

/-- Check the areas. -/
def checkAreas (robots : List String) (decls : List AreaDecl) :
    Except LoadError (List Membership) :=
  accumulate (checkArea robots) [] decls

/-! ## Documents -/

/-- Check all sections of a document. -/
def ofDocument (settings : Settings) (doc : Document) : Except LoadError Declarations := do
  let areaDecls := doc.areas.getD []
  if areaDecls.isEmpty then throw (.missingField .document none (.field "areas"))
  let images ← checkImages doc.images
  let packages ← checkPackages doc.packages
  let globals ← checkGlobals images packages doc.globals
  let robots ←
    checkRobots settings (images.map Image.id) (packages.map Package.id) doc.robots
  let areas ← checkAreas (robots.map CheckedRobot.id) areaDecls
  return ⟨images, packages, globals, robots, areas⟩

end Declarations

end FleetCompose
