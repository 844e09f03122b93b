import FleetCompose.Document
import FleetCompose.Proofs.RosField
import FleetCompose.Fleet
import FleetCompose.Text.Identifier

/-!
# Well-formed documents

What a document must satisfy to describe a fleet, stated on the document alone: texts are
taken as they count, which is trimmed, and no check, order of checks or error is mentioned.
A document has five sections, each with conditions of its own, and two conditions concern
the robots that some area lists: no two of them share a master port or a domain id, and the
services of all robots and globals have distinct names.
-/

namespace FleetCompose

/-- A field as it counts: trimmed, and empty if it is absent. -/
def fieldText (value : Option String) : String := Text.trim (value.getD "")

/-- The entries of a list field as they count. -/
def fieldTexts (entries : Option (List String)) : List String :=
  (entries.getD []).map Text.trim

/-! ## The texts of declarations -/

namespace AreaDecl

def name (decl : AreaDecl) : String := fieldText decl.id

/-- The ids of the robots that the area lists. -/
def members (decl : AreaDecl) : List String := fieldTexts decl.robots

end AreaDecl

namespace ImageDecl

def name (decl : ImageDecl) : String := fieldText decl.id

end ImageDecl

namespace PackageDecl

def name (decl : PackageDecl) : String := fieldText decl.id

/-- The host paths of the `files` entries. -/
def hostPaths (decl : PackageDecl) : List String :=
  (fieldTexts decl.files).map fun entry => Text.trim (Text.beforeFirst ':' entry)

end PackageDecl

namespace GlobalDecl

def name (decl : GlobalDecl) : String := fieldText decl.id

end GlobalDecl

namespace RobotDecl

def name (decl : RobotDecl) : String := fieldText decl.id

def imageNames (decl : RobotDecl) : List String := fieldTexts decl.images

def packageNames (decl : RobotDecl) : List String := fieldTexts decl.packages

def varEntries (decl : RobotDecl) : List (String × Yaml.Value) :=
  (decl.vars.map VarsDecl.entries).getD []

/-- What the `ros` field of the robot says. -/
def spec (settings : Settings) (decl : RobotDecl) : RosSpec :=
  RosSpec.described settings (fieldText decl.ros)

/-- What no two robots of a fleet may share: a port among robots with a master, a domain id
among the others. -/
def endpoint (settings : Settings) (decl : RobotDecl) : RosFamily × UInt32 :=
  ((decl.spec settings).family, (decl.spec settings).metadata)

/-- The names of the services that the robot needs. -/
def serviceNames (settings : Settings) (decl : RobotDecl) : List String :=
  (match (decl.spec settings).family with
    | .ros1 => [masterService decl.name]
    | .ros2 => []) ++
    decl.imageNames.map (instanceService decl.name) ++
    decl.packageNames.map (instanceService decl.name)

end RobotDecl

namespace Document

variable (doc : Document)

/-- The declared areas; there are none if the section is absent. -/
def areaDecls : List AreaDecl := doc.areas.getD []

def imageNames : List String := doc.images.map ImageDecl.name

def packageNames : List String := doc.packages.map PackageDecl.name

def robotNames : List String := doc.robots.map RobotDecl.name

/-- The ids of the robots that areas list, area by area. -/
def listedNames : List String := doc.areaDecls.flatMap AreaDecl.members

/-- The declared robots that some area lists, in the order of the document. -/
def listedRobots : List RobotDecl :=
  doc.robots.filter fun decl => decl.name ∈ doc.listedNames

/-- The names of all services: those of the listed robots, and the globals. -/
def serviceNames (settings : Settings) : List String :=
  doc.listedRobots.flatMap (RobotDecl.serviceNames settings) ++ doc.globals.map GlobalDecl.name

end Document

/-! ## Conditions on declarations -/

/-- An area lists at least one robot, and only declared ones. -/
structure AreaDecl.WellFormed (doc : Document) (decl : AreaDecl) : Prop where
  name_ne : decl.name ≠ ""
  members_ne : decl.members ≠ []
  member_ne : ∀ member ∈ decl.members, member ≠ ""
  member_declared : ∀ member ∈ decl.members, member ∈ doc.robotNames

structure ImageDecl.WellFormed (decl : ImageDecl) : Prop where
  name_ne : decl.name ≠ ""
  image_ne : fieldText decl.image ≠ ""

/-- An entry `HOST:CONTAINER` of the field `files`; the first colon is the one that counts. -/
def IsFileEntry (entry : String) : Prop :=
  ∃ host container, entry = host ++ ":" ++ container ∧ ':' ∉ host.toList ∧
    Text.trim host ≠ "" ∧ Text.trim container ≠ ""

/-- A package has sources of some kind, and the host files of one field have distinct
names. -/
structure PackageDecl.WellFormed (decl : PackageDecl) : Prop where
  name_ne : decl.name ≠ ""
  path_ne : fieldText decl.path ≠ ""
  command_ne : fieldText decl.command ≠ ""
  apt_ne : ∀ entry ∈ fieldTexts decl.apt, entry ≠ ""
  git_ne : ∀ entry ∈ fieldTexts decl.git, entry ≠ ""
  sources : fieldTexts decl.apt ≠ [] ∨ fieldTexts decl.git ≠ [] ∨ fieldText decl.rosinstall ≠ ""
  ssh_ne : ∀ entry ∈ fieldTexts decl.ssh, entry ≠ ""
  files_ne : ∀ entry ∈ fieldTexts decl.files, entry ≠ ""
  files_form : ∀ entry ∈ fieldTexts decl.files, IsFileEntry entry
  ssh_nodup : ((fieldTexts decl.ssh).map Text.finalComponent).Nodup
  files_nodup : (decl.hostPaths.map Text.finalComponent).Nodup

/-- A global shares the names of services with images and packages. -/
structure GlobalDecl.WellFormed (doc : Document) (decl : GlobalDecl) : Prop where
  name_ne : decl.name ≠ ""
  name_ne_image : decl.name ∉ doc.imageNames
  name_ne_package : decl.name ∉ doc.packageNames

/-- References of a robot lead to declared ids, none of them twice. -/
structure ReferencesWellFormed (known references : List String) : Prop where
  reference_ne : ∀ reference ∈ references, reference ≠ ""
  nodup : references.Nodup
  declared : ∀ reference ∈ references, reference ∈ known

/-- A robot runs something, and its variables are scalars with names that placeholders can
use. Whether an area lists the robot does not matter. -/
structure RobotDecl.WellFormed (settings : Settings) (doc : Document) (decl : RobotDecl) :
    Prop where
  name_ne : decl.name ≠ ""
  ros_ne : fieldText decl.ros ≠ ""
  ros : RosSpec.Readable settings (fieldText decl.ros)
  images : ReferencesWellFormed doc.imageNames decl.imageNames
  packages : ReferencesWellFormed doc.packageNames decl.packageNames
  runs : decl.imageNames ≠ [] ∨ decl.packageNames ≠ []
  variable_name : ∀ entry ∈ decl.varEntries, Text.isIdentifier entry.1 = true
  variable_scalar : ∀ entry ∈ decl.varEntries, ∃ text, entry.2.scalarText = some text

/-! ## Conditions on documents -/

/-- Every section is well-formed on its own. -/
structure Document.SectionsWellFormed (settings : Settings) (doc : Document) : Prop where
  areas_ne : doc.areaDecls ≠ []
  images : ∀ decl ∈ doc.images, decl.WellFormed
  images_nodup : doc.imageNames.Nodup
  packages : ∀ decl ∈ doc.packages, decl.WellFormed
  packages_nodup : doc.packageNames.Nodup
  globals : ∀ decl ∈ doc.globals, decl.WellFormed doc
  globals_nodup : (doc.globals.map GlobalDecl.name).Nodup
  robots : ∀ decl ∈ doc.robots, decl.WellFormed settings doc
  robots_nodup : doc.robotNames.Nodup
  areas : ∀ decl ∈ doc.areaDecls, decl.WellFormed doc
  areas_nodup : (doc.areaDecls.map AreaDecl.name).Nodup
  listed_nodup : doc.listedNames.Nodup

/-- A document describes a fleet. -/
structure Document.WellFormed (settings : Settings) (doc : Document) : Prop
    extends Document.SectionsWellFormed settings doc where
  endpoints_nodup : (doc.listedRobots.map (RobotDecl.endpoint settings)).Nodup
  services_nodup : (doc.serviceNames settings).Nodup

/-! ## Declarations in another document -/

variable {settings : Settings} {first second : Document}

/-- References stay well-formed as long as what they lead to is known. -/
theorem ReferencesWellFormed.of_known {known others references : List String}
    (wellFormed : ReferencesWellFormed known references)
    (kept : ∀ reference ∈ references, reference ∈ known → reference ∈ others) :
    ReferencesWellFormed others references where
  reference_ne := wellFormed.reference_ne
  nodup := wellFormed.nodup
  declared := fun reference member =>
    kept reference member (wellFormed.declared reference member)

theorem AreaDecl.WellFormed.of_known {decl : AreaDecl} (wellFormed : decl.WellFormed first)
    (kept : ∀ robot ∈ decl.members, robot ∈ first.robotNames → robot ∈ second.robotNames) :
    decl.WellFormed second where
  name_ne := wellFormed.name_ne
  members_ne := wellFormed.members_ne
  member_ne := wellFormed.member_ne
  member_declared := fun member isMember =>
    kept member isMember (wellFormed.member_declared member isMember)

/-- Fewer images and packages leave more names to globals. -/
theorem GlobalDecl.WellFormed.of_subset {decl : GlobalDecl} (wellFormed : decl.WellFormed first)
    (images : second.imageNames ⊆ first.imageNames)
    (packages : second.packageNames ⊆ first.packageNames) : decl.WellFormed second where
  name_ne := wellFormed.name_ne
  name_ne_image := fun member => wellFormed.name_ne_image (images member)
  name_ne_package := fun member => wellFormed.name_ne_package (packages member)

theorem RobotDecl.WellFormed.of_known {decl : RobotDecl}
    (wellFormed : decl.WellFormed settings first)
    (images : ∀ image ∈ decl.imageNames, image ∈ first.imageNames → image ∈ second.imageNames)
    (packages : ∀ package ∈ decl.packageNames,
      package ∈ first.packageNames → package ∈ second.packageNames) :
    decl.WellFormed settings second where
  name_ne := wellFormed.name_ne
  ros_ne := wellFormed.ros_ne
  ros := wellFormed.ros
  images := wellFormed.images.of_known images
  packages := wellFormed.packages.of_known packages
  runs := wellFormed.runs
  variable_name := wellFormed.variable_name
  variable_scalar := wellFormed.variable_scalar

end FleetCompose
