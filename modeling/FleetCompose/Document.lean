import FleetCompose.Yaml.Value

/-!
# Configuration documents

A document lists areas, robots, images, packages and globals as they were declared. Nothing
is checked here beyond the shape of the document: required texts may be absent, references
may lead nowhere, and what is not known by name is kept in `extra`.
-/

namespace FleetCompose

/-- A declared area and the robots it lists. -/
structure AreaDecl where
  id : Option String
  robots : Option (List String)

/-- The variables of a robot: a list of mappings, or one mapping. -/
inductive VarsDecl where
  | list (items : List Fields)
  | map (fields : Fields)

/-- The names and values of the variables, in the order of declaration. In the list form a
name may occur more than once. -/
def VarsDecl.entries : VarsDecl → List (String × Yaml.Value)
  | .list items => items.flatMap OrderedMap.entries
  | .map fields => fields.entries

/-- A declared robot. -/
structure RobotDecl where
  id : Option String
  ros : Option String
  images : Option (List String)
  packages : Option (List String)
  vars : Option VarsDecl
  extra : Fields

/-- A declared container image. -/
structure ImageDecl where
  id : Option String
  image : Option String
  extra : Fields

/-- A declared source package. -/
structure PackageDecl where
  id : Option String
  path : Option String
  command : Option String
  apt : Option (List String)
  git : Option (List String)
  rosinstall : Option String
  ssh : Option (List String)
  files : Option (List String)
  extra : Fields

/-- A declared service outside the robots. -/
structure GlobalDecl where
  id : Option String
  extra : Fields

/-- A configuration document. -/
structure Document where
  areas : Option (List AreaDecl)
  robots : List RobotDecl
  images : List ImageDecl
  packages : List PackageDecl
  globals : List GlobalDecl

/-- The document without any section. -/
def Document.empty : Document := ⟨none, [], [], [], []⟩

end FleetCompose
