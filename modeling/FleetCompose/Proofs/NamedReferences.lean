import FleetCompose.Proofs.Expansion
import FleetCompose.Proofs.KeyedLists

/-!
# References followed by name

A fleet follows its references by position, and the positions depend on the order of the
sections. A reference may as well be followed by looking its name up among the declarations.
This module restates a loaded fleet in this way: what an area lists and what a robot runs are
declarations that are found by name.
-/

namespace FleetCompose

namespace Document

variable (doc : Document)

/-- The declaration of a robot. -/
def robotDecl? (name : String) : Option RobotDecl :=
  doc.robots.find? fun decl => decl.name == name

/-- The declaration of an image. -/
def imageDecl? (name : String) : Option ImageDecl :=
  doc.images.find? fun decl => decl.name == name

/-- The declaration of a package. -/
def packageDecl? (name : String) : Option PackageDecl :=
  doc.packages.find? fun decl => decl.name == name

end Document

/-- The robots that an area lists, in the order of the area. -/
def AreaDecl.robotDecls (doc : Document) (decl : AreaDecl) : List RobotDecl :=
  decl.members.filterMap doc.robotDecl?

/-- The images of a robot, in the order of its references. -/
def RobotDecl.imageDecls (doc : Document) (decl : RobotDecl) : List ImageDecl :=
  decl.imageNames.filterMap doc.imageDecl?

/-- The packages of a robot, in the order of its references. -/
def RobotDecl.packageDecls (doc : Document) (decl : RobotDecl) : List PackageDecl :=
  decl.packageNames.filterMap doc.packageDecl?

/-- The listed robots, area by area and in the order of the areas. -/
def Document.orderedRobots (doc : Document) : List RobotDecl :=
  doc.areaDecls.flatMap (AreaDecl.robotDecls doc)

/-! ## What a fleet picks -/

/-- Picking by the positions of names is looking the names up. -/
theorem Fleet.pick_map_idxOf {α β γ : Type} [DecidableEq β] (decls : List α) (key : α → β)
    (image : α → γ) (names : List β) :
    pick (decls.map image) (names.map ((decls.map key).idxOf ·)) =
      (names.filterMap fun name => decls.find? fun decl => key decl == name).map image := by
  rw [pick, List.filterMap_map, List.map_filterMap]
  apply List.filterMap_congr
  intro name _
  rw [Function.comp_apply, List.getElem?_map, getElem?_idxOf_map]

namespace Document

variable {settings : Settings} {doc : Document}

theorem imagesOf_placed (decl : RobotDecl) :
    (doc.fleet settings).imagesOf (decl.placed settings doc) =
      (decl.imageDecls doc).map ImageDecl.described :=
  Fleet.pick_map_idxOf doc.images ImageDecl.name ImageDecl.described decl.imageNames

theorem packagesOf_placed (decl : RobotDecl) :
    (doc.fleet settings).packagesOf (decl.placed settings doc) =
      (decl.packageDecls doc).map PackageDecl.described :=
  Fleet.pick_map_idxOf doc.packages PackageDecl.name PackageDecl.described decl.packageNames

/-- A listed robot is found among the listed ones. -/
theorem find?_listedRobots {robot : String} (listed : robot ∈ doc.listedNames) :
    (doc.listedRobots.find? fun decl => decl.name == robot) = doc.robotDecl? robot :=
  find?_filter_key (· ∈ doc.listedNames) (decide_eq_true listed)

theorem robotsOf_placed {area : AreaDecl} (declared : area ∈ doc.areaDecls) :
    (doc.fleet settings).robotsOf (area.placed doc) =
      (area.robotDecls doc).map (RobotDecl.placed settings doc) := by
  have picked := Fleet.pick_map_idxOf doc.listedRobots RobotDecl.name
    (RobotDecl.placed settings doc) area.members
  refine picked.trans (congrArg (List.map _) ?_)
  rw [AreaDecl.robotDecls]
  apply List.filterMap_congr
  intro robot member
  exact find?_listedRobots (mem_listedNames.mpr ⟨area, declared, member⟩)

/-- The copies of a fleet are made area by area, from the robots that the area lists. -/
theorem areas_copy : (doc.fleet settings).copy.areas =
    doc.areaDecls.map fun area => ⟨area.name, (area.robotDecls doc).map fun decl =>
      (doc.fleet settings).copyOf area.name (decl.placed settings doc)⟩ := by
  have areas : (doc.fleet settings).copy.areas =
      doc.areaDecls.map fun area => ⟨area.name, ((doc.fleet settings).robotsOf
        (area.placed doc)).map ((doc.fleet settings).copyOf area.name)⟩ :=
    List.map_map
  rw [areas]
  apply List.map_congr_left
  intro area declared
  rw [robotsOf_placed declared, List.map_map]
  rfl

theorem robots_copy : (doc.fleet settings).copy.robots =
    doc.areaDecls.flatMap fun area => (area.robotDecls doc).map fun decl =>
      (doc.fleet settings).copyOf area.name (decl.placed settings doc) := by
  rw [ExpandedFleet.robots, areas_copy, List.flatMap_map]

/-- The texts of a fleet are met in the same order. -/
theorem texts_fleet : (doc.fleet settings).texts =
    doc.areaDecls.flatMap fun area => (area.robotDecls doc).flatMap fun decl =>
      (doc.fleet settings).textsOf area.name (decl.placed settings doc) := by
  have areas : (doc.fleet settings).texts =
      doc.areaDecls.flatMap fun area => ((doc.fleet settings).robotsOf (area.placed doc)).flatMap
        ((doc.fleet settings).textsOf area.name) :=
    List.flatMap_map _ _ _
  rw [areas]
  apply List.flatMap_congr
  intro area declared
  rw [robotsOf_placed declared, List.flatMap_map]

/-! ## Declared robots -/

theorem orderedRobots_eq : doc.orderedRobots = doc.listedNames.filterMap doc.robotDecl? := by
  rw [listedNames, List.filterMap_flatMap]
  rfl

theorem mem_robots_of_mem_robotDecls {area : AreaDecl} {decl : RobotDecl}
    (member : decl ∈ area.robotDecls doc) : decl ∈ doc.robots := by
  rcases List.mem_filterMap.mp member with ⟨robot, -, found⟩
  exact List.mem_of_find?_eq_some found

namespace SectionsWellFormed

variable (wellFormed : doc.SectionsWellFormed settings)
include wellFormed

/-- A name leads to the robot that has it. -/
theorem robotDecl?_eq_some_iff {robot : String} {decl : RobotDecl} :
    doc.robotDecl? robot = some decl ↔ decl ∈ doc.robots ∧ decl.name = robot :=
  find?_key_eq_some_iff wellFormed.robots_nodup

/-- Every name that an area lists stands for a robot. -/
theorem map_name_orderedRobots : doc.orderedRobots.map RobotDecl.name = doc.listedNames := by
  have named : ∀ robot ∈ doc.listedNames,
      (doc.robotDecl? robot).map RobotDecl.name = some robot := by
    intro robot listed
    rcases List.mem_map.mp (wellFormed.mem_fleetNames listed) with ⟨decl, member, named⟩
    have declared := (mem_listedRobots.mp member).1
    rw [wellFormed.robotDecl?_eq_some_iff.mpr ⟨declared, named⟩, Option.map_some, named]
  rw [orderedRobots_eq, List.map_filterMap, List.filterMap_congr named, List.filterMap_some]

theorem map_id_robots_copy :
    (doc.fleet settings).copy.robots.map ExpandedRobot.id = doc.listedNames := by
  rw [robots_copy, List.map_flatMap, ← wellFormed.map_name_orderedRobots, orderedRobots,
    List.map_flatMap]
  apply List.flatMap_congr
  intro area _
  rw [List.map_map]
  rfl

theorem nodup_id_robots_copy :
    ((doc.fleet settings).copy.robots.map ExpandedRobot.id).Nodup := by
  rw [wellFormed.map_id_robots_copy]
  exact wellFormed.listed_nodup

/-- The listed robots in the order of the areas are those in the order of the document. -/
theorem orderedRobots_perm : doc.orderedRobots.Perm doc.listedRobots := by
  have found : ∀ decl ∈ doc.listedRobots, doc.robotDecl? decl.name = some decl := by
    intro decl listed
    exact wellFormed.robotDecl?_eq_some_iff.mpr ⟨(mem_listedRobots.mp listed).1, rfl⟩
  have listed : doc.fleetNames.filterMap doc.robotDecl? = doc.listedRobots := by
    rw [fleetNames, List.filterMap_map]
    exact (List.filterMap_congr found).trans List.filterMap_some
  rw [orderedRobots_eq, ← listed]
  exact wellFormed.listedNames_perm.filterMap _

end SectionsWellFormed

end Document

end FleetCompose
