import FleetCompose.Fleet.Load
import FleetCompose.Proofs.Sections

/-!
# The fleet that a document describes

The fleet of a document as a function of the document: no search, no renumbering, only
positions of names in lists of names. Putting the checked sections together gives this
fleet.
-/

namespace FleetCompose

/-! ## Picking by position -/

namespace Fleet

variable {α β : Type}

/-- Positions of keys lead back to the keys. -/
theorem map_getElem?_idxOf [DecidableEq β] {items : List α} {key : α → β} {known names : List β}
    (keys : items.map key = known) (declared : ∀ name ∈ names, name ∈ known) :
    (names.map (known.idxOf ·)).map (fun position => (items[position]?).map key) =
      names.map some := by
  subst keys
  rw [List.map_map]
  apply List.map_congr_left
  intro name member
  rw [Function.comp_apply, ← List.getElem?_map]
  exact List.getElem?_idxOf (declared name member)

/-- What is picked by positions of keys has these keys. -/
theorem map_pick_idxOf [DecidableEq β] {items : List α} {key : α → β} {known names : List β}
    (keys : items.map key = known) (declared : ∀ name ∈ names, name ∈ known) :
    (pick items (names.map (known.idxOf ·))).map key = names := by
  have found := map_getElem?_idxOf keys declared
  rw [pick, List.map_filterMap]
  calc
    (names.map (known.idxOf ·)).filterMap (fun position => (items[position]?).map key) =
        ((names.map (known.idxOf ·)).map fun position => (items[position]?).map key).filterMap
          id := by
      rw [List.filterMap_map (f := fun position => (items[position]?).map key)]
      rfl
    _ = (names.map some).filterMap id := by rw [found]
    _ = names := by simp

/-- Positions that are in range are all found. -/
theorem map_getElem?_eq_pick {items : List α} {positions : List Nat}
    (inRange : ∀ position ∈ positions, position < items.length) :
    positions.map (items[·]?) = (pick items positions).map some := by
  induction positions with
  | nil => rfl
  | cons position rest ih =>
      have first := List.getElem?_eq_getElem (inRange position (by simp))
      have later := ih fun other member => inRange other (by simp [member])
      rw [pick] at later
      simp [pick, first, later]

end Fleet

/-! ## The fleet -/

namespace Document

variable (settings : Settings) (doc : Document)

/-- The position of the area that lists a robot. -/
def areaPosition (robot : String) : Nat :=
  doc.areaDecls.findIdx fun decl => robot ∈ decl.members

/-- The ids of the listed robots, in the order of the document. -/
def fleetNames : List String := doc.listedRobots.map RobotDecl.name

end Document

/-- The robot in its place in the fleet. -/
def RobotDecl.placed (settings : Settings) (doc : Document) (decl : RobotDecl) : Robot where
  id := decl.name
  ros := decl.spec settings
  area := doc.areaPosition decl.name
  images := decl.imageNames.map (doc.imageNames.idxOf ·)
  packages := decl.packageNames.map (doc.packageNames.idxOf ·)
  vars := decl.varTexts
  extra := decl.extra

/-- The area with its robots as positions among the listed robots. -/
def AreaDecl.placed (doc : Document) (decl : AreaDecl) : Area where
  id := decl.name
  robots := decl.members.map (doc.fleetNames.idxOf ·)

/-- The fleet that a well-formed document describes. -/
def Document.fleet (settings : Settings) (doc : Document) : Fleet where
  areas := doc.areaDecls.map (AreaDecl.placed doc)
  robots := doc.listedRobots.map (RobotDecl.placed settings doc)
  images := doc.images.map ImageDecl.described
  packages := doc.packages.map PackageDecl.described
  globals := doc.globals.map GlobalDecl.described

namespace Document

variable {settings : Settings} {doc : Document}

theorem mem_listedRobots {decl : RobotDecl} :
    decl ∈ doc.listedRobots ↔ decl ∈ doc.robots ∧ decl.name ∈ doc.listedNames := by
  simp [listedRobots]

theorem mem_listedNames {robot : String} :
    robot ∈ doc.listedNames ↔ ∃ area ∈ doc.areaDecls, robot ∈ area.members := by
  simp [listedNames]

/-- Every listed name is the id of a listed robot. -/
theorem SectionsWellFormed.mem_fleetNames (wellFormed : doc.SectionsWellFormed settings)
    {robot : String} (listed : robot ∈ doc.listedNames) : robot ∈ doc.fleetNames := by
  rcases mem_listedNames.mp listed with ⟨area, areaMember, member⟩
  have declared := (wellFormed.areas area areaMember).member_declared robot member
  rcases List.mem_map.mp declared with ⟨decl, declMember, rfl⟩
  exact List.mem_map_of_mem (mem_listedRobots.mpr ⟨declMember, listed⟩)

end Document

/-! ## Putting the sections together -/

namespace Declarations

variable (settings : Settings) (doc : Document)

theorem isListed_described (decl : RobotDecl) :
    (doc.declarations settings).isListed (decl.described settings doc) =
      decide (decl.name ∈ doc.listedNames) := by
  rw [isListed, Bool.eq_iff_iff, decide_eq_true_eq, Option.isSome_iff_ne_none, ne_eq,
    ownerOf_eq_none_iff, Document.mem_listedNames]
  simp [Document.declarations, RobotDecl.described, AreaDecl.described]

theorem listedRobots_declarations :
    (doc.declarations settings).listedRobots =
      doc.listedRobots.map (RobotDecl.described settings doc) := by
  rw [listedRobots, Document.listedRobots, Document.declarations, List.filter_map]
  congr 1
  apply List.filter_congr
  intro decl _
  exact isListed_described settings doc decl

theorem robotPosition?_declarations {robot : String} (known : robot ∈ doc.fleetNames) :
    (doc.declarations settings).robotPosition? robot = some (doc.fleetNames.idxOf robot) := by
  rw [robotPosition?, listedRobots_declarations, List.findIdx?_map, Document.fleetNames,
    List.idxOf, ← List.findIdx?_eq_some_of_exists, List.findIdx?_map]
  · rfl
  · exact ⟨robot, known, by simp⟩

/-- Putting the sections of a well-formed document together gives the fleet that the document
describes. -/
theorem fleet_declarations {settings : Settings} {doc : Document}
    (wellFormed : doc.SectionsWellFormed settings) :
    (doc.declarations settings).fleet = doc.fleet settings := by
  have areas : ∀ decl ∈ doc.areaDecls,
      decl.members.filterMap (doc.declarations settings).robotPosition? =
        decl.members.map (doc.fleetNames.idxOf ·) := by
    intro decl declMember
    rw [← List.filterMap_eq_map]
    apply List.filterMap_congr
    intro robot member
    have listed := Document.mem_listedNames.mpr ⟨decl, declMember, member⟩
    exact robotPosition?_declarations settings doc (wellFormed.mem_fleetNames listed)
  have position : ∀ robot,
      (doc.declarations settings).areaPosition robot = doc.areaPosition robot := by
    intro robot
    rw [areaPosition, Document.areaPosition, Document.declarations, List.findIdx_map]
    rfl
  rw [fleet, Document.fleet, listedRobots_declarations]
  congr 1
  · rw [Document.declarations, List.map_map]
    apply List.map_congr_left
    intro decl member
    exact congrArg (Area.mk decl.name) (areas decl member)
  · rw [List.map_map]
    apply List.map_congr_left
    intro decl _
    simp only [Function.comp_apply, position]
    rfl

end Declarations

end FleetCompose
