import FleetCompose.Proofs.Acceptance

/-!
# Positions in a loaded fleet

Areas, robots, images and packages refer to each other by positions that are assigned while
the robots that no area lists are left out. This module states what the positions of a
loaded fleet mean: they are in range, the areas partition the robots, and read as names they
are the references of the document.
-/

namespace FleetCompose

/-! ## Fleets with sound positions -/

/-- The ids of one kind: trimmed, not empty, and distinct. -/
structure IdsSound (ids : List String) : Prop where
  trimmed : ∀ id ∈ ids, Text.trim id = id
  id_ne : ∀ id ∈ ids, id ≠ ""
  nodup : ids.Nodup

namespace Fleet

/-- Every position is in range. -/
structure InRange (fleet : Fleet) : Prop where
  robots_of_area : ∀ area ∈ fleet.areas, ∀ position ∈ area.robots,
    position < fleet.robots.length
  area_of_robot : ∀ robot ∈ fleet.robots, robot.area < fleet.areas.length
  images_of_robot : ∀ robot ∈ fleet.robots, ∀ position ∈ robot.images,
    position < fleet.images.length
  packages_of_robot : ∀ robot ∈ fleet.robots, ∀ position ∈ robot.packages,
    position < fleet.packages.length

/-- The areas partition the robots, and none of them is empty. -/
structure Partitioned (fleet : Fleet) : Prop where
  mem_area_iff : ∀ {i a : Nat} {robot : Robot} {area : Area}, fleet.robots[i]? = some robot →
    fleet.areas[a]? = some area → (i ∈ area.robots ↔ robot.area = a)
  each_once : (fleet.areas.flatMap Area.robots).Perm (List.range fleet.robots.length)
  area_ne : ∀ area ∈ fleet.areas, area.robots ≠ []

/-- The ids of every kind are sound. -/
structure Identified (fleet : Fleet) : Prop where
  areas : IdsSound (fleet.areas.map Area.id)
  robots : IdsSound (fleet.robots.map Robot.id)
  images : IdsSound (fleet.images.map Image.id)
  packages : IdsSound (fleet.packages.map Package.id)
  globals : IdsSound (fleet.globals.map Global.id)

/-- The look-ups that expanding performs all find an element: picking by position leaves
nothing out. -/
structure LookupsSucceed (fleet : Fleet) : Prop where
  robots_of_area : ∀ area ∈ fleet.areas,
    area.robots.map (fleet.robots[·]?) = (fleet.robotsOf area).map some
  images_of_robot : ∀ robot ∈ fleet.robots,
    robot.images.map (fleet.images[·]?) = (fleet.imagesOf robot).map some
  packages_of_robot : ∀ robot ∈ fleet.robots,
    robot.packages.map (fleet.packages[·]?) = (fleet.packagesOf robot).map some

end Fleet

/-! ## Positions and references -/

/-- Read as names, the positions of the area are what the declaration lists. -/
structure AreaDecl.ResolvedBy (fleet : Fleet) (decl : AreaDecl) (area : Area) : Prop where
  id_eq : area.id = decl.name
  robots : area.robots.map (fun position => (fleet.robots[position]?).map Robot.id) =
    decl.members.map some

/-- Read as names, the positions of the robot are the references of the declaration, and the
other fields are those of the declaration. -/
structure RobotDecl.ResolvedBy (settings : Settings) (fleet : Fleet) (decl : RobotDecl)
    (robot : Robot) : Prop where
  id_eq : robot.id = decl.name
  ros : RosSpec.parse settings (fieldText decl.ros) = .ok robot.ros
  images : robot.images.map (fun position => (fleet.images[position]?).map Image.id) =
    decl.imageNames.map some
  images_nodup : robot.images.Nodup
  packages : robot.packages.map (fun position => (fleet.packages[position]?).map Package.id) =
    decl.packageNames.map some
  packages_nodup : robot.packages.Nodup
  vars : robot.vars = decl.varTexts
  extra : robot.extra = decl.extra

/-- A fleet whose positions are sound and are the references of the document. -/
structure Document.ResolvedBy (settings : Settings) (doc : Document) (fleet : Fleet) : Prop where
  inRange : fleet.InRange
  partitioned : fleet.Partitioned
  identified : fleet.Identified
  lookups : fleet.LookupsSucceed
  areas : List.Forall₂ (AreaDecl.ResolvedBy fleet) doc.areaDecls fleet.areas
  robots : List.Forall₂ (RobotDecl.ResolvedBy settings fleet) doc.listedRobots fleet.robots

/-! ## Ids -/

/-- Ids are read as trimmed fields, so sound ids only have to be present and distinct. -/
theorem IdsSound.of_fieldText {α : Type} {decls : List α} (id : α → Option String)
    (present : ∀ decl ∈ decls, fieldText (id decl) ≠ "")
    (nodup : (decls.map fun decl => fieldText (id decl)).Nodup) :
    IdsSound (decls.map fun decl => fieldText (id decl)) where
  trimmed := by
    intro name member
    rcases List.mem_map.mp member with ⟨decl, -, rfl⟩
    exact Text.trim_trim _
  id_ne := by
    intro name member
    rcases List.mem_map.mp member with ⟨decl, declMember, rfl⟩
    exact present decl declMember
  nodup := nodup

/-! ## References as positions -/

namespace ReferencesWellFormed

variable {known references : List String} (wellFormed : ReferencesWellFormed known references)
include wellFormed

theorem lt_length {position : Nat} (member : position ∈ references.map (known.idxOf ·)) :
    position < known.length := by
  rcases List.mem_map.mp member with ⟨reference, referenceMember, rfl⟩
  exact List.idxOf_lt_length_iff.mpr (wellFormed.declared reference referenceMember)

/-- Distinct references have distinct positions. -/
theorem nodup_map_idxOf : (references.map (known.idxOf ·)).Nodup := by
  refine wellFormed.nodup.map_on fun first firstMember second _ equal => ?_
  exact (List.idxOf_inj (wellFormed.declared first firstMember)).mp equal

end ReferencesWellFormed

namespace Document

variable {settings : Settings} {doc : Document}

namespace SectionsWellFormed

variable (wellFormed : doc.SectionsWellFormed settings)
include wellFormed

/-! ## Names of listed robots -/

theorem fleetNames_nodup : doc.fleetNames.Nodup := by
  have sublist : (doc.listedRobots.map RobotDecl.name).Sublist doc.robotNames :=
    List.filter_sublist.map RobotDecl.name
  exact wellFormed.robots_nodup.sublist sublist

theorem mem_fleetNames_iff {robot : String} :
    robot ∈ doc.fleetNames ↔ robot ∈ doc.listedNames := by
  constructor
  · intro member
    rcases List.mem_map.mp member with ⟨decl, declMember, rfl⟩
    exact (mem_listedRobots.mp declMember).2
  · exact wellFormed.mem_fleetNames

theorem listedNames_perm : doc.listedNames.Perm doc.fleetNames := by
  rw [List.perm_ext_iff_of_nodup wellFormed.listed_nodup wellFormed.fleetNames_nodup]
  exact fun _ => wellFormed.mem_fleetNames_iff.symm

theorem mem_fleetNames_of_mem_members {decl : AreaDecl} (declared : decl ∈ doc.areaDecls)
    {robot : String} (member : robot ∈ decl.members) : robot ∈ doc.fleetNames :=
  wellFormed.mem_fleetNames (mem_listedNames.mpr ⟨decl, declared, member⟩)

/-! ## Positions of areas -/

/-- The position of the area that lists a robot is the position of any area that does: no
robot is listed by two areas. -/
theorem areaPosition_eq_iff {a : Nat} {decl : AreaDecl} (found : doc.areaDecls[a]? = some decl)
    {robot : String} : doc.areaPosition robot = a ↔ robot ∈ decl.members := by
  rcases List.getElem?_eq_some_iff.mp found with ⟨inRange, rfl⟩
  constructor
  · intro equal
    subst equal
    exact of_decide_eq_true (List.findIdx_getElem (w := inRange))
  · intro member
    have disjoint := (List.nodup_flatMap.mp wellFormed.listed_nodup).2
    rw [areaPosition, List.findIdx_eq inRange]
    refine ⟨by simpa using member, fun earlier before => ?_⟩
    have apart := List.pairwise_iff_getElem.mp disjoint earlier a (by omega) inRange before
    simpa using fun listed => apart listed member

/-! ## Positions of robots -/

/-- An area has the position of a listed robot exactly if it lists the robot. -/
theorem mem_placed_iff {decl : AreaDecl} (declared : decl ∈ doc.areaDecls) {i : Nat}
    {robot : String} (found : doc.fleetNames[i]? = some robot) :
    i ∈ (decl.placed doc).robots ↔ robot ∈ decl.members := by
  constructor
  · intro position
    rcases List.mem_map.mp position with ⟨member, listed, rfl⟩
    rw [List.getElem?_idxOf (wellFormed.mem_fleetNames_of_mem_members declared listed),
      Option.some.injEq] at found
    rwa [← found]
  · intro listed
    rcases List.getElem?_eq_some_iff.mp found with ⟨inRange, rfl⟩
    exact List.mem_map.mpr ⟨_, listed, wellFormed.fleetNames_nodup.idxOf_getElem i inRange⟩

/-- Counted by names, the listed robots have the positions from zero on. -/
theorem map_idxOf_fleetNames :
    doc.fleetNames.map (doc.fleetNames.idxOf ·) = List.range doc.fleetNames.length := by
  apply List.ext_getElem
  · simp
  · intro i inRange _
    rw [List.getElem_map, List.getElem_range]
    exact wellFormed.fleetNames_nodup.idxOf_getElem i (by simpa using inRange)

theorem partitioned : (doc.fleet settings).Partitioned where
  mem_area_iff := by
    intro i a robot area robotFound areaFound
    simp only [fleet, List.getElem?_map, Option.map_eq_some_iff] at robotFound areaFound
    rcases robotFound with ⟨robotDecl, robotFound, rfl⟩
    rcases areaFound with ⟨areaDecl, areaFound, rfl⟩
    have named : doc.fleetNames[i]? = some robotDecl.name := by
      rw [fleetNames, List.getElem?_map, robotFound]
      rfl
    rw [wellFormed.mem_placed_iff (List.mem_of_getElem? areaFound) named]
    exact (wellFormed.areaPosition_eq_iff areaFound).symm
  each_once := by
    have positions : (doc.fleet settings).areas.flatMap Area.robots =
        doc.listedNames.map (doc.fleetNames.idxOf ·) := by
      rw [fleet, List.flatMap_map, listedNames, List.map_flatMap]
      rfl
    have length : (doc.fleet settings).robots.length = doc.fleetNames.length := by
      simp [fleet, fleetNames]
    rw [positions, length, ← wellFormed.map_idxOf_fleetNames]
    exact wellFormed.listedNames_perm.map _
  area_ne := by
    intro area member
    rcases List.mem_map.mp member with ⟨decl, declared, rfl⟩
    simpa [AreaDecl.placed] using (wellFormed.areas decl declared).members_ne

/-! ## Ranges and look-ups -/

theorem inRange : (doc.fleet settings).InRange where
  robots_of_area := by
    intro area member position listed
    rcases List.mem_map.mp member with ⟨decl, declared, rfl⟩
    rcases List.mem_map.mp listed with ⟨robot, robotMember, rfl⟩
    have known := wellFormed.mem_fleetNames_of_mem_members declared robotMember
    simpa [fleet, fleetNames] using List.idxOf_lt_length_iff.mpr known
  area_of_robot := by
    intro robot member
    rcases List.mem_map.mp member with ⟨decl, declared, rfl⟩
    rcases mem_listedNames.mp (mem_listedRobots.mp declared).2 with ⟨area, areaMember, listed⟩
    rw [fleet, List.length_map]
    exact List.findIdx_lt_length_of_exists ⟨area, areaMember, decide_eq_true listed⟩
  images_of_robot := by
    intro robot member position referenced
    rcases List.mem_map.mp member with ⟨decl, declared, rfl⟩
    have references := (wellFormed.robots decl (mem_listedRobots.mp declared).1).images
    simpa [fleet, imageNames] using references.lt_length referenced
  packages_of_robot := by
    intro robot member position referenced
    rcases List.mem_map.mp member with ⟨decl, declared, rfl⟩
    have references := (wellFormed.robots decl (mem_listedRobots.mp declared).1).packages
    simpa [fleet, packageNames] using references.lt_length referenced

/-! ## Ids of the fleet -/

theorem identified : (doc.fleet settings).Identified where
  areas := by
    simp only [fleet, List.map_map]
    exact .of_fieldText AreaDecl.id (fun decl member => (wellFormed.areas decl member).name_ne)
      wellFormed.areas_nodup
  robots := by
    simp only [fleet, List.map_map]
    exact .of_fieldText RobotDecl.id
      (fun decl member =>
        (wellFormed.robots decl (mem_listedRobots.mp member).1).name_ne)
      wellFormed.fleetNames_nodup
  images := by
    simp only [fleet, List.map_map]
    exact .of_fieldText ImageDecl.id (fun decl member => (wellFormed.images decl member).name_ne)
      wellFormed.images_nodup
  packages := by
    simp only [fleet, List.map_map]
    exact .of_fieldText PackageDecl.id
      (fun decl member => (wellFormed.packages decl member).name_ne) wellFormed.packages_nodup
  globals := by
    simp only [fleet, List.map_map]
    exact .of_fieldText GlobalDecl.id
      (fun decl member => (wellFormed.globals decl member).name_ne) wellFormed.globals_nodup

end SectionsWellFormed

end Document

/-- Positions in range are found by every look-up. -/
theorem Fleet.InRange.lookupsSucceed {fleet : Fleet} (inRange : fleet.InRange) :
    fleet.LookupsSucceed where
  robots_of_area := fun area member =>
    Fleet.map_getElem?_eq_pick (inRange.robots_of_area area member)
  images_of_robot := fun robot member =>
    Fleet.map_getElem?_eq_pick (inRange.images_of_robot robot member)
  packages_of_robot := fun robot member =>
    Fleet.map_getElem?_eq_pick (inRange.packages_of_robot robot member)

/-! ## References of the document -/

namespace Document

variable {settings : Settings} {doc : Document}

namespace SectionsWellFormed

variable (wellFormed : doc.SectionsWellFormed settings)
include wellFormed

theorem resolvedBy_areaPlaced {decl : AreaDecl} (declared : decl ∈ doc.areaDecls) :
    decl.ResolvedBy (doc.fleet settings) (decl.placed doc) where
  id_eq := rfl
  robots := by
    have names : (doc.fleet settings).robots.map Robot.id = doc.fleetNames := by
      rw [fleet, List.map_map]
      rfl
    apply Fleet.map_getElem?_idxOf names
    exact fun robot => wellFormed.mem_fleetNames_of_mem_members declared

theorem resolvedBy_robotPlaced {decl : RobotDecl} (declared : decl ∈ doc.robots) :
    decl.ResolvedBy settings (doc.fleet settings) (decl.placed settings doc) where
  id_eq := rfl
  ros := RosSpec.parse_eq_ok_iff.mpr ⟨(wellFormed.robots decl declared).ros, rfl⟩
  images :=
    Fleet.map_getElem?_idxOf (Declarations.map_id_images doc)
      (wellFormed.robots decl declared).images.declared
  images_nodup := (wellFormed.robots decl declared).images.nodup_map_idxOf
  packages :=
    Fleet.map_getElem?_idxOf (Declarations.map_id_packages doc)
      (wellFormed.robots decl declared).packages.declared
  packages_nodup := (wellFormed.robots decl declared).packages.nodup_map_idxOf
  vars := rfl
  extra := rfl

/-- The positions of the fleet are sound and are the references of the document. -/
theorem resolvedBy_fleet : doc.ResolvedBy settings (doc.fleet settings) where
  inRange := wellFormed.inRange
  partitioned := wellFormed.partitioned
  identified := wellFormed.identified
  lookups := wellFormed.inRange.lookupsSucceed
  areas := by
    rw [fleet, List.forall₂_map_right_iff, List.forall₂_same]
    exact fun decl declared => wellFormed.resolvedBy_areaPlaced declared
  robots := by
    rw [fleet, List.forall₂_map_right_iff, List.forall₂_same]
    exact fun decl listed => wellFormed.resolvedBy_robotPlaced (mem_listedRobots.mp listed).1

end SectionsWellFormed

end Document

end FleetCompose
