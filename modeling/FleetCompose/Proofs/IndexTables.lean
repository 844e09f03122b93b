import FleetCompose.Proofs.Positions

/-!
# Loading with index tables

A fleet can be put together with two tables. One leads from robots to the positions of the
areas that list them and is filled while the areas are checked; the other leads from robots
to their positions in the fleet and is filled while unlisted robots are left out. Both are
read without asking whether the entry is there. This module loads documents in that way,
with `none` for a look-up that finds nothing, and shows that there is no such look-up: the
outcome is the one of `loadFleet` for every document, accepted or not.
-/

namespace FleetCompose

variable {α β ε σ : Type}

/-! ## Checks with look-ups -/

/-- A check without look-ups. -/
def checked (check : Except ε α) : ExceptT ε Option α := ExceptT.mk (some check)

theorem pure_eq_checked (value : α) :
    (pure value : ExceptT ε Option α) = checked (.ok value) := rfl

theorem throw_eq_checked (failure : ε) :
    (throw failure : ExceptT ε Option α) = checked (.error failure) := rfl

theorem lift_some_eq_checked (value : α) :
    (ExceptT.lift (some value) : ExceptT ε Option α) = checked (.ok value) := rfl

@[simp] theorem checked_ok_bind (value : α) (next : α → ExceptT ε Option β) :
    (checked (.ok value) >>= next) = next value := rfl

theorem checked_bind (first : Except ε α) (next : α → Except ε β) :
    checked (first >>= next) = checked first >>= fun value => checked (next value) := by
  cases first <;> rfl

@[simp] theorem map_checked (image : α → β) (check : Except ε α) :
    image <$> checked check = checked (check.map image) := by
  cases check <;> rfl

/-- A loop over a state that only depends on what was accepted so far is the loop that
accumulates, if the steps agree wherever the invariant `Good` holds. -/
theorem foldlM_eq_checked_accumulate {step : List β → α → Except ε β} {view : List β → σ}
    {tabled : σ → α → ExceptT ε Option σ} (Good : List β → Prop)
    (steps : ∀ accepted entry, Good accepted → tabled (view accepted) entry =
      checked ((step accepted entry).map fun image => view (accepted ++ [image])))
    (preserved : ∀ accepted entry image, Good accepted → step accepted entry = .ok image →
      Good (accepted ++ [image]))
    (accepted : List β) (good : Good accepted) (entries : List α) :
    entries.foldlM tabled (view accepted) =
      checked ((accumulate step accepted entries).map view) := by
  induction entries generalizing accepted with
  | nil => rfl
  | cons entry rest ih =>
      rw [List.foldlM_cons, steps accepted entry good, accumulate]
      cases stepped : step accepted entry with
      | error failure => rfl
      | ok image =>
          exact ih (accepted ++ [image]) (preserved accepted entry image good stepped)

/-- Look-ups that all find an entry leave nothing out. -/
theorem mapM_eq_some_filterMap {find : α → Option β} {entries : List α}
    (found : ∀ entry ∈ entries, (find entry).isSome = true) :
    entries.mapM find = some (entries.filterMap find) := by
  induction entries with
  | nil => rfl
  | cons entry rest ih =>
      rcases Option.isSome_iff_exists.mp (found entry (by simp)) with ⟨image, first⟩
      have later := ih fun other member => found other (by simp [member])
      simp [List.mapM_cons, first, later]

/-! ## Tables of positions -/

namespace OrderedMap

theorem insertAll_append (table : OrderedMap String Nat) (first second : List (String × Nat)) :
    table.insertAll (first ++ second) = (table.insertAll first).insertAll second :=
  List.foldl_append

/-- Entering one value under several keys. -/
theorem get?_insertAll_const (table : OrderedMap String Nat) (keys : List String) (value : Nat)
    (key : String) :
    (table.insertAll (keys.map fun other => (other, value))).get? key =
      if key ∈ keys then some value else table.get? key := by
  induction keys generalizing table with
  | nil => simp [insertAll]
  | cons other rest ih =>
      rw [List.map_cons, ← List.singleton_append, insertAll_append, ih]
      by_cases later : key ∈ rest
      · simp [later]
      · by_cases here : key = other <;> simp [insertAll, get?_insert, later, here]

/-- The table that leads from the members of lists to the positions of the lists. -/
def ofLists (lists : List (List String)) : OrderedMap String Nat :=
  ofList (lists.zipIdx.flatMap fun (members, position) =>
    members.map fun member => (member, position))

theorem ofLists_concat (lists : List (List String)) (members : List String) :
    ofLists (lists ++ [members]) =
      (ofLists lists).insertAll (members.map fun member => (member, lists.length)) := by
  rw [ofLists, List.zipIdx_append, List.flatMap_append, ofList, insertAll_append]
  simp [ofLists, ofList]

/-- Lists without a common member are found under each of their members. -/
theorem get?_ofLists {lists : List (List String)} (disjoint : lists.Pairwise List.Disjoint)
    (key : String) : (ofLists lists).get? key = lists.findIdx? fun members => key ∈ members := by
  -- The table is filled from the front, so the list that was entered last is taken off first.
  induction lists using List.reverseRecOn with
  | nil => rfl
  | append_singleton lists members ih =>
      rw [List.pairwise_append] at disjoint
      rcases disjoint with ⟨earlier, -, apart⟩
      rw [ofLists_concat, get?_insertAll_const, ih earlier, List.findIdx?_append]
      by_cases listed : key ∈ members
      · have free : lists.findIdx? (fun other => key ∈ other) = none := by
          rw [List.findIdx?_eq_none_iff]
          intro other member
          exact decide_eq_false fun shared => apart other member members (by simp) shared listed
        simp [listed, free]
      · simp [listed]

end OrderedMap

namespace Declarations

/-! ## Areas with a table of owners -/

/-- Check one robot that an area lists, and enter the position of the area under it. The
area itself is not among the accepted ones yet. -/
def claimMember (robots : List String) (areas : List Membership) (area : String)
    (state : List String × OrderedMap String Nat) (written : String) :
    ExceptT LoadError Option (List String × OrderedMap String Nat) :=
  let robot := Text.trim written
  if robot.isEmpty then
    throw (.missingField .area (some area) (.item "robots" state.1.length))
  else if robot ∈ state.1 then
    throw (.duplicateId .robot robot (some (.area area)))
  else if robot ∉ robots then
    throw (.unresolved .area area .robot robot (Text.similarNames robots robot))
  else
    match state.2.get? robot with
    | none => return (state.1 ++ [robot], state.2.insert robot areas.length)
    | some position => do
        let owner ← ExceptT.lift areas[position]?
        throw (.conflicting .robot robot (.listedTwice owner.id area))

/-- Check one area. -/
def claimArea (robots : List String) (state : List Membership × OrderedMap String Nat)
    (decl : AreaDecl) : ExceptT LoadError Option (List Membership × OrderedMap String Nat) := do
  let id ← checked (required decl.id .area none "id")
  checked (refuseRepeated (state.1.map Membership.id) id (.duplicateId .area id none))
  let listed := decl.robots.getD []
  if listed.isEmpty then throw (.missingField .area (some id) (.field "robots"))
  let (members, owners) ← listed.foldlM (claimMember robots state.1 id) ([], state.2)
  return (state.1 ++ [⟨id, members⟩], owners)

/-- The table of owners that belongs to accepted areas. -/
def owners (areas : List Membership) : OrderedMap String Nat :=
  .ofLists (areas.map Membership.robots)

/-- The table while an area is being checked: the robots that it has claimed so far lead to
the position that it is going to have. -/
def claimed (areas : List Membership) (members : List String) :
    List String × OrderedMap String Nat :=
  (members, (owners areas).insertAll (members.map fun member => (member, areas.length)))

@[simp] theorem claimed_fst (areas : List Membership) (members : List String) :
    (claimed areas members).1 = members := rfl

theorem owners_concat (areas : List Membership) (area : Membership) :
    owners (areas ++ [area]) = (claimed areas area.robots).2 := by
  rw [owners, List.map_append, List.map_singleton, OrderedMap.ofLists_concat, List.length_map]
  rfl

theorem claimed_concat (areas : List Membership) (members : List String) (robot : String) :
    claimed areas (members ++ [robot]) =
      (members ++ [robot], (claimed areas members).2.insert robot areas.length) := by
  rw [claimed, List.map_append, OrderedMap.insertAll_append]
  rfl

/-- What keeps the table of owners faithful: no two areas list a common robot. -/
def AreasDisjoint (areas : List Membership) : Prop :=
  areas.Pairwise fun first second => first.robots.Disjoint second.robots

theorem get?_owners {areas : List Membership} (disjoint : AreasDisjoint areas)
    (robot : String) :
    (owners areas).get? robot = areas.findIdx? fun area => robot ∈ area.robots := by
  rw [owners, OrderedMap.get?_ofLists (List.pairwise_map.mpr disjoint), List.findIdx?_map]
  rfl

/-- The area that the table names is there, and it is the one that lists the robot. The
robot is new to the area that is being checked, or else the table would name that area. -/
theorem getElem?_owner {areas : List Membership} (disjoint : AreasDisjoint areas)
    {members : List String} {robot : String} (fresh : robot ∉ members) :
    ((claimed areas members).2.get? robot).map (areas[·]?) =
      (ownerOf areas robot).map some := by
  rw [claimed, OrderedMap.get?_insertAll_const, if_neg fresh, get?_owners disjoint, ownerOf,
    List.find?_eq_bind_findIdx?_getElem?]
  cases found : areas.findIdx? fun area => robot ∈ area.robots with
  | none => rfl
  | some position =>
      rcases List.findIdx?_eq_some_iff_getElem.mp found with ⟨inRange, -⟩
      simp [List.getElem?_eq_getElem inRange]

theorem claimMember_claimed {areas : List Membership} (disjoint : AreasDisjoint areas)
    (robots : List String) (area : String) (members : List String) (written : String) :
    claimMember robots areas area (claimed areas members) written =
      checked ((checkMember robots areas area members written).map fun robot =>
        claimed areas (members ++ [robot])) := by
  rw [claimMember, checkMember]
  generalize Text.trim written = robot
  by_cases empty : robot = ""
  · simp [empty, throw_eq_checked]
  · by_cases taken : robot ∈ members
    · simp [empty, taken, throw_eq_checked]
    · by_cases declared : robot ∈ robots
      · have owner := getElem?_owner disjoint taken
        cases listed : ownerOf areas robot with
        | none =>
            rw [listed, Option.map_none, Option.map_eq_none_iff] at owner
            simp [empty, taken, declared, owner, claimed_concat, pure_eq_checked]
        | some other =>
            rw [listed, Option.map_some, Option.map_eq_some_iff] at owner
            rcases owner with ⟨position, entry, found⟩
            simp [empty, taken, declared, entry, found, lift_some_eq_checked, throw_eq_checked]
      · simp [empty, taken, declared, throw_eq_checked]

/-- A member of the new area is not a robot of an earlier one. -/
theorem AreasDisjoint.concat {areas : List Membership} (disjoint : AreasDisjoint areas)
    {robots : List String} {decl : AreaDecl} {area : Membership}
    (accepted : checkArea robots areas decl = .ok area) : AreasDisjoint (areas ++ [area]) := by
  simp only [checkArea, bind_eq_ok_iff, refuse_eq_ok_iff,
    (checkMember_reads _ _ _).keyed_eq_ok_iff id, pure_eq_ok_iff] at accepted
  rcases accepted with ⟨id, -, -, -, -, members, ⟨accepts, -, rfl⟩, rfl⟩
  rw [AreasDisjoint, List.pairwise_append]
  refine ⟨disjoint, List.pairwise_singleton _ _, fun earlier member last only => ?_⟩
  obtain rfl := List.mem_singleton.mp only
  intro robot owned listed
  rcases List.mem_map.mp listed with ⟨written, writtenMember, rfl⟩
  exact (accepts written writtenMember).2.2 earlier member owned

/-- One area, checked with the table. -/
theorem claimArea_owners {areas : List Membership} (disjoint : AreasDisjoint areas)
    (robots : List String) (decl : AreaDecl) :
    claimArea robots (areas, owners areas) decl =
      checked ((checkArea robots areas decl).map fun area =>
        (areas ++ [area], owners (areas ++ [area]))) := by
  -- The members need no invariant of their own: the areas before this one stay as they are.
  have members := fun id => foldlM_eq_checked_accumulate (fun _ => True)
    (fun accepted written _ => claimMember_claimed disjoint robots id accepted written)
    (fun _ _ _ _ _ => trivial) [] trivial (decl.robots.getD [])
  have start : claimed areas [] = ([], owners areas) := rfl
  rw [start] at members
  rw [claimArea, checkArea]
  cases required decl.id .area none "id" with
  | error failure => rfl
  | ok id =>
      simp only [checked_ok_bind, ok_bind, members id]
      cases refuseRepeated (areas.map Membership.id) id (.duplicateId .area id none) with
      | error failure => rfl
      | ok answer =>
          by_cases empty : (decl.robots.getD []).isEmpty = true
          · simp only [empty]
            rfl
          · cases accumulate (checkMember robots areas id) [] (decl.robots.getD []) with
            | error failure => simp [empty]
            | ok members => simp [empty, owners_concat, claimed, pure_eq_checked]

/-- All areas, checked with the table. -/
theorem foldlM_claimArea (robots : List String) (decls : List AreaDecl) :
    decls.foldlM (claimArea robots) ([], OrderedMap.empty) =
      checked ((checkAreas robots decls).map fun areas => (areas, owners areas)) :=
  foldlM_eq_checked_accumulate AreasDisjoint
    (fun _ decl disjoint => claimArea_owners disjoint robots decl)
    (fun _ _ _ disjoint accepted => disjoint.concat accepted) [] List.Pairwise.nil decls

/-! ## Robots with a table of positions -/

/-- Append a robot that some area lists, and enter its position under its id. -/
def placeRobot (owners : OrderedMap String Nat) (state : List Robot × OrderedMap String Nat)
    (robot : CheckedRobot) : List Robot × OrderedMap String Nat :=
  match owners.get? robot.id with
  | none => state
  | some area =>
      (state.1 ++ [⟨robot.id, robot.ros, area, robot.images, robot.packages, robot.vars,
          robot.extra⟩],
        state.2.insert robot.id state.1.length)

/-- Put the listed robots together with their areas. -/
def tabledFleet (decls : Declarations) (owners : OrderedMap String Nat) : Option Fleet := do
  let (robots, positions) := decls.robots.foldl (placeRobot owners) ([], OrderedMap.empty)
  let areas ← decls.areas.mapM fun area =>
    (area.robots.mapM positions.get?).map (Area.mk area.id)
  return ⟨areas, robots, decls.images, decls.packages, decls.globals⟩

/-- A robot in its place. -/
def placed (decls : Declarations) (robot : CheckedRobot) : Robot :=
  ⟨robot.id, robot.ros, decls.areaPosition robot.id, robot.images, robot.packages, robot.vars,
    robot.extra⟩

/-- Robots in their places, with the table of their positions. -/
def placedAll (decls : Declarations) (robots : List CheckedRobot) :
    List Robot × OrderedMap String Nat :=
  (robots.map decls.placed, .ofLists (robots.map fun robot => [robot.id]))

/-- The table of owners names the area of a robot exactly if the robot is listed. -/
theorem get?_owners_id {decls : Declarations} (disjoint : AreasDisjoint decls.areas)
    (robot : CheckedRobot) :
    (owners decls.areas).get? robot.id =
      if decls.isListed robot then some (decls.areaPosition robot.id) else none := by
  rw [get?_owners disjoint, isListed, ownerOf, List.isSome_find?, ← List.findIdx?_isSome]
  cases found : decls.areas.findIdx? fun area => robot.id ∈ area.robots with
  | none => rfl
  | some position =>
      have first := (List.findIdx?_eq_some_iff_findIdx_eq.mp found).2
      simp [areaPosition, first]

/-- One robot: it is appended if it is listed, and left out otherwise. -/
theorem placeRobot_placedAll {decls : Declarations} (disjoint : AreasDisjoint decls.areas)
    (robots : List CheckedRobot) (robot : CheckedRobot) :
    placeRobot (owners decls.areas) (decls.placedAll robots) robot =
      decls.placedAll (robots ++ [robot].filter decls.isListed) := by
  rw [placeRobot, get?_owners_id disjoint]
  by_cases listed : decls.isListed robot = true
  · simp [listed, placedAll, placed, OrderedMap.ofLists_concat, OrderedMap.insertAll]
  · simp [listed]

/-- All robots: the listed ones end up in their places, in the order of the document. -/
theorem foldl_placeRobot {decls : Declarations} (disjoint : AreasDisjoint decls.areas)
    (placedRobots rest : List CheckedRobot) :
    rest.foldl (placeRobot (owners decls.areas)) (decls.placedAll placedRobots) =
      decls.placedAll (placedRobots ++ rest.filter decls.isListed) := by
  induction rest generalizing placedRobots with
  | nil => simp
  | cons robot rest ih =>
      rw [List.foldl_cons, placeRobot_placedAll disjoint, ih, List.append_assoc,
        ← List.filter_append, List.singleton_append]

theorem get?_positions {decls : Declarations}
    (distinct : (decls.robots.map CheckedRobot.id).Nodup) (robot : String) :
    (decls.placedAll decls.listedRobots).2.get? robot = decls.robotPosition? robot := by
  have apart : (decls.listedRobots.map fun listed => [listed.id]).Pairwise List.Disjoint := by
    have sublist : (decls.listedRobots.map CheckedRobot.id).Sublist
        (decls.robots.map CheckedRobot.id) := List.filter_sublist.map _
    rw [List.pairwise_map]
    exact (List.pairwise_map.mp (distinct.sublist sublist)).imp fun differ => by
      simpa using Ne.symm differ
  rw [placedAll, OrderedMap.get?_ofLists apart, List.findIdx?_map, robotPosition?]
  congr 1
  funext listed
  rw [Bool.eq_iff_iff]
  simpa using eq_comm

/-- A declared robot that an area lists has a position. -/
theorem isSome_robotPosition? {decls : Declarations} {area : Membership}
    (member : area ∈ decls.areas) {robot : String} (listed : robot ∈ area.robots)
    (declared : robot ∈ decls.robots.map CheckedRobot.id) :
    (decls.robotPosition? robot).isSome = true := by
  rcases List.mem_map.mp declared with ⟨checkedRobot, robotMember, rfl⟩
  rw [robotPosition?, List.findIdx?_isSome, List.any_eq_true]
  refine ⟨checkedRobot, List.mem_filter.mpr ⟨robotMember, ?_⟩, beq_self_eq_true _⟩
  rw [isListed, ownerOf, List.find?_isSome]
  exact ⟨area, member, decide_eq_true listed⟩

/-- Every member of an area is found in the table of positions. -/
theorem tabledFleet_owners {decls : Declarations} (disjoint : AreasDisjoint decls.areas)
    (distinct : (decls.robots.map CheckedRobot.id).Nodup)
    (declared : ∀ area ∈ decls.areas, ∀ robot ∈ area.robots,
      robot ∈ decls.robots.map CheckedRobot.id) :
    decls.tabledFleet (owners decls.areas) = some decls.fleet := by
  have robots : decls.robots.foldl (placeRobot (owners decls.areas)) ([], OrderedMap.empty) =
      decls.placedAll decls.listedRobots := foldl_placeRobot disjoint [] decls.robots
  have positions : (decls.placedAll decls.listedRobots).2.get? = decls.robotPosition? := by
    funext robot
    exact get?_positions distinct robot
  have members : ∀ area ∈ decls.areas, area.robots.mapM decls.robotPosition? =
      some (area.robots.filterMap decls.robotPosition?) := by
    intro area member
    refine mapM_eq_some_filterMap fun robot listed => ?_
    exact isSome_robotPosition? member listed (declared area member robot listed)
  have areas : decls.areas.mapM (fun area =>
      (area.robots.mapM decls.robotPosition?).map (Area.mk area.id)) = some decls.fleet.areas := by
    rw [mapM_eq_some_filterMap fun area member => by simp [members area member]]
    congr 1
    rw [fleet, ← List.filterMap_eq_map]
    apply List.filterMap_congr
    intro area member
    simp [members area member]
  rw [tabledFleet, robots]
  simp only [positions, areas]
  rfl

/-! ## Documents -/

/-- Load a document with the two tables. -/
def loadTabled (settings : Settings) (doc : Document) : ExceptT LoadError Option Fleet := do
  let areaDecls := doc.areas.getD []
  if areaDecls.isEmpty then throw (.missingField .document none (.field "areas"))
  let images ← checked (checkImages doc.images)
  let packages ← checked (checkPackages doc.packages)
  let globals ← checked (checkGlobals images packages doc.globals)
  let robots ← checked
    (checkRobots settings (images.map Image.id) (packages.map Package.id) doc.robots)
  let (areas, owners) ←
    areaDecls.foldlM (claimArea (robots.map CheckedRobot.id)) ([], OrderedMap.empty)
  let fleet ← ExceptT.lift (tabledFleet ⟨images, packages, globals, robots, areas⟩ owners)
  checked fleet.check
  return fleet

/-- The sections of a document, checked with the table of owners, and what follows. -/
theorem loadTabled_eq_bind (settings : Settings) (doc : Document) :
    loadTabled settings doc = (do
      let decls ← checked (ofDocument settings doc)
      let fleet ← ExceptT.lift (decls.tabledFleet (owners decls.areas))
      checked fleet.check
      return fleet) := by
  simp only [loadTabled, ofDocument, foldlM_claimArea]
  by_cases empty : (doc.areas.getD []).isEmpty = true
  · simp only [empty]
    rfl
  · simp only [empty, Bool.false_eq_true, ↓reduceIte, ← map_checked, checked_bind, bind_assoc,
      bind_map_left]
    rfl

end Declarations

namespace Document

variable {settings : Settings} {doc : Document}

/-- In the table of positions of a well-formed document every member is found. -/
theorem SectionsWellFormed.tabledFleet_owners (wellFormed : doc.SectionsWellFormed settings) :
    (doc.declarations settings).tabledFleet
        (Declarations.owners (doc.declarations settings).areas) =
      some (doc.declarations settings).fleet := by
  apply Declarations.tabledFleet_owners
  · have disjoint := (List.nodup_flatMap.mp wellFormed.listed_nodup).2
    exact List.pairwise_map.mpr disjoint
  · rw [declarations, Declarations.map_id_robots]
    exact wellFormed.robots_nodup
  · intro area member robot listed
    rcases List.mem_map.mp member with ⟨decl, declared, rfl⟩
    rw [declarations, Declarations.map_id_robots]
    exact (wellFormed.areas decl declared).member_declared robot listed

/-- Every look-up of every document finds its entry, and the outcome is that of loading. -/
theorem loadTabled_eq (settings : Settings) (doc : Document) :
    Declarations.loadTabled settings doc = checked (loadFleet settings doc).outcome := by
  rw [Declarations.loadTabled_eq_bind]
  simp only [loadFleet, Logged.outcome_bind, Logged.outcome_ofExcept, Logged.outcome_tell,
    Logged.outcome_pure]
  cases accepted : Declarations.ofDocument settings doc with
  | error failure => rfl
  | ok decls =>
      rcases Declarations.ofDocument_eq_ok_iff.mp accepted with ⟨wellFormed, rfl⟩
      rw [checked_ok_bind, wellFormed.tabledFleet_owners, lift_some_eq_checked, checked_ok_bind]
      cases result : (doc.declarations settings).fleet.check with
      | error failure => simp [Except.bind, result]
      | ok answer => simp [Except.bind, result, pure_eq_checked]

/-- Positions are sound: a loaded fleet is the one that the document describes, every area,
robot, image and package is found at the positions that stand for it, and for no document
does a look-up in the tables of the loader miss. -/
theorem loadFleet_positions_sound (settings : Settings) (doc : Document) :
    (∀ fleet, (loadFleet settings doc).outcome = .ok fleet → doc.ResolvedBy settings fleet) ∧
      (Declarations.loadTabled settings doc).run = some (loadFleet settings doc).outcome := by
  constructor
  · intro fleet loaded
    rcases loadFleet_eq_ok_iff.mp loaded with ⟨wellFormed, rfl⟩
    exact wellFormed.resolvedBy_fleet
  · rw [loadTabled_eq]
    rfl

/-- The positions of the fleet of the sample document are sound. -/
theorem sample_positions_sound :
    ∃ fleet, (loadFleet .standard sample).outcome = .ok fleet ∧
      sample.ResolvedBy .standard fleet := by
  rcases exists_loadFleet_sample with ⟨fleet, loaded⟩
  exact ⟨fleet, loaded, (loadFleet_positions_sound .standard sample).1 fleet loaded⟩

end Document

end FleetCompose
