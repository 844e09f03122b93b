import FleetCompose.Proofs.DescribedFleet

/-!
# Documents that are accepted

Loading accepts exactly the well-formed documents. The sections are settled entry by entry;
what is left are the two conditions on the whole fleet, which the fleet of a document
satisfies exactly if the document does.
-/

namespace FleetCompose

/-- What no two robots of a fleet may share. -/
def Robot.endpoint (robot : Robot) : RosFamily × UInt32 :=
  (robot.ros.family, robot.ros.metadata)

namespace Fleet

theorem checkEndpoint_reads :
    StepReads checkEndpoint (fun robot read => True ∧ read = robot)
      (fun earlier later => earlier.endpoint ≠ later.endpoint) := by
  refine .of_fresh Robot.endpoint fun accepted robot read => ?_
  rw [checkEndpoint]
  cases taken : accepted.find? fun other =>
      other.ros.family == robot.ros.family && other.ros.metadata == robot.ros.metadata with
  | none =>
      have free : robot.endpoint ∉ accepted.map Robot.endpoint := by
        intro member
        rcases List.mem_map.mp member with ⟨other, otherMember, equal⟩
        have apart := List.find?_eq_none.mp taken other otherMember
        rw [Robot.endpoint, Robot.endpoint, Prod.mk.injEq] at equal
        simp [equal] at apart
      simp only [Except.ok.injEq, true_and]
      constructor
      · intro equal
        subst equal
        exact ⟨rfl, free⟩
      · exact fun read => read.1.symm
  | some other =>
      have member := List.mem_of_find?_eq_some taken
      have same := List.find?_some taken
      simp only [Bool.and_eq_true, beq_iff_eq] at same
      have equal : other.endpoint = robot.endpoint := Prod.ext same.1 same.2
      simp only [reduceCtorEq, true_and, false_iff, not_and, not_not]
      intro equal
      subst equal
      exact List.mem_map.mpr ⟨other, member, equal⟩

theorem checkServiceName_reads :
    StepReads checkServiceName (fun name read => True ∧ read = name)
      (fun earlier later => id earlier ≠ id later) := by
  refine .of_fresh id fun accepted name read => ?_
  rw [checkServiceName, List.map_id]
  by_cases taken : name ∈ accepted
  · simp only [taken, ↓reduceIte, reduceCtorEq, true_and, id_eq, false_iff, not_and, not_not]
    intro equal
    subst equal
    exact taken
  · simp only [taken, ↓reduceIte, Except.ok.injEq, true_and, id_eq]
    constructor
    · intro equal
      subst equal
      exact ⟨rfl, taken⟩
    · exact fun read => read.1.symm

/-- The checks of a fleet succeed exactly if endpoints and names of services are distinct. -/
theorem check_eq_ok_iff {fleet : Fleet} {answer : Unit} :
    fleet.check = .ok answer ↔
      (fleet.robots.map Robot.endpoint).Nodup ∧ fleet.serviceNames.Nodup := by
  simp only [check, bind_eq_ok_iff, checkEndpoint_reads.keyed_eq_ok_iff Robot.endpoint,
    checkServiceName_reads.keyed_eq_ok_iff id, implies_true, true_and, and_true, pure_eq_ok_iff,
    id_eq, List.map_id_fun', and_assoc, exists_and_left, exists_eq_left, exists_eq]

end Fleet

namespace Document

variable {settings : Settings} {doc : Document}

/-! ## The fleet of a document -/

theorem SectionsWellFormed.map_id_imagesOf (wellFormed : doc.SectionsWellFormed settings)
    {decl : RobotDecl} (member : decl ∈ doc.robots) :
    ((doc.fleet settings).imagesOf (decl.placed settings doc)).map Image.id =
      decl.imageNames :=
  Fleet.map_pick_idxOf (Declarations.map_id_images doc)
    (wellFormed.robots decl member).images.declared

theorem SectionsWellFormed.map_id_packagesOf (wellFormed : doc.SectionsWellFormed settings)
    {decl : RobotDecl} (member : decl ∈ doc.robots) :
    ((doc.fleet settings).packagesOf (decl.placed settings doc)).map Package.id =
      decl.packageNames :=
  Fleet.map_pick_idxOf (Declarations.map_id_packages doc)
    (wellFormed.robots decl member).packages.declared

theorem SectionsWellFormed.serviceNamesOf_placed (wellFormed : doc.SectionsWellFormed settings)
    {decl : RobotDecl} (member : decl ∈ doc.robots) :
    (doc.fleet settings).serviceNamesOf (decl.placed settings doc) =
      decl.serviceNames settings := by
  have images := wellFormed.map_id_imagesOf member
  have packages := wellFormed.map_id_packagesOf member
  rw [Fleet.serviceNamesOf, RobotDecl.serviceNames, ← images, ← packages, List.map_map,
    List.map_map]
  rfl

/-- The fleet needs the services that the document names. -/
theorem SectionsWellFormed.serviceNames_fleet (wellFormed : doc.SectionsWellFormed settings) :
    (doc.fleet settings).serviceNames = doc.serviceNames settings := by
  rw [Fleet.serviceNames, serviceNames]
  congr 1
  · rw [fleet, List.flatMap_map]
    apply List.flatMap_congr
    intro decl listed
    exact wellFormed.serviceNamesOf_placed (mem_listedRobots.mp listed).1
  · simp [fleet, GlobalDecl.described]

theorem map_endpoint_fleet :
    (doc.fleet settings).robots.map Robot.endpoint =
      doc.listedRobots.map (RobotDecl.endpoint settings) := by
  rw [fleet, List.map_map]
  rfl

/-- The outcome of loading: a document is accepted exactly if it is well-formed, and then the
fleet is the one that it describes. -/
theorem loadFleet_eq_ok_iff {fleet : Fleet} :
    (loadFleet settings doc).outcome = .ok fleet ↔
      doc.WellFormed settings ∧ fleet = doc.fleet settings := by
  have steps : (loadFleet settings doc).outcome = .ok fleet ↔
      ∃ decls, Declarations.ofDocument settings doc = .ok decls ∧
        decls.fleet.check = .ok () ∧ decls.fleet = fleet := by
    simp only [loadFleet, Logged.outcome_bind, Logged.outcome_ofExcept, Logged.outcome_tell,
      Logged.outcome_pure]
    cases Declarations.ofDocument settings doc with
    | error failure => simp [Except.bind]
    | ok decls =>
        cases checked : decls.fleet.check <;> simp [Except.bind, checked]
  rw [steps]
  constructor
  · intro given
    rcases given with ⟨decls, accepted, checked, rfl⟩
    rcases Declarations.ofDocument_eq_ok_iff.mp accepted with ⟨sections, rfl⟩
    rw [Declarations.fleet_declarations sections, Fleet.check_eq_ok_iff, map_endpoint_fleet,
      sections.serviceNames_fleet] at checked
    exact ⟨⟨sections, checked.1, checked.2⟩, Declarations.fleet_declarations sections⟩
  · intro given
    rcases given with ⟨wellFormed, rfl⟩
    have sections := wellFormed.toSectionsWellFormed
    refine ⟨doc.declarations settings,
      Declarations.ofDocument_eq_ok_iff.mpr ⟨sections, rfl⟩, ?_,
      Declarations.fleet_declarations sections⟩
    rw [Declarations.fleet_declarations sections, Fleet.check_eq_ok_iff, map_endpoint_fleet,
      sections.serviceNames_fleet]
    exact ⟨wellFormed.endpoints_nodup, wellFormed.services_nodup⟩

/-- Loading returns a fleet exactly on well-formed documents. -/
theorem exists_loadFleet_iff_wellFormed (settings : Settings) (doc : Document) :
    (∃ fleet, (loadFleet settings doc).outcome = .ok fleet) ↔ doc.WellFormed settings := by
  simp only [loadFleet_eq_ok_iff, exists_and_left, exists_eq, and_true]

/-- A small document: two areas, a robot that no area lists, and robots that share an image
and a package. -/
def sample : Document where
  areas := some [⟨some "yard", some ["carrier", " scout "]⟩, ⟨some "hall", some ["guide"]⟩]
  robots := [
    ⟨some "spare", some "humble:9", some ["camera"], none, none, .empty⟩,
    ⟨some "scout", some "humble:1", some ["camera"], some ["driver"],
      some (.map (.ofList [("SPEED", .string "fast")])), .empty⟩,
    ⟨some "guide", some "noetic", none, some ["driver"], none, .empty⟩,
    ⟨some "carrier", some "humble:2", some ["camera"], none, none, .empty⟩]
  images := [⟨some "camera", some "camera:1", .empty⟩]
  packages := [⟨some "driver", some "src/driver", some "drive {{ROBOT_ID}}", some ["git"], none,
    none, some ["keys/{{ROBOT_ID}}"], some ["config/map.yaml:/etc/map.yaml"], .empty⟩]
  globals := [⟨some "broker", .empty⟩]

theorem exists_loadFleet_sample :
    ∃ fleet, (loadFleet .standard sample).outcome = .ok fleet := by
  apply exists_ok_of_isSome
  decide +kernel

end Document

end FleetCompose
