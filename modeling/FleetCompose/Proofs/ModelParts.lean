import FleetCompose.Compile
import FleetCompose.Proofs.Conversion
import FleetCompose.Proofs.KeyedLists

/-!
# What a model has of every robot

A model puts the parts of all robots one after the other, and every service, build and summary
says which robot it belongs to. So a robot's part can be read off the model again, and it is
made from the copy of that robot alone. The last section says which documents are compiled, and
to which model.
-/

namespace FleetCompose

namespace Model

/-- The services of a robot. -/
def servicesOf (model : Model) (robot : String) : List Service :=
  model.services.filter fun service => service.robot == some robot

/-- The builds of a robot. -/
def buildsOf (model : Model) (robot : String) : List BuildSpec :=
  model.builds.filter fun build => build.robot == robot

/-- The summaries of a robot. -/
def summariesOf (model : Model) (robot : String) : List RobotSummary :=
  model.robots.filter fun summary => summary.id == robot

/-! ## The lists of a model -/

theorem services_built (settings : Settings) (fleet : ExpandedFleet) :
    (built settings fleet).services =
      fleet.robots.flatMap (builtServices settings) ++ fleet.globals.map Service.ofGlobal := by
  change (fleet.robots.map (builtPart settings)).flatMap RobotPart.services ++ _ = _
  rw [List.flatMap_map]
  rfl

theorem builds_built (settings : Settings) (fleet : ExpandedFleet) :
    (built settings fleet).builds =
      fleet.robots.flatMap fun robot => robot.packages.map (builtSpec settings robot) := by
  change (fleet.robots.map (builtPart settings)).flatMap RobotPart.builds = _
  rw [List.flatMap_map]
  rfl

theorem robots_built (settings : Settings) (fleet : ExpandedFleet) :
    (built settings fleet).robots =
      fleet.robots.map fun robot => summary robot (builtServices settings robot) := by
  change (fleet.robots.map (builtPart settings)).map RobotPart.summary = _
  rw [List.map_map]
  rfl

/-! ## Owners -/

/-- The services that are built for a robot belong to it, and none of them is a global. -/
theorem owned_of_mem_builtServices {settings : Settings} {robot : ExpandedRobot}
    {service : Service} (member : service ∈ builtServices settings robot) :
    service.robot = some robot.id ∧ service.kind ≠ .global := by
  simp only [builtServices, List.mem_append, Option.mem_toList, List.mem_map] at member
  rcases member with (master | image) | package
  · rw [Service.ofMaster] at master
    cases family : robot.ros.family with
    | ros1 =>
        rw [family] at master
        cases master
        exact ⟨rfl, fun equal => by cases equal⟩
    | ros2 =>
        rw [family] at master
        cases master
  · rcases image with ⟨image, -, rfl⟩
    exact ⟨rfl, fun equal => by cases equal⟩
  · rcases package with ⟨package, -, rfl⟩
    exact ⟨rfl, fun equal => by cases equal⟩

/-- A service that belongs to a robot belongs to one of the fleet. -/
theorem mem_map_id_of_mem_services {settings : Settings} {fleet : ExpandedFleet}
    {service : Service} (member : service ∈ (built settings fleet).services) {robot : String}
    (owner : service.robot = some robot) : robot ∈ fleet.robots.map ExpandedRobot.id := by
  rw [services_built, List.mem_append] at member
  rcases member with inRobots | inGlobals
  · rcases List.mem_flatMap.mp inRobots with ⟨copy, copyMember, isBuilt⟩
    rw [(owned_of_mem_builtServices isBuilt).1, Option.some.injEq] at owner
    exact owner ▸ List.mem_map_of_mem copyMember
  · rcases List.mem_map.mp inGlobals with ⟨global, -, rfl⟩
    cases owner

theorem servicesOf_built (settings : Settings) (fleet : ExpandedFleet) (robot : String) :
    (built settings fleet).servicesOf robot =
      (fleet.robots.filter fun copy => copy.id == robot).flatMap (builtServices settings) := by
  have owned : ∀ copy ∈ fleet.robots, ∀ service ∈ builtServices settings copy,
      service.robot = some copy.id :=
    fun _ _ _ member => (owned_of_mem_builtServices member).1
  have globals : ((fleet.globals.map Service.ofGlobal).filter fun service =>
      service.robot == some robot) = [] :=
    filter_map_eq_nil (fun _ => rfl) fleet.globals
  rw [servicesOf, services_built, List.filter_append, globals, List.append_nil,
    filter_flatMap_of_owned owned]
  simp only [Option.some_beq_some]

theorem buildsOf_built (settings : Settings) (fleet : ExpandedFleet) (robot : String) :
    (built settings fleet).buildsOf robot =
      (fleet.robots.filter fun copy => copy.id == robot).flatMap fun copy =>
        copy.packages.map (builtSpec settings copy) := by
  rw [buildsOf, builds_built]
  apply filter_flatMap_of_owned
  intro copy _ build member
  rcases List.mem_map.mp member with ⟨package, -, rfl⟩
  rfl

theorem summariesOf_built (settings : Settings) (fleet : ExpandedFleet) (robot : String) :
    (built settings fleet).summariesOf robot =
      (fleet.robots.filter fun copy => copy.id == robot).map fun copy =>
        summary copy (builtServices settings copy) := by
  rw [summariesOf, robots_built, List.filter_map]
  rfl

/-- Where ids are distinct, a robot has the services that are built for it. -/
theorem servicesOf_built_of_mem {settings : Settings} {fleet : ExpandedFleet}
    (nodup : (fleet.robots.map ExpandedRobot.id).Nodup) {robot : ExpandedRobot}
    (member : robot ∈ fleet.robots) :
    (built settings fleet).servicesOf robot.id = builtServices settings robot := by
  rw [servicesOf_built, filter_key_eq_singleton nodup member, List.flatMap_singleton]

/-- Where ids are distinct, a robot has one summary. -/
theorem summariesOf_built_of_mem {settings : Settings} {fleet : ExpandedFleet}
    (nodup : (fleet.robots.map ExpandedRobot.id).Nodup) {robot : ExpandedRobot}
    (member : robot ∈ fleet.robots) :
    (built settings fleet).summariesOf robot.id =
      [summary robot (builtServices settings robot)] := by
  rw [summariesOf_built, filter_key_eq_singleton nodup member, List.map_singleton]

/-- The services that are no robot's are the globals. -/
theorem filter_global_built (settings : Settings) (fleet : ExpandedFleet) :
    ((built settings fleet).services.filter fun service => service.kind == .global) =
      fleet.globals.map Service.ofGlobal := by
  rw [services_built, List.filter_append]
  have robots : ((fleet.robots.flatMap (builtServices settings)).filter fun service =>
      service.kind == .global) = [] := by
    rw [List.filter_eq_nil_iff]
    intro service member
    rcases List.mem_flatMap.mp member with ⟨copy, -, owned⟩
    simpa using (owned_of_mem_builtServices owned).2
  rw [robots, List.nil_append, List.filter_eq_self]
  intro service member
  rcases List.mem_map.mp member with ⟨global, -, rfl⟩
  rfl

theorem filter_kind_of_forall {services : List Service} {own : ServiceKind}
    (kinds : ∀ service ∈ services, service.kind = own) (kind : ServiceKind) :
    (services.filter fun service => service.kind == kind) =
      if kind = own then services else [] := by
  split
  next same =>
    rw [List.filter_eq_self]
    intro service member
    rw [kinds service member, same, beq_self_eq_true]
  next other =>
    rw [List.filter_eq_nil_iff]
    intro service member
    rw [kinds service member, beq_iff_eq]
    exact fun same => other same.symm

/-- The services of a robot come in groups, one for each kind. -/
theorem filter_kind_builtServices (settings : Settings) (robot : ExpandedRobot)
    (kind : ServiceKind) :
    ((builtServices settings robot).filter fun service => service.kind == kind) =
      (if kind = .master then (Service.ofMaster robot settings.restart).toList else []) ++
        (if kind = .image then
          robot.images.map fun image => Service.ofImage robot image settings.restart else []) ++
        (if kind = .package then robot.packages.map (builtService settings robot) else []) := by
  have master : ∀ service ∈ (Service.ofMaster robot settings.restart).toList,
      service.kind = .master := by
    rw [Service.ofMaster]
    cases robot.ros.family <;> simp
  have images : ∀ service ∈ robot.images.map (fun image =>
      Service.ofImage robot image settings.restart), service.kind = .image :=
    List.forall_mem_map.mpr fun _ _ => rfl
  have packages : ∀ service ∈ robot.packages.map (builtService settings robot),
      service.kind = .package :=
    List.forall_mem_map.mpr fun _ _ => rfl
  rw [builtServices, List.filter_append, List.filter_append, filter_kind_of_forall master,
    filter_kind_of_forall images, filter_kind_of_forall packages]

theorem filter_master_builtServices (settings : Settings) (robot : ExpandedRobot) :
    ((builtServices settings robot).filter fun service => service.kind == .master) =
      (Service.ofMaster robot settings.restart).toList := by
  simp [filter_kind_builtServices]

theorem filter_image_builtServices (settings : Settings) (robot : ExpandedRobot) :
    ((builtServices settings robot).filter fun service => service.kind == .image) =
      robot.images.map fun image => Service.ofImage robot image settings.restart := by
  simp [filter_kind_builtServices]

theorem filter_package_builtServices (settings : Settings) (robot : ExpandedRobot) :
    ((builtServices settings robot).filter fun service => service.kind == .package) =
      robot.packages.map (builtService settings robot) := by
  simp [filter_kind_builtServices]

/-- The services of packages and the builds go together. -/
theorem filter_package_built (settings : Settings) (fleet : ExpandedFleet) :
    ((built settings fleet).services.filter fun service => service.kind == .package) =
      fleet.robots.flatMap fun robot => robot.packages.map (builtService settings robot) := by
  have globals : ((fleet.globals.map Service.ofGlobal).filter fun service =>
      service.kind == .package) = [] :=
    filter_map_eq_nil (fun _ => rfl) fleet.globals
  rw [services_built, List.filter_append, globals, List.append_nil, List.filter_flatMap]
  apply List.flatMap_congr
  intro robot _
  exact filter_package_builtServices settings robot

/-! ## Names -/

/-- Every build has a service of its name. -/
theorem map_service_builds (settings : Settings) (fleet : ExpandedFleet) :
    (built settings fleet).builds.map BuildSpec.service =
      ((built settings fleet).services.filter fun service => service.kind == .package).map
        Service.name := by
  rw [builds_built, filter_package_built, List.map_flatMap, List.map_flatMap]
  apply List.flatMap_congr
  intro robot _
  rw [List.map_map, List.map_map]
  rfl

theorem map_name_ofMaster (robot : ExpandedRobot) (restart : String) :
    (Service.ofMaster robot restart).toList.map Service.name =
      match robot.ros.family with
        | .ros1 => [robot.masterService]
        | .ros2 => [] := by
  rw [Service.ofMaster]
  cases robot.ros.family <;> rfl

/-- The services that are built for a robot have the names that the fleet needs. -/
theorem map_name_builtServices (settings : Settings) (fleet : Fleet) (areaId : String)
    (robot : Robot) :
    (builtServices settings (fleet.copyOf areaId robot)).map Service.name =
      fleet.serviceNamesOf robot := by
  rw [builtServices, List.map_append, List.map_append, map_name_ofMaster, Fleet.serviceNamesOf,
    List.map_map, List.map_map, Fleet.copyOf, List.map_map, List.map_map]
  rfl

end Model

/-! ## Documents -/

namespace Document

/-- A document is expanded exactly if it is well-formed and every placeholder that its texts are cut
at has a value. -/
theorem toExpanded_eq_ok_iff {settings : Settings} {doc : Document} {expanded : ExpandedFleet} :
    (doc.toExpanded settings).outcome = .ok expanded ↔
      doc.WellFormed settings ∧ (doc.fleet settings).misfits = [] ∧
        expanded = (doc.fleet settings).copy := by
  simp only [toExpanded, toFleet, Logged.outcome_bind, Logged.outcome_mapError, except_bind,
    bind_eq_ok_iff, mapError_eq_ok_iff, loadFleet_eq_ok_iff, Fleet.outcome_expand,
    verdict_eq_ok_iff]
  constructor
  · intro given
    rcases given with ⟨_, ⟨wellFormed, rfl⟩, bound, rfl⟩
    exact ⟨wellFormed, bound, rfl⟩
  · intro given
    rcases given with ⟨wellFormed, bound, rfl⟩
    exact ⟨_, ⟨wellFormed, rfl⟩, bound, rfl⟩

/-- A document is compiled exactly if it is well-formed, every placeholder that its texts are cut at
has a value, and all packages can be built; then the model is built from the copies of its robots.
-/
theorem toModel_eq_ok_iff {settings : Settings} {doc : Document} {model : Model} :
    (doc.toModel settings).outcome = .ok model ↔
      doc.WellFormed settings ∧ (doc.fleet settings).misfits = [] ∧
        (∀ robot ∈ (doc.fleet settings).copy.robots, ∀ package ∈ robot.packages,
          Model.Builds settings robot package) ∧
        model = Model.built settings (doc.fleet settings).copy := by
  simp only [toModel, Logged.outcome_bind, Logged.outcome_mapError, except_bind, bind_eq_ok_iff,
    mapError_eq_ok_iff, toExpanded_eq_ok_iff, Model.ofFleet_eq_ok_iff]
  constructor
  · intro given
    rcases given with ⟨_, ⟨wellFormed, bound, rfl⟩, built, rfl⟩
    exact ⟨wellFormed, bound, built, rfl⟩
  · intro given
    rcases given with ⟨wellFormed, bound, built, rfl⟩
    exact ⟨_, ⟨wellFormed, bound, rfl⟩, built, rfl⟩

/-- What becomes of a document that is accepted depends on its fleet alone. -/
theorem outcome_toModel_of_loaded {settings : Settings} {doc : Document} {fleet : Fleet}
    (loaded : (loadFleet settings doc).outcome = .ok fleet) :
    (doc.toModel settings).outcome =
      (fleet.expand.outcome.mapError CompileError.expanding).bind fun expanded =>
        (Model.ofFleet settings expanded).outcome.mapError CompileError.converting := by
  simp only [toModel, toExpanded, toFleet, Logged.outcome_bind, Logged.outcome_mapError, loaded]
  rfl

/-- The sample document is compiled. -/
theorem exists_toModel_sample : ∃ model, (sample.toModel .standard).outcome = .ok model := by
  apply exists_ok_of_isSome
  decide +kernel

end Document

end FleetCompose
