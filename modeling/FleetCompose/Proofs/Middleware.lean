import FleetCompose.Proofs.NamedReferences
import FleetCompose.Proofs.ServiceFields

/-!
# The middleware of robots

A robot of the first generation has one master, and its services find it: they wait for it by
name, and the address in their environment is that name and the port on which it listens. The
services of a robot of the second generation know its domain id, and there is no master. What the
author set stays. No two robots of a generation share a port or a domain id.
-/

namespace FleetCompose

/-! ## Variables of the environment -/

theorem ExpandedRobot.environment_free (robot : ExpandedRobot) (service : String) :
    ∀ var ∈ robot.environment service, '=' ∉ var.1.toList := by
  rw [environment]
  cases robot.ros.family with
  | ros1 => simp
  | ros2 => simp

theorem ExpandedRobot.nodup_environment (robot : ExpandedRobot) (service : String) :
    ((robot.environment service).map Prod.fst).Nodup := by
  rw [environment]
  cases robot.ros.family with
  | ros1 => simp
  | ros2 => simp

namespace Origin

/-- A service of a robot has the variables of the robot's environment. -/
theorem Wires.filledIn {robot : ExpandedRobot} {origin : Origin} {service : Service}
    (wires : origin.Wires robot service)
    (extensible : Extensible (origin.declared.get? "environment"))
    {name text : String} (member : (name, text) ∈ robot.environment origin.name) :
    FilledIn name text (origin.declared.get? "environment")
      (service.fields.get? "environment") := by
  rw [wires.environment_eq]
  exact Requirement.filledIn_settle (robot.environment_free origin.name)
    (robot.nodup_environment origin.name) extensible member

/-! ## Robots with a master -/

/-- A service of a robot of the first generation finds the master. The fields that the author gave
another form are exempt. -/
structure FindsMaster (robot : ExpandedRobot) (master : Service) (origin : Origin)
    (service : Service) : Prop extends Origin.Makes robot origin service where
  waits : origin.kind ≠ .master → Extensible (origin.declared.get? "depends_on") →
    NamedIn (service.fields.get? "depends_on") master.name
  hostname : Extensible (origin.declared.get? "environment") →
    FilledIn "ROS_HOSTNAME" service.name (origin.declared.get? "environment")
      (service.fields.get? "environment")
  masterUri : Extensible (origin.declared.get? "environment") →
    FilledIn "ROS_MASTER_URI" ("http://" ++ master.name ++ ":" ++ robot.ros.metadataText)
      (origin.declared.get? "environment") (service.fields.get? "environment")

/-- A service of a robot of the second generation knows the domain id. -/
structure KnowsDomain (robot : ExpandedRobot) (origin : Origin) (service : Service) : Prop
    extends Origin.Makes robot origin service where
  domainId : Extensible (origin.declared.get? "environment") →
    FilledIn "ROS_DOMAIN_ID" robot.ros.metadataText (origin.declared.get? "environment")
      (service.fields.get? "environment")

variable {robot : ExpandedRobot} {origin : Origin} {service : Service}

theorem Wires.findsMaster (wires : origin.Wires robot service)
    (family : robot.ros.family = .ros1) {master : Service}
    (named : master.name = robot.masterService) :
    origin.FindsMaster robot master service where
  toMakes := wires.toMakes
  waits := by
    intro other extensible
    -- All but the master wait, so the requirement is there and its member is the master's name.
    have waiting : (origin.waits && robot.ros.family == .ros1) = true := by
      simp [Origin.waits, other, family]
    rw [wires.dependsOn_eq, waiting, named]
    exact (Requirement.namedIn_apply_member_iff extensible).mpr (.inr rfl)
  hostname := by
    intro extensible
    apply wires.filledIn extensible
    rw [ExpandedRobot.environment, family, wires.name_eq]
    exact List.mem_cons_self
  masterUri := by
    intro extensible
    apply wires.filledIn extensible
    rw [ExpandedRobot.environment, family, named]
    exact List.mem_cons_of_mem _ List.mem_cons_self

theorem Wires.knowsDomain (wires : origin.Wires robot service)
    (family : robot.ros.family = .ros2) : origin.KnowsDomain robot service where
  toMakes := wires.toMakes
  domainId := by
    intro extensible
    apply wires.filledIn extensible
    rw [ExpandedRobot.environment, family]
    exact List.mem_cons_self

end Origin

/-- The only master of a robot. It listens on the port of the robot, unless the robot's fields say
otherwise. -/
structure ExpandedRobot.ServedBy (robot : ExpandedRobot) (services : List Service)
    (master : Service) : Prop where
  only : (services.filter fun service => service.kind == .master) = [master]
  name_eq : master.name = "roscore-" ++ robot.id
  command_eq : master.fields.get? "command" =
    (robot.extra.get? "command").or
      (some (.string ("roscore --port " ++ robot.ros.metadataText)))
  ports_eq : master.fields.get? "ports" =
    (robot.extra.get? "ports").or
      (some (.sequence [.string (robot.ros.metadataText ++ ":" ++ robot.ros.metadataText)]))

/-- A field of a master that the middleware does not extend. -/
theorem Service.get?_masterDraft (robot : ExpandedRobot) (restart : String) {field : String}
    (other : field ∉ wiredFields) (apart : field ≠ "restart") :
    ((masterDraft robot).fields restart).get? field =
      (robot.extra.get? field).or ((masterDraft robot).generated.get? field) :=
  Draft.get?_fields_of_wiring (masterDraft robot) rfl restart other apart

theorem Model.exists_servedBy (settings : Settings) {robot : ExpandedRobot}
    (family : robot.ros.family = .ros1) :
    ∃ master, robot.ServedBy (builtServices settings robot) master := by
  refine ⟨⟨robot.masterService, .master, some robot.id,
    (Service.masterDraft robot).fields settings.restart⟩, ?_, rfl, ?_, ?_⟩
  · rw [filter_master_builtServices, Service.ofMaster, family]
    rfl
  · exact Service.get?_masterDraft robot settings.restart (by decide) (by decide)
  · exact Service.get?_masterDraft robot settings.restart (by decide) (by decide)

/-! ## Models -/

/-- The middleware of all robots of a model. -/
structure Model.MiddlewareWired (fleet : ExpandedFleet) (model : Model) : Prop where
  robots_eq : (model.robots.map fun summary => (summary.id, summary.ros)) =
    fleet.robots.map fun robot => (robot.id, robot.ros)
  ros1 : ∀ robot ∈ fleet.robots, robot.ros.family = .ros1 →
    ∃ master, robot.ServedBy (model.servicesOf robot.id) master ∧
      List.Forall₂ (Origin.FindsMaster robot master) robot.origins (model.servicesOf robot.id)
  ros2 : ∀ robot ∈ fleet.robots, robot.ros.family = .ros2 →
    ((model.servicesOf robot.id).filter fun service => service.kind == .master) = [] ∧
      List.Forall₂ (Origin.KnowsDomain robot) robot.origins (model.servicesOf robot.id)
  endpoints_nodup :
    (model.robots.map fun summary => (summary.ros.family, summary.ros.metadata)).Nodup

namespace Document

variable {settings : Settings} {doc : Document}

theorem map_endpoint_robots_copy :
    ((doc.fleet settings).copy.robots.map fun robot => (robot.ros.family, robot.ros.metadata)) =
      doc.orderedRobots.map (RobotDecl.endpoint settings) := by
  rw [robots_copy, orderedRobots, List.map_flatMap, List.map_flatMap]
  apply List.flatMap_congr
  intro area _
  rw [List.map_map]
  rfl

/-- Endpoints are compared in the order of the document, and are as distinct in that of the
areas. -/
theorem WellFormed.nodup_endpoints_copy (wellFormed : doc.WellFormed settings) :
    ((doc.fleet settings).copy.robots.map fun robot =>
      (robot.ros.family, robot.ros.metadata)).Nodup := by
  rw [map_endpoint_robots_copy]
  have perm := wellFormed.toSectionsWellFormed.orderedRobots_perm
  exact (perm.map _).nodup_iff.mpr wellFormed.endpoints_nodup

/-- In a compiled document the services of every robot find its middleware. -/
theorem middlewareWired_of_toModel {model : Model}
    (compiled : (doc.toModel settings).outcome = .ok model) :
    ∃ fleet, (doc.toExpanded settings).outcome = .ok fleet ∧ model.MiddlewareWired fleet := by
  rcases toModel_eq_ok_iff.mp compiled with ⟨wellFormed, bound, -, rfl⟩
  have nodup := wellFormed.toSectionsWellFormed.nodup_id_robots_copy
  refine ⟨_, toExpanded_eq_ok_iff.mpr ⟨wellFormed, bound, rfl⟩, ?_⟩
  exact {
    robots_eq := by
      rw [Model.robots_built, List.map_map]
      rfl
    ros1 := by
      intro robot member family
      rw [Model.servicesOf_built_of_mem nodup member]
      rcases Model.exists_servedBy settings family with ⟨master, served⟩
      refine ⟨master, served, (Model.wires_builtServices settings robot).imp ?_⟩
      intro origin service wires
      exact wires.findsMaster family served.name_eq
    ros2 := by
      intro robot member family
      rw [Model.servicesOf_built_of_mem nodup member]
      constructor
      · rw [Model.filter_master_builtServices, Service.ofMaster, family]
        rfl
      · apply (Model.wires_builtServices settings robot).imp
        intro origin service wires
        exact wires.knowsDomain family
    endpoints_nodup := by
      rw [Model.robots_built, List.map_map]
      exact wellFormed.nodup_endpoints_copy }

/-- The sample document with another robot of the first generation, a camera that waits for a
service, and a driver whose environment names a master. -/
def relayed : Document :=
  { sample with
    robots := sample.robots ++
      [⟨some "porter", some "noetic:11400", some ["camera"], some ["driver"], none, .empty⟩]
    areas := some [⟨some "yard", some ["carrier", " scout "]⟩,
      ⟨some "hall", some ["guide", "porter"]⟩]
    images := [⟨some "camera", some "camera:1",
      .ofList [("depends_on", .sequence [.string "broker"])]⟩]
    packages := [⟨some "driver", some "src/driver", some "drive", some ["git"], none, none, none,
      none, .ofList [("environment", .mapping
        [(.string "ROS_MASTER_URI", .string "http://relay:11311")])]⟩] }

/-- Two robots of each generation, with the ports and domain ids of their own. -/
theorem relayed_middlewareWired :
    ∃ model fleet, (relayed.toModel .standard).outcome = .ok model ∧
      (relayed.toExpanded .standard).outcome = .ok fleet ∧
      (model.robots.map fun summary => (summary.master, summary.ros.metadata)) =
        [(none, 2), (none, 1), (some "roscore-guide", 11311), (some "roscore-porter", 11400)] ∧
      model.MiddlewareWired fleet := by
  have ran : ((relayed.toModel .standard).outcome.toOption.map fun model =>
      model.robots.map fun summary => (summary.master, summary.ros.metadata)) =
        some [(none, 2), (none, 1), (some "roscore-guide", 11311),
          (some "roscore-porter", 11400)] := by
    decide +kernel
  rcases exists_ok_of_map_eq_some ran with ⟨model, compiled, masters⟩
  rcases middlewareWired_of_toModel compiled with ⟨fleet, expands, wired⟩
  exact ⟨model, fleet, compiled, expands, masters, wired⟩

end Document

end FleetCompose
