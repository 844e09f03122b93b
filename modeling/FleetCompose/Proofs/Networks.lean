import FleetCompose.Proofs.NamedReferences
import FleetCompose.Proofs.ServiceFields

/-!
# Networks of a model

Networks are used in one place and declared in another: every service of a robot is put on the
network of its area, and the declarations are collected later from the fields of all services.
The two agree. All that services use is declared, once, and a service is on the networks that its
declared fields name and on that of its own area.
-/

namespace FleetCompose

/-! ## Collecting networks -/

theorem areaNetwork_injective : Function.Injective areaNetwork := by
  intro area other equal
  exact (String.append_left_inj _).mp equal

namespace Network

variable (areas : List String) (services : List Service)

/-- The names that services use and that are not those of areas. -/
def otherNames : List String :=
  (services.flatMap usedBy).eraseDups.filter fun name =>
    !(areas.map ofArea).any fun network => network.name == name

theorem collect_eq :
    collect areas services =
      areas.map ofArea ++ (otherNames areas services).map fun name => ⟨name, none⟩ :=
  rfl

theorem map_name_collect :
    (collect areas services).map Network.name =
      areas.map areaNetwork ++ otherNames areas services := by
  rw [collect_eq, List.map_append, List.map_map, List.map_map]
  congr 1
  exact List.map_id _

theorem mem_otherNames_iff {name : String} :
    name ∈ otherNames areas services ↔
      (∃ service ∈ services, name ∈ usedBy service) ∧ name ∉ areas.map areaNetwork := by
  rw [otherNames, List.mem_filter, List.mem_eraseDups, List.mem_flatMap]
  apply and_congr_right
  intro _
  simp [ofArea]

/-- Declared are the networks of areas, and what services use. -/
theorem mem_map_name_collect_iff {name : String} :
    name ∈ (collect areas services).map Network.name ↔
      name ∈ areas.map areaNetwork ∨ ∃ service ∈ services, name ∈ usedBy service := by
  rw [map_name_collect, List.mem_append, mem_otherNames_iff]
  by_cases own : name ∈ areas.map areaNetwork
  · simp only [own, true_or]
  · simp only [own, not_false_eq_true, and_true, false_or]

variable {areas}

/-- Nothing is declared twice. -/
theorem nodup_map_name_collect (nodup : areas.Nodup) :
    ((collect areas services).map Network.name).Nodup := by
  rw [map_name_collect]
  refine List.Nodup.append (nodup.map areaNetwork_injective) ((nodup_eraseDups _).filter _) ?_
  intro name own other
  exact ((mem_otherNames_iff areas services).mp other).2 own

end Network

/-! ## Networks of services -/

/-- A service of a robot in an area: it is on the networks that were declared for it and on that of
the area. Fields that are neither a list nor a mapping give it no network at all. -/
structure Origin.Attaches (fleet : ExpandedFleet) (area : ExpandedArea) (robot : ExpandedRobot)
    (origin : Origin) (service : Service) : Prop extends Origin.Makes robot origin service where
  namedIn_iff : Extensible (origin.declared.get? "networks") → ∀ name,
    NamedIn (service.fields.get? "networks") name ↔
      NamedIn (origin.declared.get? "networks") name ∨ name = areaNetwork area.id
  not_other : ∀ other ∈ fleet.areas, other.id ≠ area.id →
    NamedIn (service.fields.get? "networks") (areaNetwork other.id) →
      NamedIn (origin.declared.get? "networks") (areaNetwork other.id)

theorem Origin.Wires.attaches {fleet : ExpandedFleet} {area : ExpandedArea}
    {robot : ExpandedRobot} {origin : Origin} {service : Service}
    (wires : origin.Wires robot service) (inArea : robot.areaId = area.id) :
    origin.Attaches fleet area robot service where
  toMakes := wires.toMakes
  namedIn_iff := by
    intro extensible name
    rw [wires.networks_eq, inArea]
    exact Requirement.namedIn_apply_member_iff extensible
  not_other := by
    intro other _ apart named
    rw [wires.networks_eq, inArea] at named
    rcases Requirement.namedIn_of_apply_member named with declared | equal
    · exact declared
    · exact absurd (areaNetwork_injective equal) apart

/-! ## Documents -/

namespace Document

/-- The networks of a compiled document. -/
structure NetworksDeclared (doc : Document) (fleet : ExpandedFleet) (model : Model) : Prop where
  names_nodup : (model.networks.map Network.name).Nodup
  areas_first : ∃ others : List String, model.networks =
    (doc.areaDecls.map fun area => ⟨areaNetwork area.name, some area.name⟩) ++
      others.map fun name => ⟨name, none⟩
  mem_names_iff : ∀ name, name ∈ model.networks.map Network.name ↔
    (∃ area ∈ doc.areaDecls, areaNetwork area.name = name) ∨
      ∃ service ∈ model.services, NamedIn (service.fields.get? "networks") name
  areas_eq : fleet.areas.map ExpandedArea.id = doc.areaDecls.map AreaDecl.name
  attached : ∀ area ∈ fleet.areas, ∀ robot ∈ area.robots,
    List.Forall₂ (Origin.Attaches fleet area robot) robot.origins (model.servicesOf robot.id)
  owned : ∀ service ∈ model.services, ∀ robot, service.robot = some robot →
    robot ∈ fleet.robots.map ExpandedRobot.id

variable {settings : Settings} {doc : Document}

theorem map_id_areas_copy :
    (doc.fleet settings).copy.areas.map ExpandedArea.id = doc.areaDecls.map AreaDecl.name := by
  rw [areas_copy, List.map_map]
  rfl

/-- A copy of a robot knows the area that it stands in. -/
theorem areaId_of_mem_copy {area : ExpandedArea}
    (declared : area ∈ (doc.fleet settings).copy.areas) {robot : ExpandedRobot}
    (member : robot ∈ area.robots) : robot.areaId = area.id := by
  rw [areas_copy] at declared
  rcases List.mem_map.mp declared with ⟨decl, -, rfl⟩
  rcases List.mem_map.mp member with ⟨robotDecl, -, rfl⟩
  rfl

/-- A compiled document declares the networks that its services use, and every service of a robot
is on the networks that its own fields name and on the network of the robot's area. -/
theorem networksDeclared_of_toModel {model : Model}
    (compiled : (doc.toModel settings).outcome = .ok model) :
    ∃ fleet, (doc.toExpanded settings).outcome = .ok fleet ∧ doc.NetworksDeclared fleet model := by
  rcases toModel_eq_ok_iff.mp compiled with ⟨wellFormed, bound, -, rfl⟩
  have sections := wellFormed.toSectionsWellFormed
  refine ⟨_, toExpanded_eq_ok_iff.mpr ⟨wellFormed, bound, rfl⟩, ?_⟩
  have networks : (Model.built settings (doc.fleet settings).copy).networks =
      Network.collect (doc.areaDecls.map AreaDecl.name)
        (Model.built settings (doc.fleet settings).copy).services :=
    congrArg (fun areas => Network.collect areas _) map_id_areas_copy
  exact {
    names_nodup := by
      rw [networks]
      exact Network.nodup_map_name_collect _ wellFormed.areas_nodup
    areas_first := by
      rw [networks, Network.collect_eq, List.map_map]
      exact ⟨_, rfl⟩
    mem_names_iff := by
      intro name
      rw [networks, Network.mem_map_name_collect_iff, List.map_map, List.mem_map]
      simp only [namedIn_iff]
      rfl
    areas_eq := map_id_areas_copy
    attached := by
      intro area declared robot member
      have inFleet : robot ∈ (doc.fleet settings).copy.robots :=
        List.mem_flatMap.mpr ⟨area, declared, member⟩
      rw [Model.servicesOf_built_of_mem sections.nodup_id_robots_copy inFleet]
      apply (Model.wires_builtServices settings robot).imp
      intro origin service wires
      exact wires.attaches (areaId_of_mem_copy declared member)
    owned := fun _ member _ owner => Model.mem_map_id_of_mem_services member owner }

/-- The sample document with networks of its own: a list for the camera, and a mapping for the
driver, which names the network of another area as well. -/
def uplinked : Document :=
  { sample with
    images := [⟨some "camera", some "camera:1",
      .ofList [("networks", .sequence [.string "uplink", .string "yard-network"])]⟩]
    packages := [⟨some "driver", some "src/driver", some "drive", some ["git"], none, none, none,
      none, .ofList [("networks", .mapping [(.string "hall-network", .null),
        (.string "uplink", .mapping [(.string "priority", .number (.int 1))])])]⟩]
    globals := [⟨some "broker", .ofList [("networks", .sequence [.string "backbone"])]⟩] }

/-- Two networks of areas, then what the camera, the driver and the global name besides. -/
theorem uplinked_networksDeclared :
    ∃ model fleet, (uplinked.toModel .standard).outcome = .ok model ∧
      (uplinked.toExpanded .standard).outcome = .ok fleet ∧
      model.networks.map Network.name = ["yard-network", "hall-network", "uplink", "backbone"] ∧
      uplinked.NetworksDeclared fleet model := by
  have ran : ((uplinked.toModel .standard).outcome.toOption.map fun model =>
      model.networks.map Network.name) =
        some ["yard-network", "hall-network", "uplink", "backbone"] := by
    decide +kernel
  rcases exists_ok_of_map_eq_some ran with ⟨model, compiled, names⟩
  rcases networksDeclared_of_toModel compiled with ⟨fleet, expands, declared⟩
  exact ⟨model, fleet, compiled, expands, names, declared⟩

end Document

end FleetCompose
