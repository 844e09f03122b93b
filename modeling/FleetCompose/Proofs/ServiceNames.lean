import FleetCompose.Proofs.ModelParts
import FleetCompose.Proofs.NamedReferences

/-!
# The services of a compiled document

The loader compares the names of services robot by robot in the order of the document, and the
model lists services area by area. This module states what a model lists: for every listed robot,
in the order in which the areas list them, the services that its declaration asks for, and the
globals last. No two services have one name, and every robot knows its own.
-/

namespace FleetCompose

namespace Document

/-- The services of a model are those that the document declares. -/
structure ServicesDeclared (settings : Settings) (doc : Document) (model : Model) : Prop where
  robots_resolved : doc.orderedRobots.map RobotDecl.name = doc.listedNames
  robots_nodup : doc.listedNames.Nodup
  names_eq : model.services.map Service.name =
    doc.orderedRobots.flatMap (RobotDecl.serviceNames settings) ++
      doc.globals.map GlobalDecl.name
  names_nodup : (model.services.map Service.name).Nodup
  summaries_eq : model.robots.map RobotSummary.id = doc.listedNames
  services_of_summary : ∀ summary ∈ model.robots,
    summary.services = (model.servicesOf summary.id).map Service.name
  globals_eq : (model.services.filter fun service => service.kind == .global) =
    doc.globals.map fun decl => ⟨decl.name, .global, none, decl.extra⟩

variable {settings : Settings} {doc : Document}

/-- Robot by robot, the services are those of the declarations. -/
theorem SectionsWellFormed.map_name_services (wellFormed : doc.SectionsWellFormed settings) :
    (Model.built settings (doc.fleet settings).copy).services.map Service.name =
      doc.orderedRobots.flatMap (RobotDecl.serviceNames settings) ++
        doc.globals.map GlobalDecl.name := by
  have robot : ∀ area : AreaDecl, ∀ decl ∈ area.robotDecls doc,
      (Model.builtServices settings ((doc.fleet settings).copyOf area.name
        (decl.placed settings doc))).map Service.name = decl.serviceNames settings := by
    intro area decl member
    rw [Model.map_name_builtServices]
    exact wellFormed.serviceNamesOf_placed (mem_robots_of_mem_robotDecls member)
  rw [Model.services_built, List.map_append, List.map_flatMap, robots_copy, List.flatMap_assoc,
    orderedRobots, List.flatMap_assoc]
  congr 1
  · apply List.flatMap_congr
    intro area _
    rw [List.flatMap_map]
    exact List.flatMap_congr (robot area)
  · change ((doc.globals.map GlobalDecl.described).map Service.ofGlobal).map Service.name = _
    rw [List.map_map, List.map_map]
    rfl

/-- The order of the areas and that of the document have the same names of services. -/
theorem SectionsWellFormed.orderedNames_perm (wellFormed : doc.SectionsWellFormed settings) :
    (doc.orderedRobots.flatMap (RobotDecl.serviceNames settings) ++
      doc.globals.map GlobalDecl.name).Perm (doc.serviceNames settings) := by
  rw [serviceNames]
  apply List.Perm.append_right
  exact wellFormed.orderedRobots_perm.flatMap_right _

theorem WellFormed.nodup_services (wellFormed : doc.WellFormed settings) :
    ((Model.built settings (doc.fleet settings).copy).services.map Service.name).Nodup := by
  have sections := wellFormed.toSectionsWellFormed
  rw [sections.map_name_services]
  exact sections.orderedNames_perm.nodup_iff.mpr wellFormed.services_nodup

/-- A compiled document has the services that it declares, in its order and under distinct
names. -/
theorem servicesDeclared_of_toModel {model : Model}
    (compiled : (doc.toModel settings).outcome = .ok model) :
    doc.ServicesDeclared settings model := by
  rcases toModel_eq_ok_iff.mp compiled with ⟨wellFormed, -, -, rfl⟩
  have sections := wellFormed.toSectionsWellFormed
  exact {
    robots_resolved := sections.map_name_orderedRobots
    robots_nodup := wellFormed.listed_nodup
    names_eq := sections.map_name_services
    names_nodup := wellFormed.nodup_services
    summaries_eq := by
      rw [Model.robots_built, List.map_map]
      exact sections.map_id_robots_copy
    services_of_summary := by
      intro summary member
      rw [Model.robots_built] at member
      rcases List.mem_map.mp member with ⟨robot, robotMember, rfl⟩
      exact congrArg (List.map Service.name)
        (Model.servicesOf_built_of_mem sections.nodup_id_robots_copy robotMember).symm
    globals_eq := by
      rw [Model.filter_global_built]
      exact List.map_map }

/-- The services of the sample document. -/
theorem sample_servicesDeclared :
    ∃ model, (sample.toModel .standard).outcome = .ok model ∧
      sample.ServicesDeclared .standard model := by
  rcases exists_toModel_sample with ⟨model, compiled⟩
  exact ⟨model, compiled, servicesDeclared_of_toModel compiled⟩

end Document

end FleetCompose
