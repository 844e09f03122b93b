import FleetCompose.Proofs.DeclaredFields
import FleetCompose.Proofs.RobotScopes

/-!
# Declared variables

The variables of a robot are declared in a list of mappings or in one mapping, are checked one after
the other, and are inserted behind those of the system into a map that keeps first places and last
values. What comes out of these stages is read off the declaration here: which name has which value,
and in which order the names stand.
-/

namespace FleetCompose

/-! ## The variables of the system -/

namespace Template.Scope

/-- The names that the system binds for a robot, in their order. -/
def systemNames : RosFamily → List String
  | .ros1 => ["AREA_ID", "ROBOT_ID", "ROBOT_ROS_DISTRO", "ROBOT_ROS_METADATA", "ROBOT_ROS_PORT"]
  | .ros2 => ["AREA_ID", "ROBOT_ID", "ROBOT_ROS_DISTRO", "ROBOT_ROS_METADATA", "ROBOT_ROS_DOMAIN"]

/-- What the system binds. The metadata is a port for a robot with a master, and a domain for any
other one. -/
inductive SystemBinds (areaId id : String) (ros : RosSpec) : String → String → Prop where
  | area : SystemBinds areaId id ros "AREA_ID" areaId
  | robot : SystemBinds areaId id ros "ROBOT_ID" id
  | distro : SystemBinds areaId id ros "ROBOT_ROS_DISTRO" ros.distro
  | metadata : SystemBinds areaId id ros "ROBOT_ROS_METADATA" ros.metadataText
  | port (family : ros.family = .ros1) :
      SystemBinds areaId id ros "ROBOT_ROS_PORT" ros.metadataText
  | domain (family : ros.family = .ros2) :
      SystemBinds areaId id ros "ROBOT_ROS_DOMAIN" ros.metadataText

theorem map_fst_systemVars (areaId : String) (robot : Robot) :
    (systemVars areaId robot).map Prod.fst = systemNames robot.ros.family := by
  cases family : robot.ros.family <;>
    simp [systemVars, systemNames, family, metadataAlias, distroName]

theorem nodup_systemNames (family : RosFamily) : (systemNames family).Nodup := by
  cases family <;> decide

theorem mem_systemVars_iff {areaId : String} {robot : Robot} {name value : String} :
    (name, value) ∈ systemVars areaId robot ↔
      SystemBinds areaId robot.id robot.ros name value := by
  constructor
  · intro member
    simp only [systemVars, List.mem_cons, Prod.mk.injEq, List.not_mem_nil, or_false] at member
    rcases member with ⟨rfl, rfl⟩ | ⟨rfl, rfl⟩ | ⟨rfl, rfl⟩ | ⟨rfl, rfl⟩ | ⟨rfl, rfl⟩
    · exact .area
    · exact .robot
    · exact .distro
    · exact .metadata
    · cases family : robot.ros.family with
      | ros1 => exact .port family
      | ros2 => exact .domain family
  · intro binds
    cases binds with
    | area | robot | distro | metadata => simp [systemVars, distroName]
    | port family | domain family => simp [systemVars, metadataAlias, family]

theorem lastValue_systemVars_eq_some_iff {areaId : String} {robot : Robot} {name value : String} :
    lastValue name (systemVars areaId robot) = some value ↔
      SystemBinds areaId robot.id robot.ros name value := by
  rw [← mem_systemVars_iff]
  refine lastValue_eq_some_iff_mem ?_
  rw [map_fst_systemVars]
  exact nodup_systemNames _

theorem names_ofRobot (areaId : String) (robot : Robot) :
    (ofRobot areaId robot).names =
      systemNames robot.ros.family ++
        ((robot.vars.map Prod.fst).filter (· ∉ systemNames robot.ros.family)).eraseDups := by
  rw [names, ofRobot, ofPairs, OrderedMap.ofList, OrderedMap.keys_insertAll_eq_foldl,
    List.map_append, map_fst_systemVars, List.foldl_append, OrderedMap.keys_empty,
    OrderedMap.foldl_addKey_of_nodup (nodup_systemNames _), List.nil_append]
  have all : (systemNames robot.ros.family).filter (· ∉ ([] : List String)) =
      systemNames robot.ros.family := by
    simp
  rw [all, OrderedMap.foldl_addKey_eq]

end Template.Scope

/-! ## Scopes of declared robots -/

namespace RobotDecl

/-- The names that a robot declares besides those of the system, in the order in which they are
declared first. -/
def furtherNames (settings : Settings) (decl : RobotDecl) : List String :=
  ((decl.varEntries.map Prod.fst).filter
    (· ∉ Template.Scope.systemNames (decl.spec settings).family)).eraseDups

/-- A scope that is read off the declaration of a robot. A declared name has the text of its last
declaration, and any other name what the system binds it to, if it does. -/
structure Scoped (settings : Settings) (areaId : String) (decl : RobotDecl)
    (scope : Template.Scope) : Prop where
  ros : RosSpec.parse settings (fieldText decl.ros) = .ok (decl.spec settings)
  declared : ∀ name value, lastValue name decl.varEntries = some value →
    ∃ text, value.scalarText = some text ∧ scope.get? name = some text
  undeclared : ∀ name, lastValue name decl.varEntries = none → ∀ text,
    scope.get? name = some text ↔
      Template.Scope.SystemBinds areaId decl.name (decl.spec settings) name text
  names_eq : scope.names =
    Template.Scope.systemNames (decl.spec settings).family ++ decl.furtherNames settings

variable {settings : Settings} {doc : Document} {decl : RobotDecl}

theorem lastValue_varTexts (decl : RobotDecl) (name : String) :
    lastValue name decl.varTexts =
      (lastValue name decl.varEntries).map fun value => value.scalarText.getD "" :=
  lastValue_map (fun value : Yaml.Value => value.scalarText.getD "") decl.varEntries

theorem WellFormed.scoped_ofRobot (wellFormed : decl.WellFormed settings doc) (areaId : String) :
    decl.Scoped settings areaId
      (Template.Scope.ofRobot areaId (decl.placed settings doc)) where
  ros := RosSpec.parse_eq_ok_iff.mpr ⟨wellFormed.ros, rfl⟩
  declared := by
    intro name value last
    obtain ⟨text, scalar⟩ := wellFormed.variable_scalar _ (mem_of_lastValue last)
    refine ⟨text, scalar, ?_⟩
    have vars := lastValue_varTexts decl name
    rw [last, Option.map_some, scalar, Option.getD_some] at vars
    rw [Template.Scope.get?_ofRobot, placed, vars, Option.some_or]
  undeclared := by
    intro name none text
    have vars := lastValue_varTexts decl name
    rw [none, Option.map_none] at vars
    rw [Template.Scope.get?_ofRobot, placed, vars, Option.none_or]
    exact Template.Scope.lastValue_systemVars_eq_some_iff
  names_eq := by
    have vars : (decl.placed settings doc).vars.map Prod.fst = decl.varEntries.map Prod.fst := by
      rw [placed, varTexts, List.map_map]
      rfl
    rw [Template.Scope.names_ofRobot, vars]
    rfl

end RobotDecl

/-! ## Documents -/

namespace Document

variable {settings : Settings} {doc : Document}

/-- A robot that an area lists has a copy in the expanded fleet. -/
theorem SectionsWellFormed.copyOf_mem_robots_copy (wellFormed : doc.SectionsWellFormed settings)
    {area : AreaDecl} (areaMember : area ∈ doc.areaDecls) {decl : RobotDecl}
    (declMember : decl ∈ doc.robots) (listed : decl.name ∈ area.members) :
    (doc.fleet settings).copyOf area.name (decl.placed settings doc) ∈
      (doc.fleet settings).copy.robots := by
  rw [robots_copy]
  refine List.mem_flatMap.mpr ⟨area, areaMember, List.mem_map_of_mem ?_⟩
  exact List.mem_filterMap.mpr
    ⟨decl.name, listed, wellFormed.robotDecl?_eq_some_iff.mpr ⟨declMember, rfl⟩⟩

/-- In an accepted document every robot that an area lists has the scope that its declaration says:
for any area in the fleet, for its own one when the fleet is expanded, and in its summary when the
fleet is converted. -/
theorem scoped_of_loadFleet {fleet : Fleet}
    (loaded : (loadFleet settings doc).outcome = .ok fleet) :
    List.Forall₂
        (fun decl robot => ∀ areaId, decl.Scoped settings areaId (.ofRobot areaId robot))
        doc.listedRobots fleet.robots ∧
      ∀ area ∈ doc.areaDecls, ∀ decl ∈ doc.robots, decl.name ∈ area.members →
        ∀ expanded, fleet.expand.outcome = .ok expanded →
          (∃ robot, expanded.findRobot decl.name = some robot ∧
            decl.Scoped settings area.name robot.scope) ∧
          ∀ model, (Model.ofFleet settings expanded).outcome = .ok model →
            ∃ summary, model.summariesOf decl.name = [summary] ∧
              decl.Scoped settings area.name ⟨summary.vars⟩ := by
  obtain ⟨wellFormed, rfl⟩ := loadFleet_eq_ok_iff.mp loaded
  constructor
  · rw [fleet, List.forall₂_map_right_iff, List.forall₂_same]
    intro decl listed areaId
    exact (wellFormed.robots decl (mem_listedRobots.mp listed).1).scoped_ofRobot areaId
  · intro area areaMember decl declMember listed expanded expands
    have reads := (wellFormed.robots decl declMember).scoped_ofRobot area.name
    rw [Fleet.outcome_expand, verdict_eq_ok_iff] at expands
    obtain ⟨-, rfl⟩ := expands
    have member := wellFormed.copyOf_mem_robots_copy areaMember declMember listed
    have nodup := wellFormed.nodup_id_robots_copy
    constructor
    · exact ⟨_, (find?_key_eq_some_iff nodup).mpr ⟨member, rfl⟩, reads⟩
    · intro model converts
      obtain ⟨-, rfl⟩ := Model.ofFleet_eq_ok_iff.mp converts
      have alone := @Model.summariesOf_built_of_mem settings _ nodup _ member
      exact ⟨_, alone, reads⟩

/-- A robot that declares a variable twice, and one of the system. -/
def relabelledCarrier : RobotDecl where
  id := some "carrier"
  ros := some "noetic"
  images := some ["camera"]
  packages := none
  vars := some (.list [.ofList [("SIDE", .string "left"), ("ROBOT_ID", .string "mule")],
    .ofList [("RATE", .bool true)], .ofList [("SIDE", .string "right")]])
  extra := .empty

/-- A document with that robot. -/
def relabelled : Document where
  areas := some [⟨some "yard", some ["carrier"]⟩]
  robots := [relabelledCarrier]
  images := [⟨some "camera", some "camera", .empty⟩]
  packages := []
  globals := []

/-- Its variables keep their first places and have their last values. -/
theorem relabelled_scoped :
    ∃ fleet robot expanded model summary,
      (loadFleet .standard relabelled).outcome = .ok fleet ∧ fleet.robots = [robot] ∧
      relabelledCarrier.Scoped .standard "field" (.ofRobot "field" robot) ∧
      fleet.expand.outcome = .ok expanded ∧
      (Model.ofFleet .standard expanded).outcome = .ok model ∧
      model.summariesOf "carrier" = [summary] ∧
      relabelledCarrier.Scoped .standard "yard" ⟨summary.vars⟩ ∧
      summary.vars.entries =
        [("AREA_ID", "yard"), ("ROBOT_ID", "mule"), ("ROBOT_ROS_DISTRO", "noetic"),
          ("ROBOT_ROS_METADATA", "11311"), ("ROBOT_ROS_PORT", "11311"), ("SIDE", "right"),
          ("RATE", "true")] := by
  have loads : (loadFleet .standard relabelled).outcome.toOption.isSome = true := by
    decide +kernel
  obtain ⟨fleet, loaded⟩ := exists_ok_of_isSome loads
  obtain ⟨-, rfl⟩ := loadFleet_eq_ok_iff.mp loaded
  have bound : (relabelled.fleet .standard).misfits.isEmpty = true := by
    decide +kernel
  have expands : (relabelled.fleet .standard).expand.outcome =
      .ok (relabelled.fleet .standard).copy := by
    rw [Fleet.outcome_expand, List.isEmpty_iff.mp bound]
    rfl
  have ran : ((Model.ofFleet .standard (relabelled.fleet .standard).copy).outcome.toOption.map
      fun model => (model.summariesOf "carrier").map fun summary => summary.vars.entries) =
      some [[("AREA_ID", "yard"), ("ROBOT_ID", "mule"), ("ROBOT_ROS_DISTRO", "noetic"),
        ("ROBOT_ROS_METADATA", "11311"), ("ROBOT_ROS_PORT", "11311"), ("SIDE", "right"),
        ("RATE", "true")]] := by
    decide +kernel
  obtain ⟨model, converts, entries⟩ := exists_ok_of_map_eq_some ran
  have carrier : relabelledCarrier.name = "carrier" := by decide +kernel
  have yard : AreaDecl.name ⟨some "yard", some ["carrier"]⟩ = "yard" := by decide +kernel
  obtain ⟨robots, declared⟩ := scoped_of_loadFleet loaded
  obtain ⟨-, converted⟩ := declared _ List.mem_cons_self relabelledCarrier List.mem_cons_self
    (by decide +kernel) _ expands
  obtain ⟨summary, alone, reads⟩ := converted model converts
  rw [carrier] at alone
  rw [yard] at reads
  rw [alone, List.map_singleton, List.singleton_inj] at entries
  have listed : relabelled.listedRobots = [relabelledCarrier] := by
    have all : relabelled.robots.filter (fun decl => decl.name ∈ relabelled.listedNames) =
        relabelled.robots := by
      rw [List.filter_eq_self]
      decide +kernel
    exact all
  rw [fleet, listed] at robots
  obtain ⟨anywhere, -⟩ := List.forall₂_cons.mp robots
  refine ⟨_, relabelledCarrier.placed .standard relabelled, _, model, summary, loaded, ?_,
    anywhere "field", expands, converts, alone, reads, entries⟩
  rw [fleet, listed]
  rfl

end Document

end FleetCompose
