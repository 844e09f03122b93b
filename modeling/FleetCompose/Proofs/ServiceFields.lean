import FleetCompose.Proofs.FieldForms
import FleetCompose.Proofs.ModelParts

/-!
# The fields of a robot's services

Every service of a robot has fields that were declared for it: the robot's own for its master, and
those of the image or the package otherwise. The fields of the service are these over a few
generated ones, extended by what the middleware requires. A requirement concerns one field, so
each field can be told on its own.
-/

namespace FleetCompose

/-! ## Maps -/

namespace OrderedMap

variable {α β : Type} [DecidableEq α]

theorem get?_insertAll_of_nodup {entries : List (α × β)} (nodup : (entries.map Prod.fst).Nodup)
    (map : OrderedMap α β) (key : α) :
    (map.insertAll entries).get? key = (lookup key entries).or (map.get? key) := by
  induction entries generalizing map with
  | nil => rfl
  | cons entry rest ih =>
      rw [List.map_cons, List.nodup_cons] at nodup
      rw [insertAll_cons, ih nodup.2, get?_insert]
      by_cases here : entry.1 = key
      · subst here
        have later : lookup entry.1 rest = none := by
          rw [← Option.not_isSome_iff_eq_none, lookup_isSome_iff]
          exact nodup.1
        simp [lookup, later]
      · simp [lookup, here, Ne.symm here]

/-- Entries that are put over a map count first. -/
theorem get?_insertAll_entries (map other : OrderedMap α β) (key : α) :
    (map.insertAll other.entries).get? key = (other.get? key).or (map.get? key) :=
  get?_insertAll_of_nodup other.nodup map key

end OrderedMap

/-! ## Requirements of one field -/

namespace Requirement

theorem get?_addTo (requirement : Requirement) (fields : Fields) (field : String) :
    (requirement.addTo fields).get? field =
      if field = requirement.field then some (requirement.apply (fields.get? field))
      else fields.get? field := by
  rw [addTo, OrderedMap.get?_insert]
  split
  next equal => rw [equal]
  next => rfl

/-- Only the requirements of a field change it. -/
theorem get?_foldl_addTo (requirements : List Requirement) (fields : Fields) (field : String) :
    (requirements.foldl (fun fields r => r.addTo fields) fields).get? field =
      (requirements.filter fun r => r.field == field).foldl
        (fun value r => some (r.apply value)) (fields.get? field) := by
  induction requirements generalizing fields with
  | nil => rfl
  | cons requirement rest ih =>
      rw [List.foldl_cons, ih, get?_addTo]
      by_cases here : field = requirement.field
      · simp [here]
      · have apart : requirement.field ≠ field := Ne.symm here
        simp [here, apart]

end Requirement

namespace Service

theorem Draft.get?_overlaid (draft : Draft) (field : String) :
    draft.overlaid.get? field = (draft.declared.get? field).or (draft.generated.get? field) :=
  OrderedMap.get?_insertAll_entries draft.generated draft.declared field

/-- A field of a service is the declared or else the generated one, with the requirements that
concern it. -/
theorem Draft.get?_fields (draft : Draft) (restart : String) {field : String}
    (apart : field ≠ "restart") :
    (draft.fields restart).get? field =
      Requirement.settle (draft.requirements.filter fun r => r.field == field)
        ((draft.declared.get? field).or (draft.generated.get? field)) := by
  have filled : (draft.fields restart).get? field =
      (draft.requirements.foldl (fun fields r => r.addTo fields) draft.overlaid).get? field := by
    unfold Draft.fields
    dsimp only
    split
    · rfl
    · rw [OrderedMap.get?_insert, if_neg apart]
  rw [filled, Requirement.get?_foldl_addTo, Draft.get?_overlaid]
  rfl

/-! ## What the middleware requires -/

/-- The requirement that a service waits for the master of its robot. -/
def masterRequirement (robot : ExpandedRobot) : Requirement :=
  .member "depends_on" robot.masterService
    (.mapping [(.string "condition", .string "service_started")])

section Wiring

variable (robot : ExpandedRobot) (service : String) (waits : Bool)

theorem wiring_eq : wiring robot service waits =
    Requirement.envVars (robot.environment service) ++
      [.member "networks" (areaNetwork robot.areaId) .null] ++
      if waits && robot.ros.family == .ros1 then [masterRequirement robot] else [] :=
  rfl

/-- The fields that the middleware extends. -/
def wiredFields : List String := ["environment", "networks", "depends_on"]

/-- The middleware requires nothing of other fields. -/
theorem filter_wiring_of_notMem {field : String} (other : field ∉ wiredFields) :
    ((wiring robot service waits).filter fun r => r.field == field) = [] := by
  have wired : ∀ requirement ∈ wiring robot service waits, requirement.field ∈ wiredFields := by
    intro requirement member
    simp only [wiring_eq, List.mem_append, Requirement.envVars, List.mem_map,
      List.mem_singleton] at member
    rcases member with (⟨var, -, rfl⟩ | rfl) | waiting
    · simp [wiredFields, Requirement.field]
    · simp [wiredFields, Requirement.field]
    · split at waiting
      · rw [List.mem_singleton.mp waiting]
        simp [wiredFields, Requirement.field, masterRequirement]
      · cases waiting
  rw [List.filter_eq_nil_iff]
  intro requirement member equal
  exact other (beq_iff_eq.mp equal ▸ wired requirement member)

theorem filter_wiring_environment :
    ((wiring robot service waits).filter fun r => r.field == "environment") =
      Requirement.envVars (robot.environment service) := by
  rw [wiring_eq, List.filter_append, List.filter_append]
  have vars : (Requirement.envVars (robot.environment service)).filter
      (fun r => r.field == "environment") = Requirement.envVars (robot.environment service) := by
    rw [List.filter_eq_self]
    intro requirement member
    rcases List.mem_map.mp member with ⟨var, -, rfl⟩
    rfl
  rw [vars]
  split <;> simp [masterRequirement, Requirement.field]

theorem filter_wiring_networks :
    ((wiring robot service waits).filter fun r => r.field == "networks") =
      [.member "networks" (areaNetwork robot.areaId) .null] := by
  rw [wiring_eq, List.filter_append, List.filter_append, Requirement.envVars,
    filter_map_eq_nil (fun _ => rfl)]
  split <;> simp [masterRequirement, Requirement.field]

theorem filter_wiring_dependsOn :
    ((wiring robot service waits).filter fun r => r.field == "depends_on") =
      if waits && robot.ros.family == .ros1 then [masterRequirement robot] else [] := by
  rw [wiring_eq, List.filter_append, List.filter_append, Requirement.envVars,
    filter_map_eq_nil (fun _ => rfl)]
  split <;> simp [masterRequirement, Requirement.field]

end Wiring

/-- A field that the middleware does not extend is the declared or else the generated one. -/
theorem Draft.get?_fields_of_wiring (draft : Draft) {robot : ExpandedRobot} {service : String}
    {waits : Bool} (requirements : draft.requirements = wiring robot service waits)
    (restart : String) {field : String} (other : field ∉ wiredFields) (apart : field ≠ "restart") :
    (draft.fields restart).get? field =
      (draft.declared.get? field).or (draft.generated.get? field) := by
  rw [Draft.get?_fields _ _ apart, requirements, filter_wiring_of_notMem _ _ _ other]
  rfl

end Service

/-! ## Where the services of a robot come from -/

/-- What a service of a robot is made from: its kind, its name and the fields that were declared
for it. -/
structure Origin where
  kind : ServiceKind
  name : String
  declared : Fields

/-- The master of a robot of the first generation, its images and its packages. -/
def ExpandedRobot.origins (robot : ExpandedRobot) : List Origin :=
  (match robot.ros.family with
    | .ros1 => [⟨.master, robot.masterService, robot.extra⟩]
    | .ros2 => []) ++
    robot.images.map (fun image => ⟨.image, image.service, image.extra⟩) ++
    robot.packages.map fun package => ⟨.package, package.service, package.extra⟩

/-- The service of a robot that is made from an origin. -/
structure Origin.Makes (robot : ExpandedRobot) (origin : Origin) (service : Service) : Prop where
  kind_eq : service.kind = origin.kind
  name_eq : service.name = origin.name
  robot_eq : service.robot = some robot.id

/-- Only services other than the master wait for it. -/
def Origin.waits (origin : Origin) : Bool := origin.kind != .master

/-- What becomes of the declared fields that the middleware extends. -/
structure Origin.Wires (robot : ExpandedRobot) (origin : Origin) (service : Service) : Prop
    extends Origin.Makes robot origin service where
  environment_eq : service.fields.get? "environment" =
    Requirement.settle (Requirement.envVars (robot.environment origin.name))
      (origin.declared.get? "environment")
  networks_eq : service.fields.get? "networks" =
    Requirement.settle [.member "networks" (areaNetwork robot.areaId) .null]
      (origin.declared.get? "networks")
  dependsOn_eq : service.fields.get? "depends_on" =
    Requirement.settle
      (if origin.waits && robot.ros.family == .ros1 then [Service.masterRequirement robot] else [])
      (origin.declared.get? "depends_on")

namespace Service

/-- A draft whose requirements end in those of the middleware gives a service of the robot. -/
theorem Draft.wires (draft : Draft) (mounts : List Requirement) {robot : ExpandedRobot}
    {kind : ServiceKind} {name : String}
    (requirements : draft.requirements = mounts ++ wiring robot name (kind != .master))
    (volumes : ∀ requirement ∈ mounts, requirement.field = "volumes")
    (free : ∀ field ∈ wiredFields, draft.generated.get? field = none) (restart : String) :
    Origin.Wires robot ⟨kind, name, draft.declared⟩
      ⟨name, kind, some robot.id, draft.fields restart⟩ := by
  -- No generated field, mount or restart policy concerns a field that the middleware extends.
  have settled : ∀ field ∈ wiredFields, (draft.fields restart).get? field =
      Requirement.settle ((wiring robot name (kind != .master)).filter fun r => r.field == field)
        (draft.declared.get? field) := by
    intro field wired
    have others : ∀ other ∈ wiredFields, other ≠ "restart" ∧ other ≠ "volumes" := by
      decide
    have apart := others field wired
    have none : (mounts.filter fun r => r.field == field) = [] := by
      rw [List.filter_eq_nil_iff]
      intro requirement member
      rw [volumes requirement member]
      simpa using apart.2.symm
    rw [Draft.get?_fields draft restart apart.1, requirements, List.filter_append, none,
      List.nil_append, free field wired, Option.or_none]
  exact {
    kind_eq := rfl
    name_eq := rfl
    robot_eq := rfl
    environment_eq := by
      rw [settled _ (by simp [wiredFields]), filter_wiring_environment]
    networks_eq := by
      rw [settled _ (by simp [wiredFields]), filter_wiring_networks]
    dependsOn_eq := by
      rw [settled _ (by simp [wiredFields]), filter_wiring_dependsOn]
      rfl }

theorem wires_master (robot : ExpandedRobot) (restart : String) :
    Origin.Wires robot ⟨.master, robot.masterService, robot.extra⟩
      ⟨robot.masterService, .master, some robot.id, (masterDraft robot).fields restart⟩ := by
  apply Draft.wires (masterDraft robot) [] rfl
  · intro requirement member
    cases member
  · simp [wiredFields, masterDraft, textFields, OrderedMap.ofList, OrderedMap.insertAll,
      OrderedMap.get?_insert]

theorem wires_image (robot : ExpandedRobot) (image : ExpandedImage) (restart : String) :
    Origin.Wires robot ⟨.image, image.service, image.extra⟩ (ofImage robot image restart) := by
  apply Draft.wires (imageDraft robot image) [] rfl
  · intro requirement member
    cases member
  · simp [wiredFields, imageDraft, textFields, OrderedMap.ofList, OrderedMap.insertAll,
      OrderedMap.get?_insert]

theorem wires_package (robot : ExpandedRobot) (service : String) (extra : Fields)
    (context : String) (volumes : List String) (restart : String) :
    Origin.Wires robot ⟨.package, service, extra⟩
      (ofPackage robot service extra context volumes restart) := by
  apply Draft.wires (packageDraft robot service extra context volumes) _ rfl
  · intro requirement member
    rcases List.mem_map.mp member with ⟨volume, -, rfl⟩
    rfl
  · simp [wiredFields, packageDraft, textFields, OrderedMap.ofList, OrderedMap.insertAll,
      OrderedMap.get?_insert]

end Service

namespace Model

/-- The services of a robot are made from its origins, one by one. -/
theorem wires_builtServices (settings : Settings) (robot : ExpandedRobot) :
    List.Forall₂ (Origin.Wires robot) robot.origins (builtServices settings robot) := by
  have master : List.Forall₂ (Origin.Wires robot)
      (match robot.ros.family with
        | .ros1 => [⟨.master, robot.masterService, robot.extra⟩]
        | .ros2 => [])
      (Service.ofMaster robot settings.restart).toList := by
    rw [Service.ofMaster]
    cases robot.ros.family with
    | ros1 => exact .cons (Service.wires_master robot settings.restart) .nil
    | ros2 => exact .nil
  have images : List.Forall₂ (Origin.Wires robot)
      (robot.images.map fun image => ⟨.image, image.service, image.extra⟩)
      (robot.images.map fun image => Service.ofImage robot image settings.restart) := by
    rw [List.forall₂_map_left_iff, List.forall₂_map_right_iff, List.forall₂_same]
    intro image _
    exact Service.wires_image robot image settings.restart
  have packages : List.Forall₂ (Origin.Wires robot)
      (robot.packages.map fun package => ⟨.package, package.service, package.extra⟩)
      (robot.packages.map (builtService settings robot)) := by
    rw [List.forall₂_map_left_iff, List.forall₂_map_right_iff, List.forall₂_same]
    intro package _
    exact Service.wires_package robot package.service package.extra _ _ settings.restart
  exact List.rel_append (List.rel_append master images) packages

end Model

end FleetCompose
