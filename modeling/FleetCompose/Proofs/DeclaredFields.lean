import FleetCompose.Proofs.BuildContexts

/-!
# Declared fields of services

What an author declares for a service is never lost. Every declared field is among the fields of
the service, and only the fields that the middleware or a mount extends have another value there:
a list or a mapping starts with what was declared, and null makes room for a list. The generated
fields come first, the declared ones keep their order, and what is new stands at the end.
-/

namespace FleetCompose

/-! ## Keys in the order of their insertion -/

namespace OrderedMap

variable {α β : Type} [DecidableEq α]

/-- Put a key to the end of a list of keys, unless it is there. -/
def addKey (keys : List α) (key : α) : List α := if key ∈ keys then keys else keys ++ [key]

section AddKey

variable {key : α} {keys more : List α}

theorem addKey_of_mem (member : key ∈ keys) : addKey keys key = keys := if_pos member

theorem addKey_of_notMem (new : key ∉ keys) : addKey keys key = keys ++ [key] := if_neg new

@[simp] theorem addKey_addKey : addKey (addKey keys key) key = addKey keys key := by
  by_cases member : key ∈ keys
  · rw [addKey_of_mem member, addKey_of_mem member]
  · rw [addKey_of_notMem member, addKey_of_mem (List.mem_append_right _ List.mem_cons_self)]

theorem mem_addKey_iff {other : α} : other ∈ addKey keys key ↔ other ∈ keys ∨ other = key := by
  by_cases member : key ∈ keys
  · rw [addKey_of_mem member]
    constructor
    · exact .inl
    · intro given
      rcases given with before | rfl
      · exact before
      · exact member
  · rw [addKey_of_notMem member, List.mem_append, List.mem_singleton]

theorem mem_foldl_addKey_iff {other : α} :
    other ∈ more.foldl addKey keys ↔ other ∈ keys ∨ other ∈ more := by
  induction more generalizing keys with
  | nil => simp
  | cons key more ih => rw [List.foldl_cons, ih, mem_addKey_iff, List.mem_cons, or_assoc]

/-- Keys that are there already change nothing. -/
theorem foldl_addKey_of_subset (there : ∀ key ∈ more, key ∈ keys) :
    more.foldl addKey keys = keys := by
  induction more with
  | nil => rfl
  | cons key more ih =>
      rw [List.forall_mem_cons] at there
      rw [List.foldl_cons, addKey_of_mem there.1]
      exact ih there.2

/-- New keys are appended in the order of their first occurrence. -/
theorem foldl_addKey_eq :
    more.foldl addKey keys = keys ++ (more.filter (· ∉ keys)).eraseDups := by
  induction more generalizing keys with
  | nil => simp
  | cons key more ih =>
      rw [List.foldl_cons, ih]
      by_cases member : key ∈ keys
      · rw [addKey_of_mem member, List.filter_cons_of_neg (by simpa using member)]
      · have others : more.filter (· ∉ keys ++ [key]) =
            (more.filter (· ∉ keys)).filter fun other => !other == key := by
          rw [List.filter_filter]
          apply List.filter_congr
          intro other _
          simp [and_comm, beq_eq_decide]
        rw [addKey_of_notMem member, List.filter_cons_of_pos (by simpa using member),
          List.eraseDups_cons, others, List.append_assoc, List.singleton_append]

/-- Of distinct keys the new ones are appended. -/
theorem foldl_addKey_of_nodup (nodup : more.Nodup) :
    more.foldl addKey keys = keys ++ more.filter (· ∉ keys) := by
  rw [foldl_addKey_eq, eraseDups_of_nodup (nodup.filter _)]

end AddKey

variable (map : OrderedMap α β)

theorem keys_insert_eq_addKey (key : α) (value : β) :
    (map.insert key value).keys = addKey map.keys key :=
  map.keys_insert key value

theorem keys_insertAll_eq_foldl (entries : List (α × β)) :
    (map.insertAll entries).keys = (entries.map Prod.fst).foldl addKey map.keys := by
  induction entries generalizing map with
  | nil => rfl
  | cons entry rest ih =>
      rw [insertAll_cons, ih, keys_insert_eq_addKey, List.map_cons, List.foldl_cons]

/-- A map that is put over another one adds its other keys behind those of the first. -/
theorem keys_insertAll_entries (other : OrderedMap α β) :
    (map.insertAll other.entries).keys = map.keys ++ other.keys.filter (· ∉ map.keys) := by
  rw [keys_insertAll_eq_foldl, foldl_addKey_of_nodup other.nodup]
  rfl

end OrderedMap

open OrderedMap (addKey mem_foldl_addKey_iff foldl_addKey_of_nodup)

/-! ## Extended values -/

/-- What requirements make of a declared value: nothing, or more of the same. What is added comes
from the requirements, in their order. -/
inductive ExtendedBy (requirements : List Requirement) : Yaml.Value → Yaml.Value → Prop where
  | unrequired {value : Yaml.Value} (none : requirements = []) : ExtendedBy requirements value value
  | fixed {value : Yaml.Value} (fixed : ¬Extensible (some value)) :
      ExtendedBy requirements value value
  | null {items : List Yaml.Value} (filled : items ≠ [])
      (generated : items.Sublist (requirements.map fun r => .string r.item)) :
      ExtendedBy requirements .null (.sequence items)
  | list {items added : List Yaml.Value}
      (generated : added.Sublist (requirements.map fun r => .string r.item)) :
      ExtendedBy requirements (.sequence items) (.sequence (items ++ added))
  | mapping {entries added : List (Yaml.Value × Yaml.Value)}
      (generated : added.Sublist (requirements.map fun r => (.string r.key, r.value))) :
      ExtendedBy requirements (.mapping entries) (.mapping (entries ++ added))

namespace ExtendedBy

variable {requirement : Requirement} {requirements : List Requirement}

/-- Where nothing is required, nothing changes. -/
theorem eq_of_nil {value image : Yaml.Value} (extended : ExtendedBy [] value image) :
    image = value := by
  cases extended with
  | unrequired => rfl
  | fixed => rfl
  | null filled generated => exact absurd (List.sublist_nil.mp generated) filled
  | list generated => rw [List.sublist_nil.mp generated, List.append_nil]
  | mapping generated => rw [List.sublist_nil.mp generated, List.append_nil]

/-- One requirement adds one item or entry, or none. -/
theorem of_apply (requirement : Requirement) (value : Yaml.Value) :
    ExtendedBy [requirement] value (requirement.apply (some value)) := by
  by_cases extensible : Extensible (some value)
  · cases extensible with
    | null => exact .null (List.cons_ne_nil _ _) (List.Sublist.refl _)
    | list items =>
        rw [Requirement.apply]
        split
        next =>
          have same : ExtendedBy [requirement] (.sequence items) (.sequence (items ++ [])) :=
            .list (List.nil_sublist _)
          rwa [List.append_nil] at same
        next => exact .list (List.Sublist.refl _)
    | mapping entries =>
        rw [Requirement.apply]
        split
        next =>
          have same : ExtendedBy [requirement] (.mapping entries) (.mapping (entries ++ [])) :=
            .mapping (List.nil_sublist _)
          rwa [List.append_nil] at same
        next => exact .mapping (List.Sublist.refl _)
  · rw [Requirement.apply_of_not_extensible extensible]
    exact .fixed extensible

/-- Requirements that are met one after the other add up. -/
theorem cons {value middle image : Yaml.Value}
    (first : ExtendedBy [requirement] value middle) (rest : ExtendedBy requirements middle image) :
    ExtendedBy (requirement :: requirements) value image := by
  cases first with
  | unrequired none => cases none
  | fixed fixed =>
      cases rest with
      | unrequired none => exact .fixed fixed
      | fixed => exact .fixed fixed
      | null => exact (fixed .null).elim
      | list => exact (fixed (.list _)).elim
      | mapping => exact (fixed (.mapping _)).elim
  | null filled generated =>
      cases rest with
      | unrequired none => exact .null filled (generated.trans (by simp))
      | fixed fixed => exact (fixed (.list _)).elim
      | list added => exact .null (by simp [filled]) (generated.append added)
  | list generated =>
      cases rest with
      | unrequired none => exact .list (generated.trans (by simp))
      | fixed fixed => exact (fixed (.list _)).elim
      | list added =>
          rw [List.append_assoc]
          exact .list (generated.append added)
  | mapping generated =>
      cases rest with
      | unrequired none => exact .mapping (generated.trans (by simp))
      | fixed fixed => exact (fixed (.mapping _)).elim
      | mapping added =>
          rw [List.append_assoc]
          exact .mapping (generated.append added)

end ExtendedBy

namespace Requirement

theorem filter_field_eq_nil {requirements : List Requirement} {name : String}
    (apart : ∀ requirement ∈ requirements, requirement.field ≠ name) :
    (requirements.filter fun r => r.field == name) = [] := by
  rw [List.filter_eq_nil_iff]
  intro requirement member
  simpa using apart requirement member

/-- Whatever is required of a field, a declared value is kept. -/
theorem exists_settle_eq (requirements : List Requirement) (value : Yaml.Value) :
    ∃ image, settle requirements (some value) = some image ∧
      ExtendedBy requirements value image := by
  induction requirements generalizing value with
  | nil => exact ⟨value, rfl, .unrequired rfl⟩
  | cons requirement rest ih =>
      rcases ih (requirement.apply (some value)) with ⟨image, settled, extended⟩
      exact ⟨image, settled, .cons (.of_apply requirement value) extended⟩

theorem keys_foldl_addTo (requirements : List Requirement) (fields : Fields) :
    (requirements.foldl (fun fields r => r.addTo fields) fields).keys =
      (requirements.map field).foldl addKey fields.keys := by
  induction requirements generalizing fields with
  | nil => rfl
  | cons requirement rest ih =>
      rw [List.foldl_cons, ih, List.map_cons, List.foldl_cons, addTo,
        OrderedMap.keys_insert_eq_addKey]

end Requirement

namespace Service

/-! ## The fields of a draft -/

namespace Draft

variable (draft : Draft) (restart : String)

theorem keys_overlaid : draft.overlaid.keys =
    draft.generated.keys ++ draft.declared.keys.filter (· ∉ draft.generated.keys) :=
  OrderedMap.keys_insertAll_entries ..

theorem mem_keys_overlaid_iff {field : String} :
    field ∈ draft.overlaid.keys ↔ field ∈ draft.generated.keys ∨ field ∈ draft.declared.keys := by
  rw [keys_overlaid, List.mem_append, List.mem_filter, decide_eq_true_iff]
  constructor
  · intro given
    exact given.imp id And.left
  · intro given
    by_cases generated : field ∈ draft.generated.keys
    · exact .inl generated
    · exact .inr ⟨given.resolve_left generated, generated⟩

/-- The required fields and the restart policy are added, one after the other. -/
theorem keys_fields : (draft.fields restart).keys =
    (draft.requirements.map Requirement.field ++ ["restart"]).foldl addKey draft.overlaid.keys := by
  rw [List.foldl_append, ← Requirement.keys_foldl_addTo, fields, List.foldl_cons, List.foldl_nil]
  split
  next there => exact (OrderedMap.addKey_of_mem (OrderedMap.contains_iff.mp there)).symm
  next => exact OrderedMap.keys_insert_eq_addKey ..

/-- The restart policy is what was declared or generated, and otherwise that of the settings. -/
theorem get?_restart (apart : ∀ requirement ∈ draft.requirements, requirement.field ≠ "restart") :
    (draft.fields restart).get? "restart" =
      some (((draft.declared.get? "restart").or (draft.generated.get? "restart")).getD
        (.string restart)) := by
  have before : (draft.requirements.foldl (fun fields r => r.addTo fields) draft.overlaid).get?
      "restart" = (draft.declared.get? "restart").or (draft.generated.get? "restart") := by
    rw [Requirement.get?_foldl_addTo, Requirement.filter_field_eq_nil apart, get?_overlaid]
    rfl
  rw [fields, OrderedMap.contains, before]
  cases declared : (draft.declared.get? "restart").or (draft.generated.get? "restart") with
  | none => simp [OrderedMap.get?_insert]
  | some value => simp [before, declared]

end Draft

/-! ## What is kept -/

/-- The fields of a service keep what was declared for it. Only the required fields may have
another value than the declared one, and that value extends it. The generated fields come first,
then the declared ones in their order, then what is required and was not declared. -/
structure KeepsDeclared (generated required : List String) (requirements : List Requirement)
    (declared fields : Fields) : Prop where
  kept : ∀ field value, declared.get? field = some value → field ∉ required →
    fields.get? field = some value
  extended : ∀ field value, declared.get? field = some value →
    ∃ image, fields.get? field = some image ∧
      ExtendedBy (requirements.filter fun r => r.field == field) value image
  keys_eq : fields.keys = generated ++ declared.keys.filter (· ∉ generated) ++
    (required ++ ["restart"]).filter (· ∉ declared.keys)

/-- The fields that may be new in a service, in the order in which they are added. -/
def lateFields : List String := ["volumes", "environment", "networks", "depends_on", "restart"]

/-- A draft keeps what was declared. Its requirements are given by the fields that they concern,
each once. -/
theorem Draft.keepsDeclared (draft : Draft) (restart : String) {required : List String}
    (concerned : ∀ keys, (draft.requirements.map Requirement.field).foldl addKey keys =
      required.foldl addKey keys)
    (late : (required ++ ["restart"]).Sublist lateFields)
    (free : ∀ field ∈ lateFields, field ∉ draft.generated.keys) :
    KeepsDeclared draft.generated.keys required draft.requirements draft.declared
      (draft.fields restart) := by
  have nodup : (required ++ ["restart"]).Nodup := List.Nodup.sublist late (by decide)
  have listed : ∀ requirement ∈ draft.requirements, requirement.field ∈ required := by
    intro requirement member
    have added : requirement.field ∈
        (draft.requirements.map Requirement.field).foldl addKey [] := by
      rw [mem_foldl_addKey_iff]
      exact .inr (List.mem_map_of_mem member)
    rw [concerned, mem_foldl_addKey_iff] at added
    exact added.resolve_left List.not_mem_nil
  have apart : ∀ requirement ∈ draft.requirements, requirement.field ≠ "restart" := by
    intro requirement member equal
    rw [List.nodup_append] at nodup
    exact nodup.2.2 _ (listed requirement member) _ (by simp) equal
  have extended : ∀ field value, draft.declared.get? field = some value →
      ∃ image, (draft.fields restart).get? field = some image ∧
        ExtendedBy (draft.requirements.filter fun r => r.field == field) value image := by
    intro field value declared
    by_cases policy : field = "restart"
    · subst policy
      refine ⟨value, ?_, .unrequired (Requirement.filter_field_eq_nil apart)⟩
      rw [draft.get?_restart restart apart, declared]
      rfl
    · rw [draft.get?_fields restart policy, declared]
      exact Requirement.exists_settle_eq _ value
  constructor
  · intro field value declared other
    have apart : ∀ requirement ∈ draft.requirements, requirement.field ≠ field := by
      rintro requirement member rfl
      exact other (listed requirement member)
    rcases extended field value declared with ⟨image, found, same⟩
    rw [Requirement.filter_field_eq_nil apart] at same
    rw [found, same.eq_of_nil]
  · exact extended
  · rw [draft.keys_fields restart, List.foldl_append, concerned, ← List.foldl_append,
      foldl_addKey_of_nodup nodup, draft.keys_overlaid]
    congr 1
    apply List.filter_congr
    intro field member
    have other := free field (late.subset member)
    rw [decide_eq_decide, ← draft.keys_overlaid, draft.mem_keys_overlaid_iff]
    simp [other]

/-! ## Masters, images and packages -/

/-- The fields that the middleware extends in a service of a robot. -/
def wiredFieldsOf (robot : ExpandedRobot) (waits : Bool) : List String :=
  ["environment", "networks"] ++
    if waits && robot.ros.family == .ros1 then ["depends_on"] else []

/-- The field that mounts extend, if there are any. -/
def mountedFields (volumes : List String) : List String :=
  if volumes.isEmpty then [] else ["volumes"]

theorem late_required (robot : ExpandedRobot) (waits : Bool) (volumes : List String) :
    (mountedFields volumes ++ wiredFieldsOf robot waits ++ ["restart"]).Sublist lateFields := by
  have mounted : (mountedFields volumes).Sublist ["volumes"] := by
    rw [mountedFields]
    split
    · exact List.nil_sublist _
    · exact List.Sublist.refl _
  have wired : (wiredFieldsOf robot waits).Sublist ["environment", "networks", "depends_on"] := by
    rw [wiredFieldsOf]
    apply (List.Sublist.refl ["environment", "networks"]).append
    split
    · exact List.Sublist.refl _
    · exact List.nil_sublist _
  exact (mounted.append wired).append (List.Sublist.refl _)

theorem foldl_addKey_wiring (robot : ExpandedRobot) (service : String) (waits : Bool)
    (keys : List String) :
    ((wiring robot service waits).map Requirement.field).foldl addKey keys =
      (wiredFieldsOf robot waits).foldl addKey keys := by
  rw [wiring_eq, wiredFieldsOf, ExpandedRobot.environment]
  cases robot.ros.family with
  | ros1 => cases waits <;> simp [Requirement.envVars, Requirement.field, masterRequirement]
  | ros2 => simp [Requirement.envVars, Requirement.field]

theorem foldl_addKey_mounts (volumes keys : List String) :
    ((Requirement.mounts volumes).map Requirement.field).foldl addKey keys =
      (mountedFields volumes).foldl addKey keys := by
  cases volumes with
  | nil => rfl
  | cons volume rest =>
      have others : ((Requirement.mounts rest).map Requirement.field).foldl addKey
          (addKey keys "volumes") = addKey keys "volumes" := by
        apply OrderedMap.foldl_addKey_of_subset
        intro field member
        rcases List.mem_map.mp member with ⟨requirement, mounted, rfl⟩
        rcases List.mem_map.mp mounted with ⟨other, -, rfl⟩
        exact OrderedMap.mem_addKey_iff.mpr (.inr rfl)
      exact others

/-- Whatever a robot declares for itself, for an image or for a package, the services that are made
from it keep, with any bundled files and any restart policy. -/
theorem keepsDeclared_of_robot (robot : ExpandedRobot) (restart : String) :
    (∀ master ∈ ofMaster robot restart,
      KeepsDeclared ["container_name", "image", "command", "ports"] (wiredFieldsOf robot false)
        (wiring robot robot.masterService false) robot.extra master.fields) ∧
    (∀ image : ExpandedImage,
      KeepsDeclared ["container_name", "image"] (wiredFieldsOf robot true)
        (wiring robot image.service true) image.extra (ofImage robot image restart).fields) ∧
    ∀ (service : String) (extra : Fields) (context : String) (volumes : List String),
      KeepsDeclared ["container_name", "build"] (mountedFields volumes ++ wiredFieldsOf robot true)
        (Requirement.mounts volumes ++ wiring robot service true) extra
        (ofPackage robot service extra context volumes restart).fields := by
  refine ⟨?_, ?_, ?_⟩
  · intro master made
    rw [ofMaster] at made
    split at made
    next =>
      cases made
      apply (masterDraft robot).keepsDeclared restart
      · exact foldl_addKey_wiring robot robot.masterService false
      · exact late_required robot false []
      · change ∀ field ∈ lateFields, field ∉ ["container_name", "image", "command", "ports"]
        decide
    next => cases made
  · intro image
    apply (imageDraft robot image).keepsDeclared restart
    · exact foldl_addKey_wiring robot image.service true
    · exact late_required robot true []
    · change ∀ field ∈ lateFields, field ∉ ["container_name", "image"]
      decide
  · intro service extra context volumes
    apply (packageDraft robot service extra context volumes).keepsDeclared restart
    · intro keys
      change ((Requirement.mounts volumes ++ wiring robot service true).map _).foldl _ _ = _
      rw [List.map_append, List.foldl_append, foldl_addKey_mounts, foldl_addKey_wiring,
        ← List.foldl_append]
    · exact late_required robot true volumes
    · change ∀ field ∈ lateFields, field ∉ ["container_name", "build"]
      decide

/-- A robot of the first generation that declares its environment as a mapping, no networks, what
it waits for and a restart policy, and names its container. -/
def outfittedRobot : ExpandedRobot where
  id := "guide"
  areaId := "yard"
  ros := ⟨"noetic", .ros1, 11400, true⟩
  scope := .ofPairs [("ROBOT_ID", "guide"), ("ROBOT_ROS_DISTRO", "noetic")]
  extra := .ofList
    [("restart", .string "no"), ("depends_on", .sequence [.string "clock"]), ("networks", .null),
      ("environment", .mapping [(.string "ROS_HOSTNAME", .string "localhost")]),
      ("container_name", .string "core")]
  images := []
  packages := []

/-- The master keeps the name of its container, what it waits for and its restart policy. It gets
the network, and the address of the master behind its host name. -/
theorem outfitted_keepsDeclared :
    ∃ master ∈ ofMaster outfittedRobot "always",
      master.fields.keys = ["container_name", "image", "command", "ports", "restart", "depends_on",
        "networks", "environment"] ∧
      master.fields.get? "environment" = some (.mapping
        [(.string "ROS_HOSTNAME", .string "localhost"),
          (.string "ROS_MASTER_URI", .string "http://roscore-guide:11400")]) ∧
      KeepsDeclared ["container_name", "image", "command", "ports"]
        (wiredFieldsOf outfittedRobot false)
        (wiring outfittedRobot outfittedRobot.masterService false) outfittedRobot.extra
        master.fields := by
  have made : ofMaster outfittedRobot "always" =
      some ⟨outfittedRobot.masterService, .master, some outfittedRobot.id,
        (masterDraft outfittedRobot).fields "always"⟩ := rfl
  refine ⟨_, made, ?_, ?_, (keepsDeclared_of_robot outfittedRobot "always").1 _ made⟩
  · decide +kernel
  · rfl

end Service

end FleetCompose
