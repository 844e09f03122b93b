import FleetCompose.Proofs.DeclaredFields
import FleetCompose.Proofs.Middleware

/-!
# Settled fields

A service that is declared with the fields that it was given before gets the same fields again, in
the same order. Whatever form a field has, a requirement that was met once is met from then on, and
a requirement that is met changes nothing.
-/

namespace FleetCompose

/-! ## Maps with the same keys and values -/

namespace OrderedMap

variable {α β : Type} [DecidableEq α]

/-- The entries of a map are its keys with the values that are looked up. -/
theorem map_entries_eq (map : OrderedMap α β) :
    map.entries.map some = map.keys.map fun key => (map.get? key).map (Prod.mk key) := by
  have nodup := map.nodup
  rw [keys, List.map_map]
  simp only [get?]
  generalize map.entries = entries at nodup ⊢
  induction entries with
  | nil => rfl
  | cons entry rest ih =>
      rw [List.map_cons, List.nodup_cons] at nodup
      rw [List.map_cons, List.map_cons, ih nodup.2]
      congr 1
      · simp [lookup]
      · apply List.map_congr_left
        intro other member
        have apart : entry.1 ≠ other.1 := by
          intro equal
          exact nodup.1 (equal ▸ List.mem_map_of_mem member)
        simp [lookup, apart]

/-- A map is its keys and what they lead to. -/
theorem eq_of_keys_of_get? {map other : OrderedMap α β} (keys_eq : map.keys = other.keys)
    (get?_eq : ∀ key, map.get? key = other.get? key) : map = other := by
  apply ext
  apply List.map_injective_iff.mpr fun _ _ => Option.some.inj
  rw [map_entries_eq, map_entries_eq, keys_eq]
  simp only [get?_eq]

section AddKey

variable {keys more : List α}

/-- Adding keys leaves those that are there in front. -/
theorem prefix_foldl_addKey : keys <+: more.foldl addKey keys := by
  induction more generalizing keys with
  | nil => exact List.prefix_refl keys
  | cons key more ih =>
      rw [List.foldl_cons]
      apply List.IsPrefix.trans _ ih
      rw [addKey]
      split
      · exact List.prefix_refl keys
      · exact List.prefix_append keys [key]

end AddKey

end OrderedMap

open OrderedMap (addKey mem_foldl_addKey_iff foldl_addKey_of_subset prefix_foldl_addKey)

/-! ## Requirements that are met -/

namespace Requirement

/-- The field is as the requirement would have it. -/
def Met (requirement : Requirement) (field : Option Yaml.Value) : Prop :=
  some (requirement.apply field) = field

/-- The item that a list gets declares what is required: no variable has an equals sign in its
name. -/
def Recognized (requirement : Requirement) : Prop :=
  ∀ name text, requirement = .envVar name text → '=' ∉ name.toList

variable {requirement : Requirement}

theorem met_list_iff {items : List Yaml.Value} :
    requirement.Met (some (.sequence items)) ↔ items.any requirement.declaredBy = true := by
  rw [Met, apply]
  split
  next declared => simp [declared]
  next missing => simp [missing]

theorem met_mapping_iff {entries : List (Yaml.Value × Yaml.Value)} :
    requirement.Met (some (.mapping entries)) ↔
      Yaml.Value.hasTextKey requirement.key entries = true := by
  rw [Met, apply]
  split
  next declared => simp [declared]
  next missing => simp [missing]

theorem met_of_fixed {value : Yaml.Value} (fixed : ¬Extensible (some value)) :
    requirement.Met (some value) :=
  congrArg some (apply_of_not_extensible fixed)

/-- A requirement is met once it was applied. -/
theorem met_apply (recognized : requirement.Recognized) (field : Option Yaml.Value) :
    requirement.Met (some (requirement.apply field)) := by
  have item := requirement.declaredBy_item recognized
  by_cases extensible : Extensible field
  · cases extensible with
    | absent => exact met_list_iff.mpr (by simp [item])
    | null => exact met_list_iff.mpr (by simp [item])
    | list items =>
        rw [apply]
        split
        next declared => exact met_list_iff.mpr declared
        next => exact met_list_iff.mpr (by simp [item])
    | mapping entries =>
        rw [apply]
        split
        next declared => exact met_mapping_iff.mpr declared
        next => exact met_mapping_iff.mpr (by simp [Yaml.Value.hasTextKey, Yaml.Value.asString?])
  · cases field with
    | none => exact absurd .absent extensible
    | some value =>
        rw [apply_of_not_extensible extensible]
        exact met_of_fixed extensible

/-- Other requirements only add to a field, so what is met stays met. -/
theorem Met.apply {field : Option Yaml.Value} (met : requirement.Met field)
    (other : Requirement) : requirement.Met (some (other.apply field)) := by
  by_cases extensible : Extensible field
  · cases extensible with
    | absent => cases met
    | null => cases met
    | list items =>
        rw [met_list_iff] at met
        rw [Requirement.apply]
        split
        · exact met_list_iff.mpr met
        · exact met_list_iff.mpr (by simp [met])
    | mapping entries =>
        rw [met_mapping_iff] at met
        rw [Requirement.apply]
        split
        · exact met_mapping_iff.mpr met
        · rw [Yaml.Value.hasTextKey] at met
          exact met_mapping_iff.mpr (by simp [Yaml.Value.hasTextKey, met])
  · cases field with
    | none => exact absurd .absent extensible
    | some value => rwa [apply_of_not_extensible extensible]

theorem Met.settle {field : Option Yaml.Value} (met : requirement.Met field)
    (requirements : List Requirement) : requirement.Met (settle requirements field) := by
  induction requirements generalizing field with
  | nil => exact met
  | cons other rest ih => exact ih (met.apply other)

/-- In the end all requirements are met. -/
theorem met_settle {requirements : List Requirement}
    (recognized : ∀ requirement ∈ requirements, requirement.Recognized)
    (field : Option Yaml.Value) :
    ∀ requirement ∈ requirements, requirement.Met (settle requirements field) := by
  induction requirements generalizing field with
  | nil => simp
  | cons first rest ih =>
      rw [List.forall_mem_cons] at recognized ⊢
      constructor
      · exact (met_apply recognized.1 field).settle rest
      · exact ih recognized.2 (some (first.apply field))

theorem settle_of_met {requirements : List Requirement} {field : Option Yaml.Value}
    (met : ∀ requirement ∈ requirements, requirement.Met field) :
    settle requirements field = field := by
  induction requirements with
  | nil => rfl
  | cons first rest ih =>
      rw [List.forall_mem_cons] at met
      have once : settle (first :: rest) field = settle rest (some (first.apply field)) := rfl
      rw [once, met.1, ih met.2]

/-- Only a field that was neither declared nor required is missing. -/
theorem eq_none_of_settle {requirements : List Requirement} {field : Option Yaml.Value}
    (missing : settle requirements field = none) : field = none := by
  induction requirements generalizing field with
  | nil => exact missing
  | cons first rest ih => cases ih missing

/-- Requirements that are applied again change nothing. -/
theorem settle_settle {requirements : List Requirement}
    (recognized : ∀ requirement ∈ requirements, requirement.Recognized)
    (field : Option Yaml.Value) :
    settle requirements (settle requirements field) = settle requirements field :=
  settle_of_met (met_settle recognized field)

end Requirement

/-! ## Services that are declared again -/

namespace Service

/-- The draft with the fields of its own service as the declared ones. -/
def Draft.redeclared (draft : Draft) (restart : String) : Draft :=
  { draft with declared := draft.fields restart }

namespace Draft

section

variable (draft : Draft) (restart : String)

@[simp] theorem generated_redeclared : (draft.redeclared restart).generated = draft.generated := rfl

@[simp] theorem declared_redeclared :
    (draft.redeclared restart).declared = draft.fields restart := rfl

@[simp] theorem requirements_redeclared :
    (draft.redeclared restart).requirements = draft.requirements := rfl

end

variable {draft : Draft} {restart : String}

theorem keys_redeclared :
    ((draft.redeclared restart).fields restart).keys = (draft.fields restart).keys := by
  have whole := draft.keys_fields restart
  -- The generated fields are in front, so it is the other ones that are put behind them again.
  have front : draft.generated.keys <+: (draft.fields restart).keys := by
    rw [whole]
    apply List.IsPrefix.trans _ prefix_foldl_addKey
    rw [keys_overlaid]
    exact List.prefix_append _ _
  rcases front with ⟨others, parts⟩
  have apart : others.filter (· ∉ draft.generated.keys) = others := by
    rw [List.filter_eq_self]
    intro key member
    have nodup := (draft.fields restart).nodup_keys
    rw [← parts, List.nodup_append] at nodup
    simpa using fun generated => nodup.2.2 key generated key member rfl
  have overlaid : (draft.redeclared restart).overlaid.keys = (draft.fields restart).keys := by
    rw [keys_overlaid, generated_redeclared, declared_redeclared, ← parts, List.filter_append,
      apart]
    simp
  rw [keys_fields, overlaid]
  apply foldl_addKey_of_subset
  intro key member
  rw [whole, mem_foldl_addKey_iff]
  exact .inr member

/-- A draft that declares the fields of its own service gives the same fields again. -/
theorem fields_redeclared (draft : Draft) (restart : String)
    (recognized : ∀ requirement ∈ draft.requirements, requirement.Recognized)
    (apart : ∀ requirement ∈ draft.requirements, requirement.field ≠ "restart") :
    (draft.redeclared restart).fields restart = draft.fields restart := by
  apply OrderedMap.eq_of_keys_of_get? keys_redeclared
  intro field
  by_cases policy : field = "restart"
  · subst policy
    have settled := draft.get?_restart restart apart
    rw [get?_restart (draft.redeclared restart) restart apart, declared_redeclared, settled]
    rfl
  · have settled := draft.get?_fields restart policy
    have known : ((draft.fields restart).get? field).or (draft.generated.get? field) =
        (draft.fields restart).get? field := by
      cases found : (draft.fields restart).get? field with
      | none =>
          rw [settled] at found
          exact (Option.or_eq_none_iff.mp (Requirement.eq_none_of_settle found)).2
      | some value => rfl
    rw [get?_fields _ restart policy, declared_redeclared, generated_redeclared,
      requirements_redeclared, known, settled]
    apply Requirement.settle_settle
    intro requirement member
    exact recognized requirement (List.mem_of_mem_filter member)

end Draft

section Requirements

variable (robot : ExpandedRobot) (service : String) (waits : Bool) (volumes : List String)

theorem recognized_wiring :
    ∀ requirement ∈ wiring robot service waits, requirement.Recognized := by
  intro requirement member name text equal
  subst equal
  simp only [wiring_eq, List.mem_append, Requirement.envVars, List.mem_map,
    List.mem_singleton, reduceCtorEq, or_false] at member
  rcases member with ⟨var, listed, same⟩ | waiting
  · cases same
    exact robot.environment_free service var listed
  · split at waiting
    · cases List.mem_singleton.mp waiting
    · cases waiting

theorem field_ne_restart_of_mem_wiring :
    ∀ requirement ∈ wiring robot service waits, requirement.field ≠ "restart" := by
  have none := filter_wiring_of_notMem robot service waits
    (show "restart" ∉ wiredFields by decide)
  intro requirement member
  simpa using List.filter_eq_nil_iff.mp none requirement member

theorem recognized_mounts : ∀ requirement ∈ Requirement.mounts volumes, requirement.Recognized := by
  intro requirement member
  rcases List.mem_map.mp member with ⟨volume, -, rfl⟩
  intro name text equal
  cases equal

theorem field_ne_restart_of_mem_mounts :
    ∀ requirement ∈ Requirement.mounts volumes, requirement.field ≠ "restart" := by
  intro requirement member
  rcases List.mem_map.mp member with ⟨volume, -, rfl⟩
  change "volumes" ≠ "restart"
  decide

end Requirements

/-- A master, an image or a package that declares the fields of its own service gets the same
service again. -/
theorem same_service_of_redeclared (robot : ExpandedRobot) (restart : String) :
    ((ofMaster robot restart).bind fun master =>
      ofMaster { robot with extra := master.fields } restart) = ofMaster robot restart ∧
    (∀ image : ExpandedImage,
      ofImage robot { image with extra := (ofImage robot image restart).fields } restart =
        ofImage robot image restart) ∧
    ∀ (service : String) (extra : Fields) (context : String) (volumes : List String),
      ofPackage robot service (ofPackage robot service extra context volumes restart).fields context
        volumes restart = ofPackage robot service extra context volumes restart := by
  refine ⟨?_, ?_, ?_⟩
  · cases family : robot.ros.family with
    | ros1 =>
        have same := (masterDraft robot).fields_redeclared restart
          (recognized_wiring robot robot.masterService false)
          (field_ne_restart_of_mem_wiring robot robot.masterService false)
        simp only [ofMaster, family, Option.bind_some]
        exact congrArg (fun fields => some (Service.mk _ _ _ fields)) same
    | ros2 => simp only [ofMaster, family, Option.bind_none]
  · intro image
    have same := (imageDraft robot image).fields_redeclared restart
      (recognized_wiring robot image.service true)
      (field_ne_restart_of_mem_wiring robot image.service true)
    exact congrArg (Service.mk image.service .image (some robot.id)) same
  · intro service extra context volumes
    have same := (packageDraft robot service extra context volumes).fields_redeclared restart
      (List.forall_mem_append.mpr
        ⟨recognized_mounts volumes, recognized_wiring robot service true⟩)
      (List.forall_mem_append.mpr
        ⟨field_ne_restart_of_mem_mounts volumes,
          field_ne_restart_of_mem_wiring robot service true⟩)
    exact congrArg (Service.mk service .package (some robot.id)) same

end Service

end FleetCompose
