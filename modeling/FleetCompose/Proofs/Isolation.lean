import FleetCompose.Proofs.Agreement
import FleetCompose.Proofs.ModelParts

/-!
# Robots on their own

What a model has of a robot depends on the other robots in no way, even where they share images
and packages. If two documents differ in one robot only, every other robot has the same services,
builds and summary in both models.
-/

namespace FleetCompose

namespace Document

/-! ## The copies of one robot -/

/-- The robots of a name in an area are what the name leads to. -/
theorem filter_robotDecls (doc : Document) (area : AreaDecl) (robot : String) :
    ((area.robotDecls doc).filter fun decl => decl.name == robot) =
      (area.members.filter (· == robot)).filterMap doc.robotDecl? := by
  rw [AreaDecl.robotDecls, List.filter_filterMap, List.filterMap_filter]
  apply List.filterMap_congr
  intro member _
  cases found : doc.robotDecl? member with
  | none => simp
  | some decl =>
      have named := List.find?_some found
      have equal : decl.name = member := by simpa using named
      by_cases same : member = robot
      · simp [equal, same]
      · simp [equal, same]

theorem filter_robots_copy (settings : Settings) (doc : Document) (robot : String) :
    ((doc.fleet settings).copy.robots.filter fun copy => copy.id == robot) =
      doc.areaDecls.flatMap fun area =>
        ((area.members.filter (· == robot)).filterMap doc.robotDecl?).map fun decl =>
          (doc.fleet settings).copyOf area.name (decl.placed settings doc) := by
  rw [robots_copy, List.filter_flatMap]
  apply List.flatMap_congr
  intro area _
  rw [List.filter_map, ← filter_robotDecls]
  rfl

/-! ## Documents that differ in one robot -/

/-- The documents differ at most in the declaration of one robot. -/
structure AgreeApartFrom (robot : String) (first second : Document) : Prop where
  areas_eq : first.areas = second.areas
  robots_eq : (first.robots.filter fun decl => decl.name != robot) =
    second.robots.filter fun decl => decl.name != robot
  images_eq : first.images = second.images
  packages_eq : first.packages = second.packages
  globals_eq : first.globals = second.globals

/-- Declarations of one robot do not stand in the way of other names. -/
theorem find?_apartFrom (doc : Document) {robot name : String} (apart : name ≠ robot) :
    ((doc.robots.filter fun decl => decl.name != robot).find? fun decl => decl.name == name) =
      doc.robotDecl? name :=
  find?_filter_key (· != robot) (bne_iff_ne.mpr apart)

namespace AgreeApartFrom

variable {robot : String} {first second : Document} (agree : AgreeApartFrom robot first second)
include agree

theorem robotDecl?_eq {name : String} (apart : name ≠ robot) :
    first.robotDecl? name = second.robotDecl? name := by
  rw [← find?_apartFrom first apart, ← find?_apartFrom second apart, agree.robots_eq]

/-- Robots refer to the same images and packages. -/
theorem agrees (decl : RobotDecl) : decl.Agrees first second := by
  have images : first.imageDecl? = second.imageDecl? := by
    funext name
    rw [imageDecl?, imageDecl?, agree.images_eq]
  have packages : first.packageDecl? = second.packageDecl? := by
    funext name
    rw [packageDecl?, packageDecl?, agree.packages_eq]
  exact .of_lookups images packages decl

theorem filter_robots_copy_eq (settings : Settings) {name : String} (apart : name ≠ robot) :
    ((first.fleet settings).copy.robots.filter fun copy => copy.id == name) =
      (second.fleet settings).copy.robots.filter fun copy => copy.id == name := by
  rw [filter_robots_copy, filter_robots_copy, areaDecls, areaDecls, agree.areas_eq]
  apply List.flatMap_congr
  intro area _
  have declared : (area.members.filter (· == name)).filterMap first.robotDecl? =
      (area.members.filter (· == name)).filterMap second.robotDecl? := by
    apply List.filterMap_congr
    intro member isMember
    have named : member = name := by simpa using List.of_mem_filter isMember
    rw [named, agree.robotDecl?_eq apart]
  rw [declared]
  apply List.map_congr_left
  intro decl _
  exact (agree.agrees decl).copyOf_eq area.name

end AgreeApartFrom

/-- Where two compiled documents differ in one robot only, every other robot has the same
services, builds and summary. -/
theorem isolated_of_agreeApartFrom {settings : Settings} {robot name : String}
    {first second : Document} {model other : Model} (agree : AgreeApartFrom robot first second)
    (compiled : (first.toModel settings).outcome = .ok model)
    (otherCompiled : (second.toModel settings).outcome = .ok other)
    (apart : name ≠ robot) (listed : name ∈ first.listedNames) :
    model.servicesOf name = other.servicesOf name ∧ model.buildsOf name = other.buildsOf name ∧
      ∃ summary, model.summariesOf name = [summary] ∧ other.summariesOf name = [summary] := by
  rcases toModel_eq_ok_iff.mp compiled with ⟨wellFormed, -, -, rfl⟩
  rcases toModel_eq_ok_iff.mp otherCompiled with ⟨-, -, -, rfl⟩
  have copies := agree.filter_robots_copy_eq settings apart
  have sections := wellFormed.toSectionsWellFormed
  rw [← sections.map_id_robots_copy] at listed
  rcases List.mem_map.mp listed with ⟨copy, member, rfl⟩
  have only := filter_key_eq_singleton sections.nodup_id_robots_copy member
  refine ⟨?_, ?_, Model.summary copy (Model.builtServices settings copy), ?_, ?_⟩
  · rw [Model.servicesOf_built, Model.servicesOf_built, copies]
  · rw [Model.buildsOf_built, Model.buildsOf_built, copies]
  · rw [Model.summariesOf_built, only, List.map_singleton]
  · rw [Model.summariesOf_built, ← copies, only, List.map_singleton]

/-! ## Replacing a robot -/

/-- The document with another declaration of a robot. -/
def replaceRobot (doc : Document) (replacement : RobotDecl) : Document :=
  { doc with
    robots := doc.robots.map fun decl =>
      if decl.name = replacement.name then replacement else decl }

theorem agreeApartFrom_replaceRobot (doc : Document) (replacement : RobotDecl) :
    AgreeApartFrom replacement.name doc (doc.replaceRobot replacement) where
  areas_eq := rfl
  robots_eq := by
    rw [replaceRobot]
    induction doc.robots with
    | nil => rfl
    | cons decl rest ih =>
        by_cases named : decl.name = replacement.name
        · simpa [named] using ih
        · simpa [named] using ih
  images_eq := rfl
  packages_eq := rfl
  globals_eq := rfl

/-- The scout with another distribution, other variables and other references. -/
def refittedScout : RobotDecl :=
  ⟨some "scout", some "noetic:11400", none, some ["driver"],
    some (.map (.ofList [("SPEED", .string "slow"), ("MODE", .string "night")])),
    .ofList [("privileged", .bool true)]⟩

/-- The guide shares a package with the scout, and does not notice that the scout changes. -/
theorem sample_guide_isolated :
    ∃ model other summary, (sample.toModel .standard).outcome = .ok model ∧
      ((sample.replaceRobot refittedScout).toModel .standard).outcome = .ok other ∧
      model.servicesOf "guide" = other.servicesOf "guide" ∧
      model.buildsOf "guide" = other.buildsOf "guide" ∧
      model.summariesOf "guide" = [summary] ∧ other.summariesOf "guide" = [summary] := by
  have refitted : ∃ other,
      ((sample.replaceRobot refittedScout).toModel .standard).outcome = .ok other := by
    apply exists_ok_of_isSome
    decide +kernel
  rcases exists_toModel_sample with ⟨model, compiled⟩
  rcases refitted with ⟨other, otherCompiled⟩
  have agree := agreeApartFrom_replaceRobot sample refittedScout
  have apart : "guide" ≠ refittedScout.name := by
    decide +kernel
  have listed : "guide" ∈ sample.listedNames := by
    decide +kernel
  have isolated := isolated_of_agreeApartFrom agree compiled otherCompiled apart listed
  rcases isolated with ⟨services, builds, summary, first, second⟩
  exact ⟨model, other, summary, compiled, otherCompiled, services, builds, first, second⟩

end Document

end FleetCompose
