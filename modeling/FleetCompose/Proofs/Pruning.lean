import FleetCompose.Proofs.Agreement
import FleetCompose.Proofs.ModelParts

/-!
# Declarations that no area reaches

Areas lead to robots, and robots lead to images and packages. What no area leads to can be
left out: the document without it is accepted as well, and it leads to the same copies and to
the same model, or to the same error.
-/

namespace FleetCompose

namespace Document

variable (doc : Document)

/-- The ids of the images that listed robots refer to. -/
def usedImageNames : List String := doc.listedRobots.flatMap RobotDecl.imageNames

/-- The ids of the packages that listed robots refer to. -/
def usedPackageNames : List String := doc.listedRobots.flatMap RobotDecl.packageNames

/-- The document without the robots that no area lists, and then without the images and
packages that no remaining robot refers to. -/
def pruned : Document :=
  { doc with
    robots := doc.listedRobots
    images := doc.images.filter fun decl => decl.name ∈ doc.usedImageNames
    packages := doc.packages.filter fun decl => decl.name ∈ doc.usedPackageNames }

/-! ## Names -/

/-- The areas are the same, so the robots that are left are listed. -/
theorem listedRobots_pruned : doc.pruned.listedRobots = doc.listedRobots := by
  change doc.listedRobots.filter (fun decl => decl.name ∈ doc.listedNames) = doc.listedRobots
  rw [List.filter_eq_self]
  intro decl listed
  exact decide_eq_true (mem_listedRobots.mp listed).2

theorem serviceNames_pruned (settings : Settings) :
    doc.pruned.serviceNames settings = doc.serviceNames settings := by
  rw [serviceNames, serviceNames, listedRobots_pruned]
  rfl

theorem imageNames_pruned_sublist : doc.pruned.imageNames.Sublist doc.imageNames :=
  List.filter_sublist.map ImageDecl.name

theorem packageNames_pruned_sublist : doc.pruned.packageNames.Sublist doc.packageNames :=
  List.filter_sublist.map PackageDecl.name

theorem robotNames_pruned_sublist : doc.pruned.robotNames.Sublist doc.robotNames :=
  List.filter_sublist.map RobotDecl.name

variable {doc} {settings : Settings}

theorem mem_imageNames_pruned {name : String} (used : name ∈ doc.usedImageNames)
    (declared : name ∈ doc.imageNames) : name ∈ doc.pruned.imageNames := by
  rcases List.mem_map.mp declared with ⟨decl, member, rfl⟩
  exact List.mem_map_of_mem (List.mem_filter.mpr ⟨member, decide_eq_true used⟩)

theorem mem_packageNames_pruned {name : String} (used : name ∈ doc.usedPackageNames)
    (declared : name ∈ doc.packageNames) : name ∈ doc.pruned.packageNames := by
  rcases List.mem_map.mp declared with ⟨decl, member, rfl⟩
  exact List.mem_map_of_mem (List.mem_filter.mpr ⟨member, decide_eq_true used⟩)

/-! ## Acceptance -/

namespace SectionsWellFormed

variable (wellFormed : doc.SectionsWellFormed settings)
include wellFormed

/-- The robots that areas list are kept. -/
theorem pruned_area {decl : AreaDecl} (declared : decl ∈ doc.areaDecls) :
    decl.WellFormed doc.pruned := by
  apply (wellFormed.areas decl declared).of_known
  intro robot member _
  exact wellFormed.mem_fleetNames (mem_listedNames.mpr ⟨decl, declared, member⟩)

/-- What a listed robot refers to is kept. -/
theorem pruned_robot {decl : RobotDecl} (listed : decl ∈ doc.listedRobots) :
    decl.WellFormed settings doc.pruned := by
  apply (wellFormed.robots decl (mem_listedRobots.mp listed).1).of_known
  · intro name member
    exact mem_imageNames_pruned (List.mem_flatMap.mpr ⟨decl, listed, member⟩)
  · intro name member
    exact mem_packageNames_pruned (List.mem_flatMap.mpr ⟨decl, listed, member⟩)

theorem pruned : doc.pruned.SectionsWellFormed settings where
  areas_ne := wellFormed.areas_ne
  images := fun decl member => wellFormed.images decl (List.mem_of_mem_filter member)
  images_nodup := wellFormed.images_nodup.sublist doc.imageNames_pruned_sublist
  packages := fun decl member => wellFormed.packages decl (List.mem_of_mem_filter member)
  packages_nodup := wellFormed.packages_nodup.sublist doc.packageNames_pruned_sublist
  globals := fun decl member => (wellFormed.globals decl member).of_subset
    doc.imageNames_pruned_sublist.subset doc.packageNames_pruned_sublist.subset
  globals_nodup := wellFormed.globals_nodup
  robots := fun _ => wellFormed.pruned_robot
  robots_nodup := wellFormed.robots_nodup.sublist doc.robotNames_pruned_sublist
  areas := fun _ => wellFormed.pruned_area
  areas_nodup := wellFormed.areas_nodup
  listed_nodup := wellFormed.listed_nodup

end SectionsWellFormed

/-- The checks over the whole fleet see the same robots as before. -/
theorem WellFormed.pruned (wellFormed : doc.WellFormed settings) :
    doc.pruned.WellFormed settings where
  toSectionsWellFormed := wellFormed.toSectionsWellFormed.pruned
  endpoints_nodup := by
    rw [listedRobots_pruned]
    exact wellFormed.endpoints_nodup
  services_nodup := by
    rw [serviceNames_pruned]
    exact wellFormed.services_nodup

/-! ## Results -/

theorem imageDecl?_pruned {name : String} (used : name ∈ doc.usedImageNames) :
    doc.pruned.imageDecl? name = doc.imageDecl? name :=
  find?_filter_key (· ∈ doc.usedImageNames) (decide_eq_true used)

theorem packageDecl?_pruned {name : String} (used : name ∈ doc.usedPackageNames) :
    doc.pruned.packageDecl? name = doc.packageDecl? name :=
  find?_filter_key (· ∈ doc.usedPackageNames) (decide_eq_true used)

/-- The references of a listed robot lead to the same declarations. -/
theorem agrees_of_listed {decl : RobotDecl} (listed : decl ∈ doc.listedRobots) :
    decl.Agrees doc doc.pruned where
  images_eq := by
    apply List.filterMap_congr
    intro name member
    exact (imageDecl?_pruned (List.mem_flatMap.mpr ⟨decl, listed, member⟩)).symm
  packages_eq := by
    apply List.filterMap_congr
    intro name member
    exact (packageDecl?_pruned (List.mem_flatMap.mpr ⟨decl, listed, member⟩)).symm

/-- What the areas reach is what is kept. -/
theorem agrees_pruned (doc : Document) : doc.Agrees doc.pruned where
  areas_eq := rfl
  globals_eq := rfl
  robotDecls_eq := by
    intro area declared
    apply List.filterMap_congr
    intro robot member
    exact (find?_listedRobots (mem_listedNames.mpr ⟨area, declared, member⟩)).symm
  robots := by
    intro area declared decl member
    apply agrees_of_listed
    rcases List.mem_filterMap.mp member with ⟨robot, isMember, found⟩
    have listed := mem_listedNames.mpr ⟨area, declared, isMember⟩
    rw [← find?_listedRobots listed] at found
    exact List.mem_of_find?_eq_some found

/-- If a document is accepted, it is accepted without what no area reaches as well, and then
both have one expansion and one model, or one error. -/
theorem same_results_of_pruned {fleet : Fleet}
    (loaded : (loadFleet settings doc).outcome = .ok fleet) :
    ∃ other, (loadFleet settings doc.pruned).outcome = .ok other ∧
      fleet.expand.outcome = other.expand.outcome ∧
      (doc.toModel settings).outcome = (doc.pruned.toModel settings).outcome := by
  rcases loadFleet_eq_ok_iff.mp loaded with ⟨wellFormed, rfl⟩
  have loadedPruned := loadFleet_eq_ok_iff.mpr ⟨wellFormed.pruned, rfl⟩
  have expansion :
      (doc.fleet settings).expand.outcome = (doc.pruned.fleet settings).expand.outcome :=
    (agrees_pruned doc).outcome_expand_eq
  refine ⟨_, loadedPruned, expansion, ?_⟩
  rw [outcome_toModel_of_loaded loaded, outcome_toModel_of_loaded loadedPruned, expansion]

/-- The sample document with a robot that no area lists and that alone uses an image, and with
a package that no robot uses. -/
def overstocked : Document :=
  { sample with
    robots := sample.robots ++ [⟨some "retired", some "noetic", some ["sonar"], none, none, .empty⟩]
    images := ⟨some "sonar", some "sonar:3", .empty⟩ :: sample.images
    packages := ⟨some "planner", some "src/planner", some "plan", some ["git"], none, none, none,
      none, .empty⟩ :: sample.packages }

/-- Three robots, an image and a package are left of the overstocked document. -/
theorem overstocked_same_results :
    ∃ fleet other, (loadFleet .standard overstocked).outcome = .ok fleet ∧
      (loadFleet .standard overstocked.pruned).outcome = .ok other ∧
      (overstocked.pruned.robotNames, overstocked.pruned.imageNames,
        overstocked.pruned.packageNames) = (["scout", "guide", "carrier"], ["camera"], ["driver"]) ∧
      fleet.expand.outcome = other.expand.outcome ∧
      (overstocked.toModel .standard).outcome =
        (overstocked.pruned.toModel .standard).outcome := by
  have succeeds : ∃ fleet, (loadFleet .standard overstocked).outcome = .ok fleet := by
    apply exists_ok_of_isSome
    decide +kernel
  rcases succeeds with ⟨fleet, loaded⟩
  rcases same_results_of_pruned loaded with ⟨other, loadedPruned, results⟩
  refine ⟨fleet, other, loaded, loadedPruned, ?_, results⟩
  decide +kernel

end Document

end FleetCompose
