import FleetCompose.Proofs.Agreement
import FleetCompose.Proofs.ModelParts

/-!
# The order of the sections

References are followed by name, so the order in which robots, images and packages are declared
does not matter: a document and the same document with these sections in another order are
accepted alike, and they lead to the same copies and to the same model.
-/

namespace FleetCompose

namespace Document

/-- Robots, images and packages are declared in another order. -/
structure Reordered (first second : Document) : Prop where
  areas_eq : first.areas = second.areas
  robots : first.robots.Perm second.robots
  images : first.images.Perm second.images
  packages : first.packages.Perm second.packages
  globals_eq : first.globals = second.globals

namespace Reordered

variable {settings : Settings} {first second : Document}

theorem symm (reordered : first.Reordered second) : second.Reordered first where
  areas_eq := reordered.areas_eq.symm
  robots := reordered.robots.symm
  images := reordered.images.symm
  packages := reordered.packages.symm
  globals_eq := reordered.globals_eq.symm

variable (reordered : first.Reordered second)
include reordered

/-! ## Names -/

theorem areaDecls_eq : first.areaDecls = second.areaDecls := by
  rw [areaDecls, areaDecls, reordered.areas_eq]

theorem listedNames_eq : first.listedNames = second.listedNames := by
  rw [listedNames, listedNames, reordered.areaDecls_eq]

theorem imageNames_perm : first.imageNames.Perm second.imageNames :=
  reordered.images.map ImageDecl.name

theorem packageNames_perm : first.packageNames.Perm second.packageNames :=
  reordered.packages.map PackageDecl.name

theorem robotNames_perm : first.robotNames.Perm second.robotNames :=
  reordered.robots.map RobotDecl.name

theorem listedRobots_perm : first.listedRobots.Perm second.listedRobots := by
  rw [listedRobots, listedRobots, reordered.listedNames_eq]
  exact reordered.robots.filter _

theorem serviceNames_perm (settings : Settings) :
    (first.serviceNames settings).Perm (second.serviceNames settings) := by
  rw [serviceNames, serviceNames, reordered.globals_eq]
  apply List.Perm.append_right
  exact reordered.listedRobots_perm.flatMap_right _

/-! ## Acceptance -/

theorem wellFormed_area {decl : AreaDecl} (wellFormed : decl.WellFormed first) :
    decl.WellFormed second := by
  apply wellFormed.of_known
  intro robot _
  exact reordered.robotNames_perm.mem_iff.mp

theorem wellFormed_global {decl : GlobalDecl} (wellFormed : decl.WellFormed first) :
    decl.WellFormed second :=
  wellFormed.of_subset reordered.imageNames_perm.symm.subset
    reordered.packageNames_perm.symm.subset

theorem wellFormed_robot {decl : RobotDecl} (wellFormed : decl.WellFormed settings first) :
    decl.WellFormed settings second := by
  apply wellFormed.of_known
  · intro image _
    exact reordered.imageNames_perm.mem_iff.mp
  · intro package _
    exact reordered.packageNames_perm.mem_iff.mp

/-- The conditions on the sections do not mention positions. -/
theorem sectionsWellFormed (wellFormed : first.SectionsWellFormed settings) :
    second.SectionsWellFormed settings where
  areas_ne := reordered.areaDecls_eq ▸ wellFormed.areas_ne
  images := by
    intro decl member
    exact wellFormed.images decl (reordered.images.mem_iff.mpr member)
  images_nodup := reordered.imageNames_perm.nodup_iff.mp wellFormed.images_nodup
  packages := by
    intro decl member
    exact wellFormed.packages decl (reordered.packages.mem_iff.mpr member)
  packages_nodup := reordered.packageNames_perm.nodup_iff.mp wellFormed.packages_nodup
  globals := by
    intro decl member
    rw [← reordered.globals_eq] at member
    exact reordered.wellFormed_global (wellFormed.globals decl member)
  globals_nodup := reordered.globals_eq ▸ wellFormed.globals_nodup
  robots := by
    intro decl member
    exact reordered.wellFormed_robot
      (wellFormed.robots decl (reordered.robots.mem_iff.mpr member))
  robots_nodup := reordered.robotNames_perm.nodup_iff.mp wellFormed.robots_nodup
  areas := by
    intro decl member
    rw [← reordered.areaDecls_eq] at member
    exact reordered.wellFormed_area (wellFormed.areas decl member)
  areas_nodup := reordered.areaDecls_eq ▸ wellFormed.areas_nodup
  listed_nodup := reordered.listedNames_eq ▸ wellFormed.listed_nodup

theorem wellFormed (given : first.WellFormed settings) : second.WellFormed settings where
  toSectionsWellFormed := reordered.sectionsWellFormed given.toSectionsWellFormed
  endpoints_nodup :=
    (reordered.listedRobots_perm.map _).nodup_iff.mp given.endpoints_nodup
  services_nodup := (reordered.serviceNames_perm settings).nodup_iff.mp given.services_nodup

/-! ## Results -/

/-- Every name leads to the same declaration as before. -/
theorem agrees (wellFormed : first.SectionsWellFormed settings) : first.Agrees second := by
  have robots : first.robotDecl? = second.robotDecl? :=
    funext (find?_key_eq_of_perm reordered.robots wellFormed.robots_nodup)
  have images : first.imageDecl? = second.imageDecl? :=
    funext (find?_key_eq_of_perm reordered.images wellFormed.images_nodup)
  have packages : first.packageDecl? = second.packageDecl? :=
    funext (find?_key_eq_of_perm reordered.packages wellFormed.packages_nodup)
  exact {
    areas_eq := reordered.areaDecls_eq
    globals_eq := reordered.globals_eq
    robotDecls_eq := by
      intro area _
      rw [AreaDecl.robotDecls, AreaDecl.robotDecls, robots]
    robots := by
      intro area _ decl _
      exact .of_lookups images packages decl }

end Reordered

/-- Documents that differ in the order of their sections are accepted alike, and then they have
one expansion and one model, or one error. -/
theorem same_results_of_reordered {settings : Settings} {first second : Document}
    (reordered : first.Reordered second) :
    ((∃ fleet, (loadFleet settings first).outcome = .ok fleet) ↔
      ∃ other, (loadFleet settings second).outcome = .ok other) ∧
    ∀ fleet other, (loadFleet settings first).outcome = .ok fleet →
      (loadFleet settings second).outcome = .ok other →
        fleet.expand.outcome = other.expand.outcome ∧
          (first.toModel settings).outcome = (second.toModel settings).outcome := by
  constructor
  · constructor
    · intro given
      rcases given with ⟨fleet, loaded⟩
      have accepted := (loadFleet_eq_ok_iff.mp loaded).1
      exact ⟨_, loadFleet_eq_ok_iff.mpr ⟨reordered.wellFormed accepted, rfl⟩⟩
    · intro given
      rcases given with ⟨other, loaded⟩
      have accepted := (loadFleet_eq_ok_iff.mp loaded).1
      exact ⟨_, loadFleet_eq_ok_iff.mpr ⟨reordered.symm.wellFormed accepted, rfl⟩⟩
  · intro fleet other loaded loadedOther
    have expansion : fleet.expand.outcome = other.expand.outcome := by
      rcases loadFleet_eq_ok_iff.mp loaded with ⟨wellFormed, rfl⟩
      rcases loadFleet_eq_ok_iff.mp loadedOther with ⟨-, rfl⟩
      exact (reordered.agrees wellFormed.toSectionsWellFormed).outcome_expand_eq
    refine ⟨expansion, ?_⟩
    rw [outcome_toModel_of_loaded loaded, outcome_toModel_of_loaded loadedOther, expansion]

/-- The sample document with a second image and a second package. -/
def stocked : Document :=
  { sample with
    images := sample.images ++ [⟨some "lidar", some "lidar:2", .empty⟩]
    packages := sample.packages ++ [⟨some "planner", some "src/planner", some "plan",
      some ["git"], none, none, none, none, .empty⟩] }

/-- The document with its sections in the opposite order. -/
def reversed (doc : Document) : Document :=
  { doc with
    robots := doc.robots.reverse
    images := doc.images.reverse
    packages := doc.packages.reverse }

theorem reordered_reversed (doc : Document) : doc.Reordered doc.reversed where
  areas_eq := rfl
  robots := (List.reverse_perm _).symm
  images := (List.reverse_perm _).symm
  packages := (List.reverse_perm _).symm
  globals_eq := rfl

/-- The second sample document and its opposite have one model. -/
theorem stocked_same_results :
    ∃ fleet other, (loadFleet .standard stocked).outcome = .ok fleet ∧
      (loadFleet .standard stocked.reversed).outcome = .ok other ∧
      fleet.expand.outcome = other.expand.outcome ∧
      (stocked.toModel .standard).outcome = (stocked.reversed.toModel .standard).outcome := by
  have succeeds : ∃ fleet, (loadFleet .standard stocked).outcome = .ok fleet := by
    apply exists_ok_of_isSome
    decide +kernel
  have same := @same_results_of_reordered .standard _ _ (reordered_reversed stocked)
  rcases succeeds with ⟨fleet, loaded⟩
  rcases same.1.mp ⟨fleet, loaded⟩ with ⟨other, loadedOther⟩
  have results := same.2 fleet other loaded loadedOther
  exact ⟨fleet, other, loaded, loadedOther, results.1, results.2⟩

end Document

end FleetCompose
