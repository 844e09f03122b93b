import FleetCompose.Proofs.NamedReferences

/-!
# Documents that agree

What is copied for a robot depends on the document only through the images and packages that
the robot refers to. Two documents that agree on these make the same copy of the robot. Two
documents that agree on everything that their areas reach have one expansion, be it copies or
an error.
-/

namespace FleetCompose

open Template

/-- The references of the robot lead to the same declarations in both documents. -/
structure RobotDecl.Agrees (first second : Document) (decl : RobotDecl) : Prop where
  images_eq : decl.imageDecls first = decl.imageDecls second
  packages_eq : decl.packageDecls first = decl.packageDecls second

/-- The areas of both documents reach the same declarations. -/
structure Document.Agrees (first second : Document) : Prop where
  areas_eq : first.areaDecls = second.areaDecls
  globals_eq : first.globals = second.globals
  robotDecls_eq : ∀ area ∈ first.areaDecls, area.robotDecls first = area.robotDecls second
  robots : ∀ area ∈ first.areaDecls, ∀ decl ∈ area.robotDecls first, decl.Agrees first second

variable {settings : Settings} {first second : Document}

/-! ## One robot -/

namespace RobotDecl.Agrees

theorem of_lookups (images : first.imageDecl? = second.imageDecl?)
    (packages : first.packageDecl? = second.packageDecl?) (decl : RobotDecl) :
    decl.Agrees first second where
  images_eq := by
    rw [imageDecls, imageDecls, images]
  packages_eq := by
    rw [packageDecls, packageDecls, packages]

variable {decl : RobotDecl} (agrees : decl.Agrees first second)
include agrees

theorem copyOf_eq (areaId : String) :
    (first.fleet settings).copyOf areaId (decl.placed settings first) =
      (second.fleet settings).copyOf areaId (decl.placed settings second) := by
  simp only [Fleet.copyOf, Document.imagesOf_placed, Document.packagesOf_placed,
    agrees.images_eq, agrees.packages_eq]
  rfl

theorem textsOf_eq (areaId : String) :
    (first.fleet settings).textsOf areaId (decl.placed settings first) =
      (second.fleet settings).textsOf areaId (decl.placed settings second) := by
  simp only [Fleet.textsOf, Document.imagesOf_placed, Document.packagesOf_placed,
    agrees.images_eq, agrees.packages_eq]
  rfl

end RobotDecl.Agrees

/-! ## The fleet -/

namespace Document

namespace Agrees

variable (agrees : first.Agrees second)
include agrees

theorem copy_eq : (first.fleet settings).copy = (second.fleet settings).copy := by
  have areas : (first.fleet settings).copy.areas = (second.fleet settings).copy.areas := by
    rw [areas_copy, areas_copy, ← agrees.areas_eq]
    apply List.map_congr_left
    intro area declared
    rw [← agrees.robotDecls_eq area declared]
    congr 1
    apply List.map_congr_left
    intro decl member
    exact (agrees.robots area declared decl member).copyOf_eq area.name
  have globals : (first.fleet settings).globals = (second.fleet settings).globals := by
    rw [fleet, fleet, agrees.globals_eq]
  exact congrArg₂ ExpandedFleet.mk areas globals

theorem misfits_eq : (first.fleet settings).misfits = (second.fleet settings).misfits := by
  rw [Fleet.misfits, Fleet.misfits, texts_fleet, texts_fleet, ← agrees.areas_eq]
  congr 1
  apply List.flatMap_congr
  intro area declared
  rw [← agrees.robotDecls_eq area declared]
  apply List.flatMap_congr
  intro decl member
  exact (agrees.robots area declared decl member).textsOf_eq area.name

/-- Documents that agree have one expansion. -/
theorem outcome_expand_eq :
    (first.fleet settings).expand.outcome = (second.fleet settings).expand.outcome := by
  rw [Fleet.outcome_expand, Fleet.outcome_expand, agrees.copy_eq, agrees.misfits_eq]

end Agrees

end Document

end FleetCompose
