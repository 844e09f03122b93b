import FleetCompose.Proofs.Pruning

/-!
# Warnings of loading

A fleet leaves out the robots that no area lists, and with them the images and packages that only
they refer to. Loading warns about all of these, and about nothing else: a declaration is warned
about exactly if it cannot be reached from an area.
-/

namespace FleetCompose

/-- The warnings among the events of a computation. -/
def Logged.warnings {ε α : Type} (computation : Logged ε α) : List LogEvent :=
  computation.log.filter fun event => event.level == .warn

namespace Document

variable (doc : Document)

/-- The robots that no area lists, in the order of the document. -/
def unlistedRobots : List RobotDecl :=
  doc.robots.filter fun robot => robot.name ∉ doc.listedNames

/-- The images to which no listed robot refers, in the order of the document. -/
def unusedImages : List ImageDecl :=
  doc.images.filter fun image => ∀ robot ∈ doc.listedRobots, image.name ∉ robot.imageNames

/-- The packages to which no listed robot refers, in the order of the document. -/
def unusedPackages : List PackageDecl :=
  doc.packages.filter fun package => ∀ robot ∈ doc.listedRobots, package.name ∉ robot.packageNames

/-- The warnings about a document, and which declarations they are about. -/
structure WarnedBy (warnings : List LogEvent) : Prop where
  warnings_eq : warnings =
    doc.unlistedRobots.map (fun robot => Fleet.unlistedWarning robot.name) ++
      doc.unusedImages.map (fun image => Fleet.unusedImageWarning image.name) ++
      doc.unusedPackages.map (fun package => Fleet.unusedPackageWarning package.name)
  robot_iff : ∀ robot ∈ doc.robots,
    Fleet.unlistedWarning robot.name ∈ warnings ↔ ∀ area ∈ doc.areaDecls, robot.name ∉ area.members
  image_iff : ∀ image ∈ doc.images,
    Fleet.unusedImageWarning image.name ∈ warnings ↔
      ∀ robot ∈ doc.listedRobots, image.name ∉ robot.imageNames
  package_iff : ∀ package ∈ doc.packages,
    Fleet.unusedPackageWarning package.name ∈ warnings ↔
      ∀ robot ∈ doc.listedRobots, package.name ∉ robot.packageNames

end Document

/-! ## What no position leads to -/

/-- A filter that looks at positions is one that looks at what stands there. -/
theorem map_fst_filter_zipIdx {α : Type} {items : List α} {atPosition : Nat → Bool}
    {keep : α → Bool}
    (same : ∀ position item, items[position]? = some item → atPosition position = keep item) :
    (items.zipIdx.filter fun (_, position) => atPosition position).map Prod.fst =
      items.filter keep := by
  have kept : (items.zipIdx.filter fun (_, position) => atPosition position) =
      items.zipIdx.filter (keep ∘ Prod.fst) := by
    apply List.filter_congr
    intro entry member
    exact same entry.2 entry.1 (List.mk_mem_zipIdx_iff_getElem?.mp member)
  rw [kept, ← List.filter_map, List.zipIdx_map_fst]

/-- The position of a distinct name is among those of some names exactly if the name is among
them. -/
theorem mem_map_idxOf_iff {names known : List String} (nodup : known.Nodup) {position : Nat}
    {name : String} (found : known[position]? = some name) :
    position ∈ names.map (known.idxOf ·) ↔ name ∈ names := by
  rcases List.getElem?_eq_some_iff.mp found with ⟨inside, rfl⟩
  rw [List.mem_map]
  constructor
  · intro given
    rcases given with ⟨name, member, rfl⟩
    rwa [List.getElem_idxOf]
  · intro member
    exact ⟨known[position], member, nodup.idxOf_getElem position inside⟩

/-- The entries of a section at positions to which no robot refers are those to whose names none
does. -/
theorem unreferenced_eq {α β : Type} {decls : List α} {key : α → String} (image : α → β)
    (nodup : (decls.map key).Nodup) (robots : List RobotDecl)
    (references : RobotDecl → List String) :
    ((decls.map image).zipIdx.filter fun (_, position) => !robots.any fun robot =>
        ((references robot).map ((decls.map key).idxOf ·)).contains position).map Prod.fst =
      (decls.filter fun decl => ∀ robot ∈ robots, key decl ∉ references robot).map image := by
  have kept : ∀ position decl, decls[position]? = some decl →
      (!robots.any fun robot =>
        ((references robot).map ((decls.map key).idxOf ·)).contains position) =
        decide (∀ robot ∈ robots, key decl ∉ references robot) := by
    intro position decl found
    have named : (decls.map key)[position]? = some (key decl) := by
      rw [List.getElem?_map, found, Option.map_some]
    rw [Bool.eq_iff_iff, Bool.not_eq_true', List.any_eq_false, decide_eq_true_eq]
    apply forall₂_congr
    intro robot _
    rw [List.contains_iff_mem, mem_map_idxOf_iff nodup named]
  rw [← map_fst_filter_zipIdx kept, List.zipIdx_map, List.filter_map, List.map_map, List.map_map]
  rfl

/-! ## What is warned about -/

namespace Fleet

theorem unlistedWarning_injective : Function.Injective unlistedWarning := by
  intro first second same
  simpa [unlistedWarning] using same

theorem unusedImageWarning_injective : Function.Injective unusedImageWarning := by
  intro first second same
  simpa [unusedImageWarning] using same

theorem unusedPackageWarning_injective : Function.Injective unusedPackageWarning := by
  intro first second same
  simpa [unusedPackageWarning] using same

end Fleet

/-- A warning that names a declaration is about that declaration, whatever others there are. -/
theorem mem_map_filter_iff {α : Type} (name : α → String) {decls : List α} {decl : α}
    (declared : decl ∈ decls) {warning : String → LogEvent}
    (injective : Function.Injective warning) (left : String → Prop) [DecidablePred left] :
    warning (name decl) ∈ (decls.filter fun decl => left (name decl)).map
        (fun decl => warning (name decl)) ↔ left (name decl) := by
  rw [List.mem_map]
  constructor
  · intro given
    rcases given with ⟨other, member, same⟩
    have kept := (List.mem_filter.mp member).2
    rw [injective same] at kept
    exact of_decide_eq_true kept
  · intro isLeft
    exact ⟨decl, List.mem_filter.mpr ⟨declared, decide_eq_true isLeft⟩, rfl⟩

namespace Document

variable {settings : Settings} {doc : Document}

namespace SectionsWellFormed

variable (wellFormed : doc.SectionsWellFormed settings)
include wellFormed

theorem unusedImages_fleet :
    (doc.fleet settings).unusedImages = doc.unusedImages.map ImageDecl.described := by
  have unreferenced := unreferenced_eq ImageDecl.described wellFormed.images_nodup
    doc.listedRobots RobotDecl.imageNames
  rw [unusedImages, ← unreferenced, Fleet.unusedImages]
  simp only [fleet, List.any_map]
  rfl

theorem unusedPackages_fleet :
    (doc.fleet settings).unusedPackages = doc.unusedPackages.map PackageDecl.described := by
  have unreferenced := unreferenced_eq PackageDecl.described wellFormed.packages_nodup
    doc.listedRobots RobotDecl.packageNames
  rw [unusedPackages, ← unreferenced, Fleet.unusedPackages]
  simp only [fleet, List.any_map]
  rfl

theorem unusedWarnings_fleet :
    (doc.fleet settings).unusedWarnings =
      doc.unusedImages.map (fun image => Fleet.unusedImageWarning image.name) ++
        doc.unusedPackages.map fun package => Fleet.unusedPackageWarning package.name := by
  rw [Fleet.unusedWarnings, wellFormed.unusedImages_fleet, wellFormed.unusedPackages_fleet,
    List.map_map, List.map_map]
  rfl

end SectionsWellFormed

theorem unlistedRobots_declarations (settings : Settings) (doc : Document) :
    (doc.declarations settings).unlistedRobots =
      doc.unlistedRobots.map (RobotDecl.described settings doc) := by
  rw [Declarations.unlistedRobots, unlistedRobots, declarations, List.filter_map]
  congr 1
  apply List.filter_congr
  intro robot _
  have listed := Declarations.isListed_described settings doc robot
  rw [declarations] at listed
  rw [Function.comp_apply, listed, decide_not]

/-! ## What is logged -/

/-- The events of a document that is loaded. -/
theorem log_loadFleet {fleet : Fleet} (loaded : (loadFleet settings doc).outcome = .ok fleet) :
    (loadFleet settings doc).log =
      doc.unlistedRobots.map (fun robot => Fleet.unlistedWarning robot.name) ++
        ((doc.fleet settings).unusedWarnings ++ [(doc.fleet settings).loadedEvent]) := by
  rcases loadFleet_eq_ok_iff.mp loaded with ⟨wellFormed, rfl⟩
  have sections := wellFormed.toSectionsWellFormed
  have accepted : Declarations.ofDocument settings doc = .ok (doc.declarations settings) :=
    Declarations.ofDocument_eq_ok_iff.mpr ⟨sections, rfl⟩
  have checked : (doc.fleet settings).check = .ok () := by
    rw [Fleet.check_eq_ok_iff, map_endpoint_fleet, sections.serviceNames_fleet]
    exact ⟨wellFormed.endpoints_nodup, wellFormed.services_nodup⟩
  have unlisted : (doc.declarations settings).unlistedRobots.map
      (fun robot => Fleet.unlistedWarning robot.id) =
        doc.unlistedRobots.map fun robot => Fleet.unlistedWarning robot.name := by
    rw [unlistedRobots_declarations, List.map_map]
    rfl
  rw [loadFleet, accepted]
  rw [Logged.log_bind_of_ok _ (Logged.outcome_ofExcept _)]
  rw [Logged.log_bind_of_ok _ (Logged.outcome_tell _)]
  simp only [Declarations.fleet_declarations sections, checked]
  rw [Logged.log_bind_of_ok _ (Logged.outcome_ofExcept _)]
  rw [Logged.log_bind_of_ok _ (Logged.outcome_tell _)]
  simp only [Logged.log_ofExcept, Logged.log_tell, Logged.log_pure, unlisted, List.nil_append,
    List.append_nil]

/-- The warnings about a document that is loaded; the event about the size of the fleet is none. -/
theorem warnings_loadFleet {fleet : Fleet}
    (loaded : (loadFleet settings doc).outcome = .ok fleet) :
    (loadFleet settings doc).warnings =
      doc.unlistedRobots.map (fun robot => Fleet.unlistedWarning robot.name) ++
        doc.unusedImages.map (fun image => Fleet.unusedImageWarning image.name) ++
        doc.unusedPackages.map (fun package => Fleet.unusedPackageWarning package.name) := by
  have sections := (loadFleet_eq_ok_iff.mp loaded).1.toSectionsWellFormed
  have isWarning : ∀ {α : Type} (items : List α) (warning : α → LogEvent),
      (∀ item, (warning item).level = .warn) →
      (items.map warning).filter (fun event => event.level == .warn) = items.map warning := by
    intro α items warning warns
    rw [List.filter_eq_self]
    intro event member
    rcases List.mem_map.mp member with ⟨item, _, rfl⟩
    rw [warns, beq_self_eq_true]
  have notLoaded : [(doc.fleet settings).loadedEvent].filter (fun event => event.level == .warn) =
      [] := rfl
  rw [Logged.warnings, log_loadFleet loaded, sections.unusedWarnings_fleet]
  simp only [List.filter_append, notLoaded, List.append_nil, List.append_assoc]
  rw [isWarning _ _ fun _ => rfl, isWarning _ _ fun _ => rfl, isWarning _ _ fun _ => rfl]

/-- Loading warns about what no area leads to, in the order of the document, and about nothing
else. -/
theorem warnedBy_of_loadFleet {fleet : Fleet}
    (loaded : (loadFleet settings doc).outcome = .ok fleet) :
    doc.WarnedBy (loadFleet settings doc).warnings := by
  have warnings := warnings_loadFleet loaded
  refine ⟨warnings, ?robot, ?image, ?package⟩
  case robot =>
    intro robot declared
    have unlisted := mem_map_filter_iff RobotDecl.name declared Fleet.unlistedWarning_injective
      fun name => name ∉ doc.listedNames
    rw [mem_listedNames, not_exists] at unlisted
    simp only [not_and] at unlisted
    rw [warnings, List.mem_append, List.mem_append, unlistedRobots, unlisted]
    simp [Fleet.unlistedWarning, Fleet.unusedImageWarning, Fleet.unusedPackageWarning]
  case image =>
    intro image declared
    have unused := mem_map_filter_iff ImageDecl.name declared Fleet.unusedImageWarning_injective
      fun name => ∀ robot ∈ doc.listedRobots, name ∉ robot.imageNames
    rw [warnings, List.mem_append, List.mem_append, unusedImages, unused]
    simp [Fleet.unlistedWarning, Fleet.unusedImageWarning, Fleet.unusedPackageWarning]
  case package =>
    intro package declared
    have unused := mem_map_filter_iff PackageDecl.name declared Fleet.unusedPackageWarning_injective
      fun name => ∀ robot ∈ doc.listedRobots, name ∉ robot.packageNames
    rw [warnings, List.mem_append, List.mem_append, unusedPackages, unused]
    simp [Fleet.unlistedWarning, Fleet.unusedImageWarning, Fleet.unusedPackageWarning]

/-- Of the overstocked document two robots, the image of one of them and a package are left out;
the image that listed robots use as well is not. -/
theorem overstocked_warnedBy :
    ∃ fleet, (loadFleet .standard overstocked).outcome = .ok fleet ∧
      overstocked.WarnedBy (loadFleet .standard overstocked).warnings ∧
      (loadFleet .standard overstocked).warnings =
        [Fleet.unlistedWarning "spare", Fleet.unlistedWarning "retired",
          Fleet.unusedImageWarning "sonar", Fleet.unusedPackageWarning "planner"] := by
  have succeeds : ∃ fleet, (loadFleet .standard overstocked).outcome = .ok fleet := by
    apply exists_ok_of_isSome
    decide +kernel
  rcases succeeds with ⟨fleet, loaded⟩
  refine ⟨fleet, loaded, warnedBy_of_loadFleet loaded, ?_⟩
  decide +kernel

end Document

end FleetCompose
