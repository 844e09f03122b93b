import FleetCompose.Fleet.Load
import FleetCompose.Proofs.LeastEdits
import FleetCompose.Proofs.Sections

/-!
# Suggestions for unresolved references

A document is refused if an area or a robot refers to something that is not declared. The error
then names declared ids that are spelled like the reference: the nearest ones, in the order of the
document where they are equally near.
-/

namespace FleetCompose

/-! ## Ids that are near to a reference -/

/-- How many edits lead from a declared id to a reference. -/
def editsTo (reference id : String) : Nat := Text.leastEdits id.toList reference.toList

/-- An id that is one or two edits from a reference. -/
def IsNear (reference id : String) : Prop := 1 ≤ editsTo reference id ∧ editsTo reference id ≤ 2

instance (reference : String) : DecidablePred (IsNear reference) := fun id =>
  inferInstanceAs (Decidable (1 ≤ editsTo reference id ∧ editsTo reference id ≤ 2))

/-- Nearer ids come first, and equally near ones in the order of declaration. -/
def Precedes (ids : List String) (reference first second : String) : Prop :=
  editsTo reference first < editsTo reference second ∨
    editsTo reference first = editsTo reference second ∧ ids.idxOf first < ids.idxOf second

/-- What is suggested for a reference that is not among the declared ids: the first three of the
near ids in their order. -/
structure Suggests (ids : List String) (reference : String) (suggestions : List String) :
    Prop where
  ranked : ∃ ranked : List String, ranked.Perm (ids.filter (IsNear reference)) ∧
    ranked.Pairwise (Precedes ids reference) ∧ suggestions = ranked.take 3
  declared : ∀ id ∈ suggestions, id ∈ ids ∧ id ≠ reference
  nearest : ∀ id ∈ suggestions, ∀ other ∈ ids, other ∉ suggestions →
    editsTo reference id ≤ editsTo reference other
  nil_iff : suggestions = [] ↔ ∀ id ∈ ids, 2 < editsTo reference id

variable {ids : List String} {reference : String}

/-- Distinct ids stand in the order of their positions. -/
theorem pairwise_idxOf (nodup : ids.Nodup) :
    ids.Pairwise fun first second => ids.idxOf first < ids.idxOf second := by
  rw [List.pairwise_iff_getElem]
  intro i j iLess jLess less
  rwa [nodup.idxOf_getElem i iLess, nodup.idxOf_getElem j jLess]

/-- The ids at a distance, in the order of declaration. -/
def idsAt (ids : List String) (reference : String) (distance : Nat) : List String :=
  ids.filter fun id => editsTo reference id == distance

theorem mem_idsAt {id : String} {distance : Nat} :
    id ∈ idsAt ids reference distance ↔ id ∈ ids ∧ editsTo reference id = distance := by
  rw [idsAt, List.mem_filter, beq_iff_eq]

/-- The near ids, those with one edit first. -/
def nearIds (ids : List String) (reference : String) : List String :=
  idsAt ids reference 1 ++ idsAt ids reference 2

theorem similarNames_eq (ids : List String) (reference : String) :
    Text.similarNames ids reference = (nearIds ids reference).take 3 := by
  have edits (id : String) : Text.editDistance id reference = editsTo reference id :=
    Text.editDistanceChars_eq id.toList reference.toList
  have atDistance (distance : Nat) (near : 0 < distance ∧ distance ≤ 2) :
      ((ids.filterMap fun id => if 0 < editsTo reference id && editsTo reference id ≤ 2 then
        some (id, editsTo reference id) else none).filter (·.2 == distance)).map (·.1) =
          idsAt ids reference distance := by
    simp only [idsAt, Bool.and_eq_true, decide_eq_true_eq]
    induction ids with
    | nil => rfl
    | cons id rest ih =>
        by_cases found : editsTo reference id = distance
        · simp [found, near, ih]
        · by_cases other : 0 < editsTo reference id ∧ editsTo reference id ≤ 2
          · simp [found, other, ih]
          · simp [found, other, ih]
  rw [Text.similarNames]
  simp only [edits]
  rw [List.map_append, atDistance 1 (by decide), atDistance 2 (by decide), nearIds]

theorem mem_nearIds {id : String} :
    id ∈ nearIds ids reference ↔ id ∈ ids ∧ IsNear reference id := by
  rw [nearIds, List.mem_append, mem_idsAt, mem_idsAt, IsNear, ← and_or_left]
  apply and_congr_right
  intro _
  omega

theorem nearIds_perm (ids : List String) (reference : String) :
    (nearIds ids reference).Perm (ids.filter (IsNear reference)) := by
  have split := List.filter_append_perm (fun id => editsTo reference id == 1)
    (ids.filter (IsNear reference))
  have one : (ids.filter (IsNear reference)).filter (fun id => editsTo reference id == 1) =
      idsAt ids reference 1 := by
    rw [List.filter_filter, idsAt]
    apply List.filter_congr
    intro id _
    rw [Bool.eq_iff_iff, Bool.and_eq_true, beq_iff_eq, decide_eq_true_eq, IsNear]
    omega
  have two : (ids.filter (IsNear reference)).filter (fun id => !(editsTo reference id == 1)) =
      idsAt ids reference 2 := by
    rw [List.filter_filter, idsAt]
    apply List.filter_congr
    intro id _
    rw [Bool.eq_iff_iff, Bool.and_eq_true, Bool.not_eq_true', beq_iff_eq, beq_eq_false_iff_ne,
      decide_eq_true_eq, IsNear]
    omega
  rwa [one, two] at split

theorem pairwise_nearIds (nodup : ids.Nodup) :
    (nearIds ids reference).Pairwise (Precedes ids reference) := by
  have atDistance (distance : Nat) :
      (idsAt ids reference distance).Pairwise (Precedes ids reference) := by
    apply List.Pairwise.imp_of_mem _ ((pairwise_idxOf nodup).filter _)
    intro first second firstMember secondMember less
    have firstAt := (mem_idsAt.mp firstMember).2
    have secondAt := (mem_idsAt.mp secondMember).2
    exact .inr ⟨firstAt.trans secondAt.symm, less⟩
  rw [nearIds, List.pairwise_append]
  refine ⟨atDistance 1, atDistance 2, ?_⟩
  intro first firstMember second secondMember
  have firstAt := (mem_idsAt.mp firstMember).2
  have secondAt := (mem_idsAt.mp secondMember).2
  exact .inl (by omega)

/-- An id that is not declared differs from every declared one. -/
theorem editsTo_pos (undeclared : reference ∉ ids) {id : String} (member : id ∈ ids) :
    0 < editsTo reference id := by
  rw [editsTo, Nat.pos_iff_ne_zero]
  intro none
  have same := String.toList_inj.mp (Text.leastEdits_eq_zero_iff.mp none)
  exact undeclared (same ▸ member)

/-- What is left out is no nearer than what is suggested. -/
theorem editsTo_le_of_mem_take (nodup : ids.Nodup) (undeclared : reference ∉ ids) {count : Nat}
    {id other : String} (member : id ∈ (nearIds ids reference).take count) (declared : other ∈ ids)
    (left : other ∉ (nearIds ids reference).take count) :
    editsTo reference id ≤ editsTo reference other := by
  have near := (mem_nearIds.mp (List.mem_of_mem_take member)).2
  by_cases otherNear : IsNear reference other
  · -- It is near, and stands behind all that is suggested.
    have behind : other ∈ (nearIds ids reference).drop count := by
      have whole := mem_nearIds.mpr ⟨declared, otherNear⟩
      rw [← List.take_append_drop count (nearIds ids reference), List.mem_append] at whole
      exact whole.resolve_left left
    have ordered := @pairwise_nearIds ids reference nodup
    rw [← List.take_append_drop count (nearIds ids reference), List.pairwise_append] at ordered
    rcases ordered.2.2 id member other behind with nearer | equal
    · exact nearer.le
    · exact equal.1.le
  · have positive := editsTo_pos undeclared declared
    rw [IsNear] at near otherNear
    omega

theorem nearIds_eq_nil_iff (undeclared : reference ∉ ids) :
    nearIds ids reference = [] ↔ ∀ id ∈ ids, 2 < editsTo reference id := by
  simp only [List.eq_nil_iff_forall_not_mem, mem_nearIds, not_and]
  refine forall₂_congr fun id member => ?_
  have positive := editsTo_pos undeclared member
  rw [IsNear]
  omega

/-- What is suggested are the first three of the near ids. -/
theorem suggests_similarNames (nodup : ids.Nodup) (undeclared : reference ∉ ids) :
    Suggests ids reference (Text.similarNames ids reference) := by
  rw [similarNames_eq]
  constructor
  case ranked => exact ⟨_, nearIds_perm ids reference, pairwise_nearIds nodup, rfl⟩
  case declared =>
    intro id member
    have declared := (mem_nearIds.mp (List.mem_of_mem_take member)).1
    exact ⟨declared, fun same => undeclared (same ▸ declared)⟩
  case nearest =>
    intro id member other declared left
    exact editsTo_le_of_mem_take nodup undeclared member declared left
  case nil_iff => simpa [List.take_eq_nil_iff] using nearIds_eq_nil_iff undeclared

/-! ## References of a document -/

namespace Document

/-- The declared ids of the entities that references lead to. -/
def idsOf (doc : Document) : EntityKind → List String
  | .robot => doc.robotNames
  | .image => doc.imageNames
  | .package => doc.packageNames
  | .document | .area | .global | .service => []

/-- A declaration, given by its kind and its id, refers to an entity of a kind. -/
inductive Refers (doc : Document) : EntityKind → String → EntityKind → String → Prop where
  | robot {decl : AreaDecl} {reference : String} :
      decl ∈ doc.areaDecls → reference ∈ decl.members →
      Refers doc .area decl.name .robot reference
  | image {decl : RobotDecl} {reference : String} :
      decl ∈ doc.robots → reference ∈ decl.imageNames →
      Refers doc .robot decl.name .image reference
  | package {decl : RobotDecl} {reference : String} :
      decl ∈ doc.robots → reference ∈ decl.packageNames →
      Refers doc .robot decl.name .package reference

/-- A failure that concerns a reference is about one of the document that leads nowhere, and it
suggests what is spelled like it. -/
def Explains (doc : Document) : LoadError → Prop
  | .unresolved fromKind fromId kind id suggestions =>
      doc.Refers fromKind fromId kind id ∧ id ∉ doc.idsOf kind ∧
        Suggests (doc.idsOf kind) id suggestions
  | .missingField .. | .duplicateId .. | .invalidRos .. | .conflicting .. => True

end Document

/-! ## Failures of sections -/

namespace Declarations

open Document (Explains)

variable {settings : Settings} {doc : Document}

theorem failsWith_required (value : Option String) (kind : EntityKind) (id : Option String)
    (name : String) : FailsWith doc.Explains (required value kind id name) := by
  rw [required]
  split
  · exact failsWith_error trivial
  · exact failsWith_ok _

theorem failsWith_refuseRepeated (ids : List String) (id : String) {failure : LoadError}
    (explained : doc.Explains failure) :
    FailsWith doc.Explains (refuseRepeated ids id failure) := by
  rw [refuseRepeated]
  split
  · exact failsWith_error explained
  · exact failsWith_ok _

theorem failsWith_checkEntries (package name : String) (entries : Option (List String)) :
    FailsWith doc.Explains (checkEntries package name entries) := by
  apply FailsWith.accumulate
  intro accepted entry _
  dsimp only
  split
  · exact failsWith_error trivial
  · exact failsWith_ok _

theorem failsWith_checkFileNames (package name : String) (paths : List String) :
    FailsWith doc.Explains (checkFileNames package name paths) := by
  apply FailsWith.accumulate
  intro accepted path _
  dsimp only
  split
  · exact failsWith_error trivial
  · exact failsWith_ok _

theorem failsWith_checkImages (decls : List ImageDecl) :
    FailsWith doc.Explains (checkImages decls) := by
  apply FailsWith.accumulate
  intro accepted decl _
  apply (failsWith_required ..).bind
  intro id _
  apply (failsWith_required ..).bind
  intro image _
  apply FailsWith.bind
  · exact failsWith_refuseRepeated _ _ trivial
  intro _ _
  exact failsWith_ok _

theorem failsWith_checkPackages (decls : List PackageDecl) :
    FailsWith doc.Explains (checkPackages decls) := by
  apply FailsWith.accumulate
  intro accepted decl _
  apply (failsWith_required ..).bind
  intro id _
  apply (failsWith_required ..).bind
  intro path _
  apply (failsWith_required ..).bind
  intro command _
  apply FailsWith.bind
  · exact failsWith_refuseRepeated _ _ trivial
  intro _ _
  apply (failsWith_checkEntries ..).bind
  intro apt _
  apply (failsWith_checkEntries ..).bind
  intro git _
  apply FailsWith.refuse trivial
  apply (failsWith_checkEntries ..).bind
  intro ssh _
  apply (failsWith_checkEntries ..).bind
  intro files _
  split
  · exact failsWith_error trivial
  · apply (failsWith_checkFileNames ..).bind
    intro _ _
    apply (failsWith_checkFileNames ..).bind
    intro _ _
    exact failsWith_ok _

theorem failsWith_checkGlobals (images : List Image) (packages : List Package)
    (decls : List GlobalDecl) : FailsWith doc.Explains (checkGlobals images packages decls) := by
  apply FailsWith.accumulate
  intro accepted decl _
  apply (failsWith_required ..).bind
  intro id _
  apply FailsWith.bind
  · exact failsWith_refuseRepeated _ _ trivial
  intro _ _
  apply FailsWith.bind
  · exact failsWith_refuseRepeated _ _ trivial
  intro _ _
  exact failsWith_ok _

/-! ## Failures of references -/

/-- A reference of a robot fails as the document explains it, if the declared ids are distinct. -/
theorem failsWith_resolveReferences (doc : Document) (robot : String) (kind : EntityKind)
    (name : String) {references : Option (List String)} (nodup : (doc.idsOf kind).Nodup)
    (refers : ∀ reference ∈ fieldTexts references, doc.Refers .robot robot kind reference) :
    FailsWith doc.Explains
      (resolveReferences robot kind name (doc.idsOf kind) references) := by
  apply FailsWith.map
  apply FailsWith.accumulate
  intro accepted written member
  have refers := refers (Text.trim written) (List.mem_map_of_mem member)
  rw [resolveReference]
  split
  · exact failsWith_error trivial
  split
  · exact failsWith_error trivial
  split
  next missing =>
    have undeclared : Text.trim written ∉ doc.idsOf kind := by
      intro declared
      simpa using List.findIdx?_eq_none_iff.mp missing _ declared
    exact failsWith_error ⟨refers, undeclared, suggests_similarNames nodup undeclared⟩
  next => exact failsWith_ok _

theorem failsWith_checkVariable (robot : String) (accepted : List (String × String))
    (entry : String × Yaml.Value) :
    FailsWith doc.Explains (checkVariable robot accepted entry) := by
  rw [checkVariable]
  split
  · exact failsWith_error trivial
  split
  · exact failsWith_error trivial
  · exact failsWith_ok _

theorem failsWith_checkRobotFields (images : doc.imageNames.Nodup)
    (packages : doc.packageNames.Nodup) {decl : RobotDecl} (declared : decl ∈ doc.robots) :
    FailsWith doc.Explains (checkRobotFields settings doc.imageNames doc.packageNames decl) := by
  apply (failsWith_required ..).bind
  intro id read
  rcases required_eq_ok_iff.mp read with ⟨-, rfl⟩
  apply (failsWith_required ..).bind
  intro text _
  apply FailsWith.bind
  · constructor
    intro failure failed
    rcases mapError_eq_error_iff.mp failed with ⟨issue, -, rfl⟩
    trivial
  intro spec _
  apply FailsWith.bind
  · exact failsWith_resolveReferences doc decl.name .image "images" images fun _ => .image declared
  intro imageRefs _
  apply FailsWith.bind
  · exact failsWith_resolveReferences doc decl.name .package "packages" packages fun _ =>
      .package declared
  intro packageRefs _
  apply FailsWith.refuse trivial
  apply FailsWith.bind (FailsWith.accumulate (fun _ _ _ => failsWith_checkVariable ..) _)
  intro vars _
  exact failsWith_ok _

theorem failsWith_checkRobots (images : doc.imageNames.Nodup) (packages : doc.packageNames.Nodup) :
    FailsWith doc.Explains
      (checkRobots settings doc.imageNames doc.packageNames doc.robots) := by
  apply FailsWith.accumulate
  intro accepted decl declared
  apply (failsWith_checkRobotFields images packages declared).bind
  intro robot _
  apply FailsWith.bind
  · exact failsWith_refuseRepeated _ _ trivial
  intro _ _
  exact failsWith_ok _

theorem failsWith_checkMember (robots : doc.robotNames.Nodup) (areas : List Membership)
    (accepted : List String) {decl : AreaDecl} (declared : decl ∈ doc.areaDecls) {written : String}
    (member : written ∈ decl.robots.getD []) :
    FailsWith doc.Explains (checkMember doc.robotNames areas decl.name accepted written) := by
  have refers := Document.Refers.robot declared (List.mem_map_of_mem member)
  rw [checkMember]
  split
  · exact failsWith_error trivial
  split
  · exact failsWith_error trivial
  split
  next undeclared =>
    exact failsWith_error ⟨refers, undeclared, suggests_similarNames robots undeclared⟩
  next =>
    split
    · exact failsWith_error trivial
    · exact failsWith_ok _

theorem failsWith_checkAreas (robots : doc.robotNames.Nodup) :
    FailsWith doc.Explains (checkAreas doc.robotNames doc.areaDecls) := by
  apply FailsWith.accumulate
  intro accepted decl declared
  apply (failsWith_required ..).bind
  intro id read
  rcases required_eq_ok_iff.mp read with ⟨-, rfl⟩
  apply FailsWith.bind
  · exact failsWith_refuseRepeated _ _ trivial
  intro _ _
  apply FailsWith.refuse trivial
  apply FailsWith.bind
  · apply FailsWith.accumulate
    intro names written member
    exact failsWith_checkMember robots accepted names declared member
  intro _ _
  exact failsWith_ok _

/-! ## Failures of documents -/

theorem failsWith_ofDocument (settings : Settings) (doc : Document) :
    FailsWith doc.Explains (ofDocument settings doc) := by
  apply FailsWith.refuse trivial
  apply (failsWith_checkImages _).bind
  intro images imagesRead
  rcases checkImages_eq_ok_iff.mp imagesRead with ⟨-, imagesNodup, rfl⟩
  apply (failsWith_checkPackages _).bind
  intro packages packagesRead
  rcases checkPackages_eq_ok_iff.mp packagesRead with ⟨-, packagesNodup, rfl⟩
  apply (failsWith_checkGlobals _ _ _).bind
  intro globals _
  rw [map_id_images, map_id_packages]
  apply (failsWith_checkRobots imagesNodup packagesNodup).bind
  intro robots robotsRead
  rcases checkRobots_eq_ok_iff.mp robotsRead with ⟨-, robotsNodup, rfl⟩
  rw [map_id_robots]
  apply (failsWith_checkAreas robotsNodup).bind
  intro areas _
  exact failsWith_ok _

end Declarations

theorem Fleet.failsWith_check (doc : Document) (fleet : Fleet) :
    FailsWith doc.Explains fleet.check := by
  apply FailsWith.bind
  · apply FailsWith.accumulate
    intro accepted robot _
    rw [checkEndpoint]
    split
    · exact failsWith_error trivial
    · exact failsWith_ok _
  intro _ _
  apply FailsWith.bind
  · apply FailsWith.accumulate
    intro accepted name _
    rw [checkServiceName]
    split
    · exact failsWith_error trivial
    · exact failsWith_ok _
  intro _ _
  exact failsWith_ok _

namespace Document

variable {settings : Settings} {doc : Document}

theorem failsWith_loadFleet (settings : Settings) (doc : Document) :
    FailsWith doc.Explains (loadFleet settings doc).outcome := by
  simp only [loadFleet, Logged.outcome_bind, Logged.outcome_ofExcept, Logged.outcome_tell,
    Logged.outcome_pure]
  apply (Declarations.failsWith_ofDocument settings doc).bind
  intro decls _
  apply (failsWith_ok ()).bind
  intro _ _
  apply (Fleet.failsWith_check doc decls.fleet).bind
  intro _ _
  apply (failsWith_ok ()).bind
  intro _ _
  exact failsWith_ok _

/-- An error about a reference is about one that leads nowhere, and it suggests the declared ids
that are nearest to it. -/
theorem suggests_of_unresolved {fromKind kind : EntityKind} {fromId id : String}
    {suggestions : List String}
    (failed : (loadFleet settings doc).outcome =
      .error (.unresolved fromKind fromId kind id suggestions)) :
    doc.Refers fromKind fromId kind id ∧ id ∉ doc.idsOf kind ∧
      Suggests (doc.idsOf kind) id suggestions :=
  (failsWith_loadFleet settings doc).expected _ failed

/-- A robot with a misspelt image: four declared images are near to it, two of them with one edit
and two with two edits. -/
def mislabelled : Document where
  areas := some [⟨some "yard", some ["carrier"]⟩]
  robots := [⟨some "carrier", some "humble", some [" camra"], none, none, .empty⟩]
  images := [⟨some "cam", some "lab/cam", .empty⟩, ⟨some "camera", some "lab/camera", .empty⟩,
    ⟨some "lidar", some "lab/lidar", .empty⟩, ⟨some "cobra", some "lab/cobra", .empty⟩,
    ⟨some "camara", some "lab/camara", .empty⟩]
  packages := []
  globals := []

theorem mislabelled_suggests :
    (loadFleet .standard mislabelled).outcome =
      .error (.unresolved .robot "carrier" .image "camra" ["camera", "camara", "cam"]) ∧
    mislabelled.Refers .robot "carrier" .image "camra" ∧
    "camra" ∉ mislabelled.idsOf .image ∧
    Suggests (mislabelled.idsOf .image) "camra" ["camera", "camara", "cam"] := by
  have failed : (loadFleet .standard mislabelled).outcome =
      .error (.unresolved .robot "carrier" .image "camra" ["camera", "camara", "cam"]) := rfl
  exact ⟨failed, suggests_of_unresolved failed⟩

end Document

end FleetCompose
