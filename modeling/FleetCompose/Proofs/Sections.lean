import FleetCompose.Fleet.Declarations
import FleetCompose.Proofs.WellFormed
import Mathlib.Data.List.Nodup

/-!
# Sections that are accepted

For every section of a document: the check of the section succeeds exactly if the section is
well-formed, and its answer is what the section describes. Both sides are functions of the
document, so what later modules say about an accepted section they say about the document.
-/

namespace FleetCompose

/-! ## What declarations describe -/

def ImageDecl.described (decl : ImageDecl) : Image :=
  ⟨decl.name, fieldText decl.image, decl.extra⟩

def PackageDecl.described (decl : PackageDecl) : Package where
  id := decl.name
  path := fieldText decl.path
  command := fieldText decl.command
  apt := fieldTexts decl.apt
  git := fieldTexts decl.git
  rosinstall := if fieldText decl.rosinstall = "" then none else some (fieldText decl.rosinstall)
  ssh := fieldTexts decl.ssh
  files := fieldTexts decl.files
  extra := decl.extra

def GlobalDecl.described (decl : GlobalDecl) : Global := ⟨decl.name, decl.extra⟩

/-- The variables of a robot with their texts; in a well-formed robot every variable has
one. -/
def RobotDecl.varTexts (decl : RobotDecl) : List (String × String) :=
  decl.varEntries.map fun entry => (entry.1, entry.2.scalarText.getD "")

/-- The robot with its references as positions among the declared ids. -/
def RobotDecl.described (settings : Settings) (doc : Document) (decl : RobotDecl) :
    CheckedRobot where
  id := decl.name
  ros := decl.spec settings
  images := decl.imageNames.map (doc.imageNames.idxOf ·)
  packages := decl.packageNames.map (doc.packageNames.idxOf ·)
  vars := decl.varTexts
  extra := decl.extra

def AreaDecl.described (decl : AreaDecl) : Membership := ⟨decl.name, decl.members⟩

/-- The checked sections of a well-formed document. -/
def Document.declarations (settings : Settings) (doc : Document) : Declarations where
  images := doc.images.map ImageDecl.described
  packages := doc.packages.map PackageDecl.described
  globals := doc.globals.map GlobalDecl.described
  robots := doc.robots.map (RobotDecl.described settings doc)
  areas := doc.areaDecls.map AreaDecl.described

namespace Declarations

/-! ## Texts and ids -/

theorem required_eq_ok_iff {value : Option String} {kind : EntityKind} {id : Option String}
    {name text : String} :
    required value kind id name = .ok text ↔ fieldText value ≠ "" ∧ text = fieldText value := by
  rw [required, fieldText]
  by_cases empty : Text.trim (value.getD "") = ""
  · simp [empty]
  · simpa [empty] using eq_comm

theorem refuseRepeated_eq_ok_iff {ids : List String} {id : String} {failure : LoadError}
    {answer : Unit} : refuseRepeated ids id failure = .ok answer ↔ id ∉ ids := by
  rw [refuseRepeated]
  by_cases member : id ∈ ids <;> simp [member]

theorem checkEntries_eq_ok_iff {package name : String} {entries : Option (List String)}
    {texts : List String} :
    checkEntries package name entries = .ok texts ↔
      (∀ text ∈ fieldTexts entries, text ≠ "") ∧ texts = fieldTexts entries := by
  let step : List String → String → Except LoadError String := fun accepted entry =>
    let text := Text.trim entry
    if text.isEmpty then
      .error (.missingField .package (some package) (.item name accepted.length))
    else .ok text
  have reads : StepReads step
      (fun entry text => Text.trim entry ≠ "" ∧ text = Text.trim entry) (fun _ _ => True) := by
    intro accepted entry text
    by_cases empty : Text.trim entry = ""
    · simp [step, empty]
    · simpa [step, empty] using eq_comm
  exact reads.free_eq_ok_iff.trans (by simp [fieldTexts])

/-! ## Images -/

theorem checkImage_reads :
    StepReads checkImage (fun decl image => decl.WellFormed ∧ image = decl.described)
      (fun earlier later => earlier.id ≠ later.id) := by
  refine .of_fresh Image.id fun accepted decl image => ?_
  simp only [checkImage, bind_eq_ok_iff, required_eq_ok_iff, refuseRepeated_eq_ok_iff,
    pure_eq_ok_iff]
  constructor
  · intro given
    rcases given with ⟨id, ⟨idNe, rfl⟩, text, ⟨textNe, rfl⟩, -, fresh, rfl⟩
    exact ⟨⟨⟨idNe, textNe⟩, rfl⟩, fresh⟩
  · intro given
    rcases given with ⟨⟨⟨idNe, textNe⟩, rfl⟩, fresh⟩
    exact ⟨_, ⟨idNe, rfl⟩, _, ⟨textNe, rfl⟩, (), fresh, rfl⟩

theorem checkImages_eq_ok_iff {decls : List ImageDecl} {images : List Image} :
    checkImages decls = .ok images ↔
      (∀ decl ∈ decls, decl.WellFormed) ∧ (decls.map ImageDecl.name).Nodup ∧
        images = decls.map ImageDecl.described :=
  checkImage_reads.keyed_eq_ok_iff Image.id

/-! ## Packages -/

theorem optional_eq (value : Option String) :
    optional value = if fieldText value = "" then none else some (fieldText value) := by
  cases value with
  | none => simp [optional, fieldText]
  | some text =>
      by_cases empty : Text.trim text = "" <;> simp [optional, fieldText, empty]

theorem fileName_eq (path : String) :
    fileName path = Text.finalComponent (Text.trim path) := by
  rw [fileName, Text.afterLast_dropTrailingSlashes]

theorem checkFileNames_eq_ok_iff {package name : String} {paths names : List String} :
    checkFileNames package name paths = .ok names ↔
      (paths.map fileName).Nodup ∧ names = paths.map fileName := by
  let step : List String → String → Except LoadError String := fun accepted path =>
    let file := fileName path
    if file ∈ accepted then .error (.conflicting .package package (.sameFileName name file))
    else .ok file
  have reads : StepReads step (fun path file => True ∧ file = fileName path)
      (fun earlier later => id earlier ≠ id later) := by
    refine .of_fresh id fun accepted path file => ?_
    by_cases taken : fileName path ∈ accepted
    · simp only [step, taken, ↓reduceIte, reduceCtorEq, true_and, List.map_id, id_eq, false_iff,
        not_and, not_not]
      intro equal
      rwa [equal]
    · simp only [step, taken, ↓reduceIte, Except.ok.injEq, true_and, List.map_id, id_eq]
      constructor
      · intro equal
        exact ⟨equal.symm, by rwa [← equal]⟩
      · exact fun read => read.1.symm
  exact (reads.keyed_eq_ok_iff id).trans (by simp)

theorem isFileEntry_iff {entry : String} : isFileEntry entry = true ↔ IsFileEntry entry := by
  rw [isFileEntry, IsFileEntry]
  cases parts : Text.splitFirst ':' entry with
  | none =>
      simp only [Bool.false_eq_true, false_iff, not_exists, not_and]
      intro host container equal
      subst equal
      have free := Text.splitFirst_eq_none_iff.mp parts
      simp at free
  | some pair =>
      rcases Text.splitFirst_eq_some_iff.mp parts with ⟨whole, free⟩
      constructor
      · intro accepted
        refine ⟨pair.1, pair.2, ?_, free, by simpa using accepted⟩
        rw [← String.toList_inj]
        simpa using whole
      · intro given
        rcases given with ⟨host, container, rfl, hostFree, hostNe, containerNe⟩
        have split : Text.splitFirst ':' (host ++ ":" ++ container) = some (host, container) := by
          rw [Text.splitFirst_eq_some_iff]
          exact ⟨by simp, hostFree⟩
        rw [split] at parts
        cases parts
        simp [hostNe, containerNe]

theorem find?_malformed_eq_none_iff {files : List String} :
    (files.find? fun entry => !isFileEntry entry) = none ↔
      ∀ entry ∈ files, IsFileEntry entry := by
  simp [List.find?_eq_none, isFileEntry_iff]

theorem hostParts_eq {files : List String} (wellFormed : ∀ entry ∈ files, IsFileEntry entry) :
    hostParts files = files.map (Text.beforeFirst ':') := by
  rw [hostParts, ← List.filterMap_eq_map]
  apply List.filterMap_congr
  intro entry member
  rcases wellFormed entry member with ⟨host, container, rfl, -⟩
  have colon : ':' ∈ (host ++ ":" ++ container).toList := by simp
  rcases Text.exists_splitFirst_of_mem colon with ⟨before, after, parts⟩
  simp [parts, Text.beforeFirst]

theorem map_fileName_hostParts {decl : PackageDecl}
    (wellFormed : ∀ entry ∈ fieldTexts decl.files, IsFileEntry entry) :
    (hostParts (fieldTexts decl.files)).map fileName =
      decl.hostPaths.map Text.finalComponent := by
  rw [hostParts_eq wellFormed, PackageDecl.hostPaths, List.map_map, List.map_map]
  apply List.map_congr_left
  intro entry _
  simp only [Function.comp_apply, fileName_eq]

theorem map_fileName_fieldTexts (entries : Option (List String)) :
    (fieldTexts entries).map fileName = (fieldTexts entries).map Text.finalComponent := by
  apply List.map_congr_left
  intro entry member
  rcases List.mem_map.mp member with ⟨written, -, rfl⟩
  rw [fileName_eq, Text.trim_trim]

theorem isEmpty_sources_iff {decl : PackageDecl} :
    ((fieldTexts decl.apt).isEmpty && (fieldTexts decl.git).isEmpty &&
        (optional decl.rosinstall).isNone) = true ↔
      ¬(fieldTexts decl.apt ≠ [] ∨ fieldTexts decl.git ≠ [] ∨ fieldText decl.rosinstall ≠ "") := by
  rw [optional_eq]
  by_cases empty : fieldText decl.rosinstall = "" <;> simp [empty]

theorem checkPackage_reads :
    StepReads checkPackage (fun decl package => decl.WellFormed ∧ package = decl.described)
      (fun earlier later => earlier.id ≠ later.id) := by
  refine .of_fresh Package.id fun accepted decl package => ?_
  simp only [checkPackage, bind_eq_ok_iff, required_eq_ok_iff, refuseRepeated_eq_ok_iff,
    checkEntries_eq_ok_iff, refuse_eq_ok_iff]
  constructor
  · intro given
    rcases given with ⟨id, ⟨idNe, rfl⟩, path, ⟨pathNe, rfl⟩, command, ⟨commandNe, rfl⟩, -, fresh,
        apt, ⟨aptNe, rfl⟩, git, ⟨gitNe, rfl⟩, sources, ssh, ⟨sshNe, rfl⟩, files, ⟨filesNe, rfl⟩,
        rest⟩
    cases malformed : (fieldTexts decl.files).find? fun entry => !isFileEntry entry with
    | some entry => simp [malformed] at rest
    | none =>
        have filesForm := find?_malformed_eq_none_iff.mp malformed
        simp only [malformed, bind_eq_ok_iff, checkFileNames_eq_ok_iff, pure_eq_ok_iff,
          map_fileName_fieldTexts, map_fileName_hostParts filesForm, and_assoc,
          exists_and_left, exists_eq_left] at rest
        rcases rest with ⟨sshNodup, filesNodup, rfl⟩
        rw [isEmpty_sources_iff, not_not] at sources
        refine ⟨⟨?_, ?_⟩, fresh⟩
        · exact ⟨idNe, pathNe, commandNe, aptNe, gitNe, sources, sshNe, filesNe, filesForm,
            sshNodup, filesNodup⟩
        · rw [PackageDecl.described, optional_eq]
          rfl
  · intro given
    rcases given with ⟨⟨wellFormed, rfl⟩, fresh⟩
    have malformed := find?_malformed_eq_none_iff.mpr wellFormed.files_form
    refine ⟨_, ⟨wellFormed.name_ne, rfl⟩, _, ⟨wellFormed.path_ne, rfl⟩,
      _, ⟨wellFormed.command_ne, rfl⟩, (), fresh, _, ⟨wellFormed.apt_ne, rfl⟩,
      _, ⟨wellFormed.git_ne, rfl⟩, ?_, _, ⟨wellFormed.ssh_ne, rfl⟩,
      _, ⟨wellFormed.files_ne, rfl⟩, ?_⟩
    · rw [isEmpty_sources_iff, not_not]
      exact wellFormed.sources
    · simp only [malformed, bind_eq_ok_iff, checkFileNames_eq_ok_iff, pure_eq_ok_iff,
        map_fileName_fieldTexts, map_fileName_hostParts wellFormed.files_form]
      refine ⟨_, ⟨wellFormed.ssh_nodup, rfl⟩, _, ⟨wellFormed.files_nodup, rfl⟩, ?_⟩
      rw [PackageDecl.described, optional_eq]
      rfl

theorem checkPackages_eq_ok_iff {decls : List PackageDecl} {packages : List Package} :
    checkPackages decls = .ok packages ↔
      (∀ decl ∈ decls, decl.WellFormed) ∧ (decls.map PackageDecl.name).Nodup ∧
        packages = decls.map PackageDecl.described :=
  checkPackage_reads.keyed_eq_ok_iff Package.id

/-! ## Globals -/

@[simp] theorem map_id_images (doc : Document) :
    (doc.images.map ImageDecl.described).map Image.id = doc.imageNames := by
  simp [Document.imageNames, ImageDecl.described]

@[simp] theorem map_id_packages (doc : Document) :
    (doc.packages.map PackageDecl.described).map Package.id = doc.packageNames := by
  simp [Document.packageNames, PackageDecl.described]

theorem checkGlobal_reads (doc : Document) :
    StepReads
      (checkGlobal (doc.images.map ImageDecl.described) (doc.packages.map PackageDecl.described))
      (fun decl global => decl.WellFormed doc ∧ global = decl.described)
      (fun earlier later => earlier.id ≠ later.id) := by
  refine .of_fresh Global.id fun accepted decl global => ?_
  simp only [checkGlobal, bind_eq_ok_iff, required_eq_ok_iff, refuseRepeated_eq_ok_iff,
    pure_eq_ok_iff, map_id_images, map_id_packages, List.mem_append, not_or]
  constructor
  · intro given
    rcases given with ⟨id, ⟨idNe, rfl⟩, -, fresh, -, ⟨noImage, noPackage⟩, rfl⟩
    exact ⟨⟨⟨idNe, noImage, noPackage⟩, rfl⟩, fresh⟩
  · intro given
    rcases given with ⟨⟨⟨idNe, noImage, noPackage⟩, rfl⟩, fresh⟩
    exact ⟨_, ⟨idNe, rfl⟩, (), fresh, (), ⟨noImage, noPackage⟩, rfl⟩

theorem checkGlobals_eq_ok_iff {doc : Document} {globals : List Global} :
    checkGlobals (doc.images.map ImageDecl.described) (doc.packages.map PackageDecl.described)
        doc.globals = .ok globals ↔
      (∀ decl ∈ doc.globals, decl.WellFormed doc) ∧ (doc.globals.map GlobalDecl.name).Nodup ∧
        globals = doc.globals.map GlobalDecl.described :=
  (checkGlobal_reads doc).keyed_eq_ok_iff Global.id

/-! ## Robots -/

theorem resolveReference_reads (robot : String) (kind : EntityKind) (name : String)
    (known : List String) :
    StepReads (resolveReference robot kind name known)
      (fun written entry => (Text.trim written ≠ "" ∧ Text.trim written ∈ known) ∧
        entry = (Text.trim written, known.idxOf (Text.trim written)))
      (fun earlier later => earlier.1 ≠ later.1) := by
  refine .of_fresh Prod.fst fun accepted written entry => ?_
  rw [resolveReference]
  generalize Text.trim written = reference
  by_cases empty : reference = ""
  · simp [empty]
  · by_cases taken : reference ∈ accepted.map Prod.fst
    · simp only [String.isEmpty_iff, empty, ↓reduceIte, taken, reduceCtorEq, false_iff, not_and,
        not_not]
      intro given
      rcases given with ⟨-, rfl⟩
      exact taken
    · by_cases declared : reference ∈ known
      · have found : known.findIdx? (· == reference) = some (known.idxOf reference) :=
          List.findIdx?_eq_some_of_exists ⟨reference, declared, by simp⟩
        simp only [String.isEmpty_iff, empty, ↓reduceIte, taken, found, Except.ok.injEq, declared]
        constructor
        · intro equal
          subst equal
          exact ⟨⟨⟨empty, trivial⟩, rfl⟩, taken⟩
        · exact fun read => read.1.2.symm
      · have missing : known.findIdx? (· == reference) = none := by
          rw [List.findIdx?_eq_none_iff]
          intro id member
          simpa using fun equal : id = reference => declared (equal ▸ member)
        simp [empty, taken, missing, declared]

theorem resolveReferences_eq_ok_iff {robot : String} {kind : EntityKind} {name : String}
    {known : List String} {references : Option (List String)} {positions : List Nat} :
    resolveReferences robot kind name known references = .ok positions ↔
      ReferencesWellFormed known (fieldTexts references) ∧
        positions = (fieldTexts references).map (known.idxOf ·) := by
  simp only [resolveReferences, map_eq_ok_iff,
    (resolveReference_reads robot kind name known).keyed_eq_ok_iff Prod.fst]
  constructor
  · intro given
    rcases given with ⟨entries, ⟨accepts, nodup, rfl⟩, rfl⟩
    refine ⟨⟨?_, nodup, ?_⟩, by simp [fieldTexts]⟩
    · simpa [fieldTexts] using fun entry member => (accepts entry member).1
    · simpa [fieldTexts] using fun entry member => (accepts entry member).2
  · intro given
    rcases given with ⟨wellFormed, rfl⟩
    refine ⟨_, ⟨fun entry member => ?_, wellFormed.nodup, rfl⟩, by simp [fieldTexts]⟩
    have listed : Text.trim entry ∈ fieldTexts references := List.mem_map_of_mem member
    exact ⟨wellFormed.reference_ne _ listed, wellFormed.declared _ listed⟩

theorem checkVariable_reads (robot : String) :
    StepReads (checkVariable robot)
      (fun entry var => (Text.isIdentifier entry.1 = true ∧
          ∃ text, entry.2.scalarText = some text) ∧
        var = (entry.1, entry.2.scalarText.getD ""))
      (fun _ _ => True) := by
  intro accepted entry var
  rw [checkVariable]
  by_cases named : Text.isIdentifier entry.1 = true
  · cases written : entry.2.scalarText with
    | none => simp [named, written]
    | some text => simpa [named, written] using eq_comm
  · simp [named]

theorem checkRobotFields_eq_ok_iff {settings : Settings} {doc : Document} {decl : RobotDecl}
    {robot : CheckedRobot} :
    checkRobotFields settings doc.imageNames doc.packageNames decl = .ok robot ↔
      decl.WellFormed settings doc ∧ robot = decl.described settings doc := by
  simp only [checkRobotFields, bind_eq_ok_iff, required_eq_ok_iff, mapError_eq_ok_iff,
    RosSpec.parse_eq_ok_iff, resolveReferences_eq_ok_iff, refuse_eq_ok_iff,
    (checkVariable_reads _).free_eq_ok_iff, pure_eq_ok_iff]
  constructor
  · intro given
    rcases given with ⟨id, ⟨idNe, rfl⟩, text, ⟨textNe, rfl⟩, spec, ⟨readable, rfl⟩, images,
        ⟨imagesWellFormed, rfl⟩, packages, ⟨packagesWellFormed, rfl⟩, runs, vars, ⟨varsAccepted,
        rfl⟩, rfl⟩
    refine ⟨⟨idNe, textNe, readable, imagesWellFormed, packagesWellFormed, ?_,
      fun entry member => (varsAccepted entry member).1,
      fun entry member => (varsAccepted entry member).2⟩, rfl⟩
    simpa [RobotDecl.imageNames, RobotDecl.packageNames, imp_iff_not_or] using runs
  · intro given
    rcases given with ⟨wellFormed, rfl⟩
    refine ⟨_, ⟨wellFormed.name_ne, rfl⟩, _, ⟨wellFormed.ros_ne, rfl⟩,
      _, ⟨wellFormed.ros, rfl⟩, _, ⟨wellFormed.images, rfl⟩, _, ⟨wellFormed.packages, rfl⟩,
      ?_, _, ⟨fun entry member => ?_, rfl⟩, rfl⟩
    · simpa [RobotDecl.imageNames, RobotDecl.packageNames, imp_iff_not_or]
        using wellFormed.runs
    · exact ⟨wellFormed.variable_name entry member, wellFormed.variable_scalar entry member⟩

theorem checkRobot_reads (settings : Settings) (doc : Document) :
    StepReads (checkRobot settings doc.imageNames doc.packageNames)
      (fun decl robot => decl.WellFormed settings doc ∧ robot = decl.described settings doc)
      (fun earlier later => earlier.id ≠ later.id) := by
  refine .of_fresh CheckedRobot.id fun accepted decl robot => ?_
  simp only [checkRobot, bind_eq_ok_iff, checkRobotFields_eq_ok_iff, refuseRepeated_eq_ok_iff,
    pure_eq_ok_iff]
  constructor
  · intro given
    rcases given with ⟨robot, read, -, fresh, rfl⟩
    exact ⟨read, fresh⟩
  · intro given
    rcases given with ⟨read, fresh⟩
    exact ⟨robot, read, (), fresh, rfl⟩

theorem checkRobots_eq_ok_iff {settings : Settings} {doc : Document}
    {robots : List CheckedRobot} :
    checkRobots settings doc.imageNames doc.packageNames doc.robots = .ok robots ↔
      (∀ decl ∈ doc.robots, decl.WellFormed settings doc) ∧ doc.robotNames.Nodup ∧
        robots = doc.robots.map (RobotDecl.described settings doc) :=
  (checkRobot_reads settings doc).keyed_eq_ok_iff CheckedRobot.id

/-! ## Areas -/

theorem ownerOf_eq_none_iff {areas : List Membership} {robot : String} :
    ownerOf areas robot = none ↔ ∀ area ∈ areas, robot ∉ area.robots := by
  simp [ownerOf, List.find?_eq_none]

theorem checkMember_reads (robots : List String) (areas : List Membership) (area : String) :
    StepReads (checkMember robots areas area)
      (fun written robot => (Text.trim written ≠ "" ∧ Text.trim written ∈ robots ∧
          ∀ other ∈ areas, Text.trim written ∉ other.robots) ∧ robot = Text.trim written)
      (fun earlier later => id earlier ≠ id later) := by
  refine .of_fresh id fun accepted written robot => ?_
  rw [checkMember]
  generalize Text.trim written = member
  simp only [List.map_id, id_eq]
  by_cases empty : member = ""
  · simp [empty]
  · by_cases taken : member ∈ accepted
    · simp only [String.isEmpty_iff, empty, ↓reduceIte, taken, reduceCtorEq, false_iff, not_and,
        not_not]
      intro given
      rcases given with ⟨-, rfl⟩
      exact taken
    · by_cases declared : member ∈ robots
      · cases owner : ownerOf areas member with
        | none =>
            have free := ownerOf_eq_none_iff.mp owner
            simp only [String.isEmpty_iff, empty, ↓reduceIte, taken, declared, not_true_eq_false,
              Except.ok.injEq]
            constructor
            · intro equal
              subst equal
              exact ⟨⟨⟨empty, trivial, free⟩, rfl⟩, taken⟩
            · exact fun read => read.1.2.symm
        | some other =>
            have listed : ¬∀ area ∈ areas, member ∉ area.robots := by
              rw [← ownerOf_eq_none_iff, owner]
              simp
            simp [empty, taken, declared, listed]
      · simp [empty, taken, declared]

theorem checkArea_reads (doc : Document) :
    StepReads (checkArea doc.robotNames)
      (fun decl area => (decl.WellFormed doc ∧ decl.members.Nodup) ∧ area = decl.described)
      (fun earlier later =>
        earlier.id ≠ later.id ∧ List.Disjoint earlier.robots later.robots) := by
  intro accepted decl area
  simp only [checkArea, bind_eq_ok_iff, required_eq_ok_iff, refuseRepeated_eq_ok_iff,
    refuse_eq_ok_iff, (checkMember_reads _ _ _).keyed_eq_ok_iff id, pure_eq_ok_iff]
  constructor
  · intro given
    rcases given with ⟨id, ⟨idNe, rfl⟩, -, fresh, listed, members, ⟨accepts, nodup, rfl⟩, rfl⟩
    refine ⟨⟨⟨⟨idNe, ?_, ?_, ?_⟩, nodup⟩, rfl⟩, fun earlier earlierMember => ⟨?_, ?_⟩⟩
    · simpa [AreaDecl.members, fieldTexts] using listed
    · simpa [AreaDecl.members, fieldTexts] using fun written member => (accepts written member).1
    · simpa [AreaDecl.members, fieldTexts] using
        fun written member => (accepts written member).2.1
    · exact fun equal => fresh (List.mem_map.mpr ⟨earlier, earlierMember, equal⟩)
    · intro robot owned member
      rcases List.mem_map.mp member with ⟨written, writtenMember, rfl⟩
      exact (accepts written writtenMember).2.2 earlier earlierMember owned
  · intro given
    rcases given with ⟨⟨⟨wellFormed, nodup⟩, rfl⟩, apart⟩
    refine ⟨_, ⟨wellFormed.name_ne, rfl⟩, (), ?_, ?_, _, ⟨fun written member => ?_, nodup, rfl⟩,
      rfl⟩
    · intro taken
      rcases List.mem_map.mp taken with ⟨earlier, earlierMember, equal⟩
      exact (apart earlier earlierMember).1 equal
    · simpa [AreaDecl.members, fieldTexts] using wellFormed.members_ne
    · have listed : Text.trim written ∈ decl.members := List.mem_map_of_mem member
      refine ⟨wellFormed.member_ne _ listed, wellFormed.member_declared _ listed, ?_⟩
      exact fun other otherMember owned => (apart other otherMember).2 owned listed

theorem checkAreas_eq_ok_iff {doc : Document} {areas : List Membership} :
    checkAreas doc.robotNames doc.areaDecls = .ok areas ↔
      (∀ decl ∈ doc.areaDecls, decl.WellFormed doc) ∧
        (doc.areaDecls.map AreaDecl.name).Nodup ∧ doc.listedNames.Nodup ∧
        areas = doc.areaDecls.map AreaDecl.described := by
  rw [checkAreas, (checkArea_reads doc).section_eq_ok_iff, forall₂_image_iff,
    Document.listedNames, List.nodup_flatMap]
  constructor
  · intro given
    rcases given with ⟨⟨accepts, rfl⟩, apart⟩
    rw [List.pairwise_map, List.pairwise_and_iff] at apart
    exact ⟨fun decl member => (accepts decl member).1, List.pairwise_map.mpr apart.1,
      ⟨fun decl member => (accepts decl member).2, apart.2⟩, rfl⟩
  · intro given
    rcases given with ⟨wellFormed, namesNodup, ⟨membersNodup, disjoint⟩, rfl⟩
    refine ⟨⟨fun decl member => ⟨wellFormed decl member, membersNodup decl member⟩, rfl⟩, ?_⟩
    rw [List.pairwise_map, List.pairwise_and_iff]
    exact ⟨List.pairwise_map.mp namesNodup, disjoint⟩

/-! ## Documents -/

@[simp] theorem map_id_robots (settings : Settings) (doc : Document) :
    (doc.robots.map (RobotDecl.described settings doc)).map CheckedRobot.id =
      doc.robotNames := by
  simp [Document.robotNames, RobotDecl.described]

/-- The sections of a document are accepted exactly if they are well-formed, and then the
answer is what they describe. -/
theorem ofDocument_eq_ok_iff {settings : Settings} {doc : Document} {decls : Declarations} :
    ofDocument settings doc = .ok decls ↔
      doc.SectionsWellFormed settings ∧ decls = doc.declarations settings := by
  rw [ofDocument]
  change (if doc.areaDecls.isEmpty = true then _ else _) = _ ↔ _
  simp only [refuse_eq_ok_iff, bind_eq_ok_iff, checkImages_eq_ok_iff, checkPackages_eq_ok_iff,
    pure_eq_ok_iff]
  constructor
  · intro given
    rcases given with ⟨areasNe, images, ⟨imagesWellFormed, imagesNodup, rfl⟩, packages,
        ⟨packagesWellFormed, packagesNodup, rfl⟩, globals, globalsRead, robots, robotsRead, areas,
        areasRead, rfl⟩
    rcases checkGlobals_eq_ok_iff.mp globalsRead with ⟨globalsWellFormed, globalsNodup, rfl⟩
    rw [map_id_images, map_id_packages, checkRobots_eq_ok_iff] at robotsRead
    rcases robotsRead with ⟨robotsWellFormed, robotsNodup, rfl⟩
    rw [map_id_robots] at areasRead
    rcases checkAreas_eq_ok_iff.mp areasRead with ⟨areasWellFormed, areasNodup, listedNodup, rfl⟩
    exact ⟨⟨by simpa using areasNe, imagesWellFormed, imagesNodup, packagesWellFormed,
      packagesNodup, globalsWellFormed, globalsNodup, robotsWellFormed, robotsNodup,
      areasWellFormed, areasNodup, listedNodup⟩, rfl⟩
  · intro given
    rcases given with ⟨wellFormed, rfl⟩
    refine ⟨by simpa using wellFormed.areas_ne,
      _, ⟨wellFormed.images, wellFormed.images_nodup, rfl⟩,
      _, ⟨wellFormed.packages, wellFormed.packages_nodup, rfl⟩,
      _, checkGlobals_eq_ok_iff.mpr ⟨wellFormed.globals, wellFormed.globals_nodup, rfl⟩, ?_⟩
    rw [map_id_images, map_id_packages]
    refine ⟨_, checkRobots_eq_ok_iff.mpr ⟨wellFormed.robots, wellFormed.robots_nodup, rfl⟩, ?_⟩
    rw [map_id_robots]
    exact ⟨_, checkAreas_eq_ok_iff.mpr ⟨wellFormed.areas, wellFormed.areas_nodup,
      wellFormed.listed_nodup, rfl⟩, rfl⟩

end Declarations

end FleetCompose
