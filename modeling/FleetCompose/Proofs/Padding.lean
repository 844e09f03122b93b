import FleetCompose.Fleet.Load
import FleetCompose.Proofs.Acceptance
import Mathlib.Data.List.Forall2

/-!
# Blanks around texts

A document may have blanks around its ids, references and other texts. They are trimmed in many
places, before ids are compared, references are followed and errors are made. Every check reads a
declaration as it reads the same declaration with trimmed texts, so a document is loaded as the
trimmed one is. Documents that differ in blanks around texts have one fleet or one error, and one
log.
-/

namespace FleetCompose

/-! ## Padded texts -/

namespace Text

/-- The second text is the first one with blanks in front of it and behind it. -/
def Padded (text padded : String) : Prop :=
  ∃ front back, isAllBlank front = true ∧ isAllBlank back = true ∧ padded = front ++ text ++ back

/-- Blanks at both ends do not count. -/
theorem trimChars_surrounded {front back : List Char} (frontBlank : front.all isBlank = true)
    (backBlank : back.all isBlank = true) (cs : List Char) :
    trimChars (front ++ cs ++ back) = trimChars cs := by
  have opened : (front ++ cs ++ back).dropWhile isBlank = (cs ++ back).dropWhile isBlank := by
    rw [List.append_assoc, List.dropWhile_append_of_pos (List.all_eq_true.mp frontBlank)]
  rw [trimChars, trimChars, opened, List.dropWhile_append]
  split
  next blank =>
    have none : cs.dropWhile isBlank = [] := List.isEmpty_iff.mp blank
    have gone : back.dropWhile isBlank = [] :=
      List.dropWhile_eq_nil_iff.mpr (List.all_eq_true.mp backBlank)
    rw [none, gone]
  next => exact dropEndWhile_append_of_all isBlank _ back backBlank

theorem Padded.trim_eq {text padded : String} (isPadded : Padded text padded) :
    trim padded = trim text := by
  rcases isPadded with ⟨front, back, frontBlank, backBlank, rfl⟩
  rw [← String.toList_inj, toList_trim, toList_trim, String.toList_append, String.toList_append]
  exact trimChars_surrounded frontBlank backBlank text.toList

end Text

/-! ## The texts of a document -/

/-- Change the text of a field that may be absent. -/
def mapField (image : String → String) (value : Option String) : Option String := value.map image

/-- Change the entries of a list field that may be absent. -/
def mapEntries (image : String → String) (entries : Option (List String)) :
    Option (List String) :=
  entries.map (List.map image)

/-- A field with blanks around its text. -/
def FieldPadded : Option String → Option String → Prop := Option.Rel Text.Padded

/-- A list field with blanks around its entries. -/
def EntriesPadded : Option (List String) → Option (List String) → Prop :=
  Option.Rel (List.Forall₂ Text.Padded)

/-- Change the texts of an area. -/
def AreaDecl.mapTexts (image : String → String) (decl : AreaDecl) : AreaDecl where
  id := mapField image decl.id
  robots := mapEntries image decl.robots

/-- Change the texts of a robot that are read by name. -/
def RobotDecl.mapTexts (image : String → String) (decl : RobotDecl) : RobotDecl where
  id := mapField image decl.id
  ros := mapField image decl.ros
  images := mapEntries image decl.images
  packages := mapEntries image decl.packages
  vars := decl.vars
  extra := decl.extra

/-- Change the texts of an image. -/
def ImageDecl.mapTexts (image : String → String) (decl : ImageDecl) : ImageDecl where
  id := mapField image decl.id
  image := mapField image decl.image
  extra := decl.extra

/-- Change the texts of a package. -/
def PackageDecl.mapTexts (image : String → String) (decl : PackageDecl) : PackageDecl where
  id := mapField image decl.id
  path := mapField image decl.path
  command := mapField image decl.command
  apt := mapEntries image decl.apt
  git := mapEntries image decl.git
  rosinstall := mapField image decl.rosinstall
  ssh := mapEntries image decl.ssh
  files := mapEntries image decl.files
  extra := decl.extra

/-- Change the id of a global. -/
def GlobalDecl.mapTexts (image : String → String) (decl : GlobalDecl) : GlobalDecl where
  id := mapField image decl.id
  extra := decl.extra

/-- Change all texts of a document that are read by name. What is passed on stays as it is. -/
def Document.mapTexts (image : String → String) (doc : Document) : Document where
  areas := doc.areas.map (List.map (AreaDecl.mapTexts image))
  robots := doc.robots.map (RobotDecl.mapTexts image)
  images := doc.images.map (ImageDecl.mapTexts image)
  packages := doc.packages.map (PackageDecl.mapTexts image)
  globals := doc.globals.map (GlobalDecl.mapTexts image)

/-- The second area has further blanks around its texts. -/
structure AreaDecl.Padded (first second : AreaDecl) : Prop where
  id : FieldPadded first.id second.id
  robots : EntriesPadded first.robots second.robots

/-- The second robot has further blanks around its texts. -/
structure RobotDecl.Padded (first second : RobotDecl) : Prop where
  id : FieldPadded first.id second.id
  ros : FieldPadded first.ros second.ros
  images : EntriesPadded first.images second.images
  packages : EntriesPadded first.packages second.packages
  vars_eq : second.vars = first.vars
  extra_eq : second.extra = first.extra

/-- The second image has further blanks around its texts. -/
structure ImageDecl.Padded (first second : ImageDecl) : Prop where
  id : FieldPadded first.id second.id
  image : FieldPadded first.image second.image
  extra_eq : second.extra = first.extra

/-- The second package has further blanks around its texts. -/
structure PackageDecl.Padded (first second : PackageDecl) : Prop where
  id : FieldPadded first.id second.id
  path : FieldPadded first.path second.path
  command : FieldPadded first.command second.command
  apt : EntriesPadded first.apt second.apt
  git : EntriesPadded first.git second.git
  rosinstall : FieldPadded first.rosinstall second.rosinstall
  ssh : EntriesPadded first.ssh second.ssh
  files : EntriesPadded first.files second.files
  extra_eq : second.extra = first.extra

/-- The second global has further blanks around its id. -/
structure GlobalDecl.Padded (first second : GlobalDecl) : Prop where
  id : FieldPadded first.id second.id
  extra_eq : second.extra = first.extra

/-- The second document has further blanks around its texts. Each text may have its own. -/
structure Document.Padded (first second : Document) : Prop where
  areas : Option.Rel (List.Forall₂ AreaDecl.Padded) first.areas second.areas
  robots : List.Forall₂ RobotDecl.Padded first.robots second.robots
  images : List.Forall₂ ImageDecl.Padded first.images second.images
  packages : List.Forall₂ PackageDecl.Padded first.packages second.packages
  globals : List.Forall₂ GlobalDecl.Padded first.globals second.globals

/-! ## Trimming forgets padding -/

section Related

variable {α γ : Type} {related : α → α → Prop} (image : α → γ)
  (agree : ∀ first second, related first second → image second = image first)
include agree

theorem map_eq_of_forall₂ (firsts seconds : List α)
    (relates : List.Forall₂ related firsts seconds) : seconds.map image = firsts.map image := by
  induction relates with
  | nil => rfl
  | cons first _ ih => rw [List.map_cons, List.map_cons, agree _ _ first, ih]

theorem map_eq_of_optionRel (first second : Option α)
    (relates : Option.Rel related first second) : second.map image = first.map image := by
  cases relates with
  | none => rfl
  | some relates => rw [Option.map_some, Option.map_some, agree _ _ relates]

end Related

theorem FieldPadded.trim_eq {first second : Option String} (padded : FieldPadded first second) :
    mapField Text.trim second = mapField Text.trim first :=
  map_eq_of_optionRel Text.trim (fun _ _ => Text.Padded.trim_eq) first second padded

theorem EntriesPadded.trim_eq {first second : Option (List String)}
    (padded : EntriesPadded first second) :
    mapEntries Text.trim second = mapEntries Text.trim first := by
  apply map_eq_of_optionRel (List.map Text.trim) _ first second padded
  exact map_eq_of_forall₂ Text.trim fun _ _ => Text.Padded.trim_eq

theorem AreaDecl.Padded.trim_eq {first second : AreaDecl} (padded : first.Padded second) :
    second.mapTexts Text.trim = first.mapTexts Text.trim := by
  rw [mapTexts, mapTexts, padded.id.trim_eq, padded.robots.trim_eq]

theorem RobotDecl.Padded.trim_eq {first second : RobotDecl} (padded : first.Padded second) :
    second.mapTexts Text.trim = first.mapTexts Text.trim := by
  rw [mapTexts, mapTexts, padded.id.trim_eq, padded.ros.trim_eq, padded.images.trim_eq,
    padded.packages.trim_eq, padded.vars_eq, padded.extra_eq]

theorem ImageDecl.Padded.trim_eq {first second : ImageDecl} (padded : first.Padded second) :
    second.mapTexts Text.trim = first.mapTexts Text.trim := by
  rw [mapTexts, mapTexts, padded.id.trim_eq, padded.image.trim_eq, padded.extra_eq]

theorem PackageDecl.Padded.trim_eq {first second : PackageDecl} (padded : first.Padded second) :
    second.mapTexts Text.trim = first.mapTexts Text.trim := by
  rw [mapTexts, mapTexts, padded.id.trim_eq, padded.path.trim_eq, padded.command.trim_eq,
    padded.apt.trim_eq, padded.git.trim_eq, padded.rosinstall.trim_eq, padded.ssh.trim_eq,
    padded.files.trim_eq, padded.extra_eq]

theorem GlobalDecl.Padded.trim_eq {first second : GlobalDecl} (padded : first.Padded second) :
    second.mapTexts Text.trim = first.mapTexts Text.trim := by
  rw [mapTexts, mapTexts, padded.id.trim_eq, padded.extra_eq]

theorem Document.Padded.trim_eq {first second : Document} (padded : first.Padded second) :
    second.mapTexts Text.trim = first.mapTexts Text.trim := by
  have areas : second.areas.map (List.map (AreaDecl.mapTexts Text.trim)) =
      first.areas.map (List.map (AreaDecl.mapTexts Text.trim)) := by
    apply map_eq_of_optionRel _ _ first.areas second.areas padded.areas
    exact map_eq_of_forall₂ (AreaDecl.mapTexts Text.trim) fun _ _ => AreaDecl.Padded.trim_eq
  have robots := map_eq_of_forall₂ (RobotDecl.mapTexts Text.trim)
    (fun _ _ => RobotDecl.Padded.trim_eq) _ _ padded.robots
  have images := map_eq_of_forall₂ (ImageDecl.mapTexts Text.trim)
    (fun _ _ => ImageDecl.Padded.trim_eq) _ _ padded.images
  have packages := map_eq_of_forall₂ (PackageDecl.mapTexts Text.trim)
    (fun _ _ => PackageDecl.Padded.trim_eq) _ _ padded.packages
  have globals := map_eq_of_forall₂ (GlobalDecl.mapTexts Text.trim)
    (fun _ _ => GlobalDecl.Padded.trim_eq) _ _ padded.globals
  rw [mapTexts, mapTexts, areas, robots, images, packages, globals]

/-! ## Checks read trimmed texts -/

/-- A loop whose step reads changed entries like the entries themselves. -/
theorem accumulate_map {α β ε : Type} {step : List β → α → Except ε β} {image : α → α}
    (same : ∀ accepted entry, step accepted (image entry) = step accepted entry)
    (accepted : List β) (entries : List α) :
    accumulate step accepted (entries.map image) = accumulate step accepted entries := by
  induction entries generalizing accepted with
  | nil => rfl
  | cons entry rest ih =>
      rw [List.map_cons, accumulate, accumulate, same]
      cases step accepted entry with
      | error failure => rfl
      | ok read => exact ih (accepted ++ [read])

theorem getD_mapEntries (image : String → String) (entries : Option (List String)) :
    (mapEntries image entries).getD [] = (entries.getD []).map image := by
  cases entries <;> rfl

namespace Declarations

theorem required_trim (value : Option String) (kind : EntityKind) (id : Option String)
    (name : String) :
    required (mapField Text.trim value) kind id name = required value kind id name := by
  cases value with
  | none => rfl
  | some text => simp only [mapField, Option.map_some, required, Option.getD_some, Text.trim_trim]

theorem optional_trim (value : Option String) :
    optional (mapField Text.trim value) = optional value := by
  cases value with
  | none => rfl
  | some text => simp only [mapField, Option.map_some, optional, Text.trim_trim]

theorem checkEntries_trim (package name : String) (entries : Option (List String)) :
    checkEntries package name (mapEntries Text.trim entries) =
      checkEntries package name entries := by
  rw [checkEntries, checkEntries, getD_mapEntries]
  apply accumulate_map
  intro accepted entry
  simp only [Text.trim_trim]

theorem resolveReferences_trim (robot : String) (kind : EntityKind) (name : String)
    (known : List String) (references : Option (List String)) :
    resolveReferences robot kind name known (mapEntries Text.trim references) =
      resolveReferences robot kind name known references := by
  rw [resolveReferences, resolveReferences, getD_mapEntries, accumulate_map]
  intro accepted entry
  simp only [resolveReference, Text.trim_trim]

theorem checkImage_trim (accepted : List Image) (decl : ImageDecl) :
    checkImage accepted (decl.mapTexts Text.trim) = checkImage accepted decl := by
  simp only [checkImage, ImageDecl.mapTexts, required_trim]

theorem checkPackage_trim (accepted : List Package) (decl : PackageDecl) :
    checkPackage accepted (decl.mapTexts Text.trim) = checkPackage accepted decl := by
  simp only [checkPackage, PackageDecl.mapTexts, required_trim, optional_trim, checkEntries_trim]

theorem checkGlobal_trim (images : List Image) (packages : List Package) (accepted : List Global)
    (decl : GlobalDecl) :
    checkGlobal images packages accepted (decl.mapTexts Text.trim) =
      checkGlobal images packages accepted decl := by
  simp only [checkGlobal, GlobalDecl.mapTexts, required_trim]

theorem checkRobot_trim (settings : Settings) (images packages : List String)
    (accepted : List CheckedRobot) (decl : RobotDecl) :
    checkRobot settings images packages accepted (decl.mapTexts Text.trim) =
      checkRobot settings images packages accepted decl := by
  simp only [checkRobot, checkRobotFields, RobotDecl.mapTexts, required_trim,
    resolveReferences_trim]

theorem checkArea_trim (robots : List String) (accepted : List Membership) (decl : AreaDecl) :
    checkArea robots accepted (decl.mapTexts Text.trim) = checkArea robots accepted decl := by
  have members : ∀ id, accumulate (checkMember robots accepted id) []
      ((decl.robots.getD []).map Text.trim) =
        accumulate (checkMember robots accepted id) [] (decl.robots.getD []) := by
    intro id
    apply accumulate_map
    intro listed written
    simp only [checkMember, Text.trim_trim]
  simp only [checkArea, AreaDecl.mapTexts, required_trim, getD_mapEntries, List.isEmpty_map,
    members]

theorem ofDocument_trim (settings : Settings) (doc : Document) :
    ofDocument settings (doc.mapTexts Text.trim) = ofDocument settings doc := by
  have areas : (doc.areas.map (List.map (AreaDecl.mapTexts Text.trim))).getD [] =
      (doc.areas.getD []).map (AreaDecl.mapTexts Text.trim) := by
    cases doc.areas <;> rfl
  simp only [ofDocument, Document.mapTexts, areas, List.isEmpty_map, checkImages, checkPackages,
    checkGlobals, checkRobots, checkAreas, accumulate_map checkImage_trim,
    accumulate_map checkPackage_trim, accumulate_map (checkGlobal_trim _ _),
    accumulate_map (checkRobot_trim _ _ _), accumulate_map (checkArea_trim _)]

end Declarations

/-- A document is loaded like the document with trimmed texts. -/
theorem loadFleet_trim (settings : Settings) (doc : Document) :
    loadFleet settings (doc.mapTexts Text.trim) = loadFleet settings doc := by
  rw [loadFleet, loadFleet, Declarations.ofDocument_trim]

/-! ## Documents -/

namespace Document

/-- Documents that differ in blanks around texts have one fleet or one error, and one log. -/
theorem loadFleet_eq_of_padded {settings : Settings} {first second : Document}
    (padded : first.Padded second) : loadFleet settings second = loadFleet settings first := by
  calc
    loadFleet settings second = loadFleet settings (second.mapTexts Text.trim) :=
      (loadFleet_trim settings second).symm
    _ = loadFleet settings (first.mapTexts Text.trim) := by rw [padded.trim_eq]
    _ = loadFleet settings first := loadFleet_trim settings first

/-! ## Padding a document -/

section Pads

variable {image : String → String} (pads : ∀ text, Text.Padded text (image text))
include pads

theorem fieldPadded_mapField (value : Option String) : FieldPadded value (mapField image value) := by
  cases value with
  | none => exact .none
  | some text => exact .some (pads text)

theorem entriesPadded_mapEntries (entries : Option (List String)) :
    EntriesPadded entries (mapEntries image entries) := by
  cases entries with
  | none => exact .none
  | some texts =>
      apply Option.Rel.some
      rw [List.forall₂_map_right_iff, List.forall₂_same]
      exact fun text _ => pads text

/-- A document whose texts are all padded. -/
theorem padded_mapTexts (doc : Document) : doc.Padded (doc.mapTexts image) where
  areas := by
    rw [mapTexts]
    cases doc.areas with
    | none => exact .none
    | some decls =>
        apply Option.Rel.some
        rw [List.forall₂_map_right_iff, List.forall₂_same]
        exact fun decl _ => ⟨fieldPadded_mapField pads _, entriesPadded_mapEntries pads _⟩
  robots := by
    rw [mapTexts, List.forall₂_map_right_iff, List.forall₂_same]
    intro decl _
    exact ⟨fieldPadded_mapField pads _, fieldPadded_mapField pads _,
      entriesPadded_mapEntries pads _, entriesPadded_mapEntries pads _, rfl, rfl⟩
  images := by
    rw [mapTexts, List.forall₂_map_right_iff, List.forall₂_same]
    exact fun decl _ => ⟨fieldPadded_mapField pads _, fieldPadded_mapField pads _, rfl⟩
  packages := by
    rw [mapTexts, List.forall₂_map_right_iff, List.forall₂_same]
    intro decl _
    exact ⟨fieldPadded_mapField pads _, fieldPadded_mapField pads _, fieldPadded_mapField pads _,
      entriesPadded_mapEntries pads _, entriesPadded_mapEntries pads _,
      fieldPadded_mapField pads _, entriesPadded_mapEntries pads _,
      entriesPadded_mapEntries pads _, rfl⟩
  globals := by
    rw [mapTexts, List.forall₂_map_right_iff, List.forall₂_same]
    exact fun decl _ => ⟨fieldPadded_mapField pads _, rfl⟩

end Pads

/-- A text between a tab with a no-break space and a space with a line feed. -/
def spaced (text : String) : String := "\t\u00a0" ++ text ++ " \n"

theorem padded_spaced (text : String) : Text.Padded text (spaced text) :=
  ⟨"\t\u00a0", " \n", by decide, by decide, rfl⟩

/-- The sample document with a robot that is not declared under the name by which it is listed. -/
def misspelt : Document :=
  { sample with areas := some [⟨some "yard", some ["carrier", "scuot"]⟩] }

theorem loadFleet_misspelt : ∃ log, loadFleet .standard misspelt =
    ⟨log, .error (.unresolved .area "yard" .robot "scuot" ["scout"])⟩ :=
  ⟨_, rfl⟩

/-- The sample document is loaded as before with blanks around all of its texts, and the error of
the other document has the same robot, area and suggestions. -/
theorem spaced_same_results :
    (∃ fleet, (loadFleet .standard sample).outcome = .ok fleet ∧
      (loadFleet .standard (sample.mapTexts spaced)).outcome = .ok fleet) ∧
    (loadFleet .standard (misspelt.mapTexts spaced)).outcome =
      .error (.unresolved .area "yard" .robot "scuot" ["scout"]) := by
  constructor
  · rcases exists_loadFleet_sample with ⟨fleet, loaded⟩
    exact ⟨fleet, loaded, by
      rw [@loadFleet_eq_of_padded .standard _ _ (padded_mapTexts padded_spaced sample), loaded]⟩
  · rcases loadFleet_misspelt with ⟨log, failed⟩
    rw [@loadFleet_eq_of_padded .standard _ _ (padded_mapTexts padded_spaced misspelt), failed]

end Document

end FleetCompose
