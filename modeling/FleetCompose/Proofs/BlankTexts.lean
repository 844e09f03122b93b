import FleetCompose.Proofs.ModelParts
import FleetCompose.Proofs.RobotScopes
import FleetCompose.Proofs.Segments
import FleetCompose.Proofs.WellFormed

/-!
# Texts that must not be blank

Loading refuses images, paths, commands and list entries that are blank, and it does so before
placeholders are replaced. A placeholder is not blank, but the value of its variable can be. A
text is blank afterwards exactly if it consists of blanks and of placeholders with blank values,
so nothing can go wrong as long as no robot declares such a value.
-/

namespace FleetCompose

/-! ## Blank texts -/

namespace Text

theorem trim_eq_empty_iff {text : String} :
    trim text = "" ↔ ∀ c ∈ text.toList, isBlank c = true := by
  rw [← String.toList_inj, toList_trim, trimChars, dropEndWhile_eq_rdropWhile]
  constructor
  · intro empty c member
    -- A character is in the run of blanks at the front or in what is trimmed at the end.
    rw [← List.takeWhile_append_dropWhile (p := isBlank) (l := text.toList)] at member
    cases List.mem_append.mp member with
    | inl front => exact List.mem_takeWhile_imp front
    | inr rest => exact List.rdropWhile_eq_nil_iff.mp empty c rest
  · intro blank
    rw [List.dropWhile_eq_nil_iff.mpr blank]
    rfl

theorem isBlank_of_isDigit {c : Char} (digit : c.isDigit = true) : isBlank c = false := by
  have range : 48 ≤ c.toNat ∧ c.toNat ≤ 57 := by
    simpa [Char.isDigit, UInt32.le_iff_toNat_le] using digit
  simp only [isBlank, Bool.or_eq_false_iff, Bool.and_eq_false_iff, beq_eq_false_iff_ne,
    decide_eq_false_iff_not]
  omega

theorem trim_repr (n : Nat) : trim (Nat.repr n) = Nat.repr n := by
  apply trim_of_not_blank
  intro c member
  rw [Nat.toList_repr] at member
  exact isBlank_of_isDigit (Nat.isDigit_of_mem_toDigits (by decide) (by decide) member)

theorem trim_append_eq_empty_iff {first second : String} :
    trim (first ++ second) = "" ↔ trim first = "" ∧ trim second = "" := by
  simp only [trim_eq_empty_iff, String.toList_append, List.mem_append]
  constructor
  · intro blank
    exact ⟨fun c member => blank c (.inl member), fun c member => blank c (.inr member)⟩
  · intro blank c member
    cases member with
    | inl front => exact blank.1 c front
    | inr back => exact blank.2 c back

theorem trim_join_eq_empty_iff {texts : List String} :
    trim (String.join texts) = "" ↔ ∀ text ∈ texts, trim text = "" := by
  induction texts with
  | nil => simp
  | cons text rest ih => rw [String.join_cons, trim_append_eq_empty_iff, ih, List.forall_mem_cons]

end Text

/-! ## Segments -/

namespace Template

theorem join_segments (text : String) : String.join ((segments text).map Segment.text) = text := by
  rw [← String.toList_inj, toList_join_text, segmentChars_segments]

/-- A placeholder has braces. -/
theorem IsWritten.not_blank {name raw : String} (written : IsWritten name.toList raw.toList) :
    Text.trim raw ≠ "" := by
  intro blank
  have brace : '{' ∈ raw.toList := by
    obtain ⟨before, after, -, -, -, equal⟩ := written
    rw [equal]
    simp
  exact absurd (Text.trim_eq_empty_iff.mp blank _ brace) (by decide)

/-- An element behind two lists is behind the first of them or in it. -/
theorem append_eq_append_cons {α : Type} {first rest host container : List α} {c : α}
    (whole : first ++ rest = host ++ c :: container) :
    (∃ between, host = first ++ between ∧ rest = between ++ c :: container) ∨
      ∃ back, first = host ++ c :: back ∧ container = back ++ rest := by
  cases List.append_eq_append_iff.mp whole with
  | inl later =>
      obtain ⟨between, equal, remaining⟩ := later
      exact .inl ⟨between, equal, remaining⟩
  | inr here =>
      obtain ⟨between, equal, remaining⟩ := here
      cases between with
      | nil => exact .inl ⟨[], by simpa using equal.symm, remaining.symm⟩
      | cons other back =>
          rw [List.cons_append, List.cons.injEq] at remaining
          obtain ⟨rfl, remaining⟩ := remaining
          exact .inr ⟨back, equal, remaining⟩

/-- The colon of a text is in a literal segment if it is in no placeholder. -/
theorem exists_cut {cut : List Segment}
    (foreign : ∀ name raw, .placeholder name raw ∈ cut → ':' ∉ raw.toList)
    {host container : List Char} (whole : segmentChars cut = host ++ ':' :: container) :
    ∃ before front back after, cut = before ++ .literal (front ++ ":" ++ back) :: after ∧
      host = segmentChars before ++ front.toList ∧
      container = back.toList ++ segmentChars after := by
  induction cut generalizing host with
  | nil => simp [segmentChars] at whole
  | cons segment rest ih =>
      rw [segmentChars_cons] at whole
      cases append_eq_append_cons whole with
      | inl later =>
          obtain ⟨between, rfl, remaining⟩ := later
          have others : ∀ name raw, .placeholder name raw ∈ rest → ':' ∉ raw.toList :=
            fun name raw member => foreign name raw (List.mem_cons_of_mem segment member)
          obtain ⟨before, front, back, after, rfl, rfl, rfl⟩ := ih others remaining
          refine ⟨segment :: before, front, back, after, rfl, ?_, rfl⟩
          rw [segmentChars_cons, List.append_assoc]
      | inr here =>
          obtain ⟨back, written, rfl⟩ := here
          cases segment with
          | placeholder name raw =>
              have colon : ':' ∈ raw.toList := by
                rw [Segment.text] at written
                rw [written]
                simp
              exact absurd colon (foreign name raw List.mem_cons_self)
          | literal text =>
              have equal : text = String.ofList host ++ ":" ++ String.ofList back := by
                rw [← String.toList_inj]
                simpa [Segment.text] using written
              refine ⟨[], String.ofList host, String.ofList back, rest, by rw [equal]; rfl, ?_, ?_⟩
              · simp [segmentChars]
              · simp

namespace Scope

variable (scope : Scope)

/-- The segment is blank once placeholders are replaced: a literal is blank, and a placeholder
has a blank value. -/
def BlanksSegment : Segment → Prop
  | .literal text => Text.trim text = ""
  | .placeholder name _ => ∃ value, scope.get? name = some value ∧ Text.trim value = ""

/-- The text consists of blanks and of placeholders with blank values. -/
def Blanks (text : String) : Prop := ∀ segment ∈ segments text, scope.BlanksSegment segment

/-- No variable has a blank value. -/
def Solid : Prop := ∀ name value, scope.get? name = some value → Text.trim value ≠ ""

/-- No variable has a colon in its value. -/
def ColonFree : Prop := ∀ name value, scope.get? name = some value → ':' ∉ value.toList

variable {scope}

theorem trim_fillSegment_eq_empty_iff {text : String} {segment : Segment}
    (member : segment ∈ segments text) :
    Text.trim (scope.fillSegment segment) = "" ↔ scope.BlanksSegment segment := by
  cases segment with
  | literal written => rfl
  | placeholder name raw =>
      have notBlank := (isWritten_of_mem_segmentsFrom member).not_blank
      rw [fillSegment, BlanksSegment]
      cases scope.get? name with
      | none => simp [notBlank]
      | some value => simp

/-- A text is blank afterwards exactly if nothing in it is not. -/
theorem trim_fill_eq_empty_iff {text : String} :
    Text.trim (scope.fill text) = "" ↔ scope.Blanks text := by
  rw [fill, Text.trim_join_eq_empty_iff, List.forall_mem_map]
  apply forall_congr'
  intro segment
  apply imp_congr_right
  intro member
  exact trim_fillSegment_eq_empty_iff member

/-- Values that are not blank do not blank a placeholder. -/
theorem Solid.trim_fillSegment (solid : scope.Solid) {segment : Segment}
    (blank : Text.trim (scope.fillSegment segment) = "") : Text.trim segment.text = "" := by
  cases segment with
  | literal written => exact blank
  | placeholder name raw =>
      rw [fillSegment] at blank
      cases bound : scope.get? name with
      | none =>
          rw [bound] at blank
          exact blank
      | some value =>
          rw [bound] at blank
          exact absurd blank (solid name value bound)

theorem Solid.trim_join (solid : scope.Solid) {cut : List Segment}
    (blank : Text.trim (String.join (cut.map scope.fillSegment)) = "") :
    Text.trim (String.join (cut.map Segment.text)) = "" := by
  rw [Text.trim_join_eq_empty_iff, List.forall_mem_map] at blank ⊢
  intro segment member
  exact solid.trim_fillSegment (blank segment member)

theorem Solid.not_blanks (solid : scope.Solid) {text : String} (filled : Text.trim text ≠ "") :
    ¬scope.Blanks text := by
  intro blanks
  rw [← trim_fill_eq_empty_iff, fill] at blanks
  apply filled
  rw [← join_segments text]
  exact solid.trim_join blanks

theorem ColonFree.notMem_fillSegment (colonFree : scope.ColonFree) {segment : Segment}
    (free : ':' ∉ segment.text.toList) : ':' ∉ (scope.fillSegment segment).toList := by
  cases segment with
  | literal written => exact free
  | placeholder name raw =>
      rw [fillSegment]
      cases bound : scope.get? name with
      | none => exact free
      | some value => exact colonFree name value bound

theorem ColonFree.notMem_join (colonFree : scope.ColonFree) {cut : List Segment}
    (free : ':' ∉ segmentChars cut) :
    ':' ∉ (String.join (cut.map scope.fillSegment)).toList := by
  rw [String.toList_join, List.flatMap_map, List.mem_flatMap]
  intro found
  obtain ⟨segment, member, colon⟩ := found
  refine colonFree.notMem_fillSegment (fun inText => free ?_) colon
  exact List.mem_flatMap.mpr ⟨segment, member, inText⟩

/-- A literal next to segments is not blank afterwards if all of it was not before. -/
theorem Solid.trim_join_append (solid : scope.Solid) {cut : List Segment} {literal : String}
    (filled : Text.trim (String.join (cut.map Segment.text) ++ literal) ≠ "") :
    Text.trim (String.join (cut.map scope.fillSegment) ++ literal) ≠ "" := by
  intro blank
  rw [Text.trim_append_eq_empty_iff] at blank
  rw [Ne, Text.trim_append_eq_empty_iff] at filled
  exact filled ⟨solid.trim_join blank.1, blank.2⟩

theorem Solid.trim_append_join (solid : scope.Solid) {cut : List Segment} {literal : String}
    (filled : Text.trim (literal ++ String.join (cut.map Segment.text)) ≠ "") :
    Text.trim (literal ++ String.join (cut.map scope.fillSegment)) ≠ "" := by
  intro blank
  rw [Text.trim_append_eq_empty_iff] at blank
  rw [Ne, Text.trim_append_eq_empty_iff] at filled
  exact filled ⟨blank.1, solid.trim_join blank.2⟩

/-- An entry of `files` stays one if no value is blank and none has a colon. -/
theorem isFileEntry_fill (solid : scope.Solid) (colonFree : scope.ColonFree) {entry : String}
    (formed : IsFileEntry entry) : IsFileEntry (scope.fill entry) := by
  obtain ⟨host, container, rfl, free, hostFilled, containerFilled⟩ := formed
  have foreign : ∀ name raw,
      .placeholder name raw ∈ segments (host ++ ":" ++ container) → ':' ∉ raw.toList :=
    fun name raw member => (isWritten_of_mem_segmentsFrom member).colon_notMem
  have whole : segmentChars (segments (host ++ ":" ++ container)) =
      host.toList ++ ':' :: container.toList := by
    rw [segmentChars_segments]
    simp
  obtain ⟨before, front, back, after, cut, hostChars, containerChars⟩ := exists_cut foreign whole
  have hostEq : host = String.join (before.map Segment.text) ++ front := by
    rw [← String.toList_inj, hostChars, String.toList_append, toList_join_text]
  have containerEq : container = back ++ String.join (after.map Segment.text) := by
    rw [← String.toList_inj, containerChars, String.toList_append, toList_join_text]
  refine ⟨String.join (before.map scope.fillSegment) ++ front,
    back ++ String.join (after.map scope.fillSegment), ?_, ?_, ?_, ?_⟩
  · rw [fill, cut]
    simp [fillSegment, String.append_assoc]
  · rw [hostChars, List.mem_append, not_or] at free
    rw [String.toList_append, List.mem_append, not_or]
    exact ⟨colonFree.notMem_join free.1, free.2⟩
  · rw [hostEq] at hostFilled
    exact solid.trim_join_append hostFilled
  · rw [containerEq] at containerFilled
    exact solid.trim_append_join containerFilled

end Scope

end Template

/-! ## Entities -/

/-- The texts of an image that must not be blank. -/
def Image.requiredTexts (image : Image) : List String := [image.image]

/-- The texts of a package that must not be blank. -/
def Package.requiredTexts (package : Package) : List String :=
  [package.path, package.command] ++ package.apt ++ package.git ++ package.rosinstall.toList ++
    package.ssh ++ package.files

/-- The same text of an image for one robot. -/
def ExpandedImage.requiredTexts (image : ExpandedImage) : List String := [image.image]

/-- The same texts of a package for one robot. -/
def ExpandedPackage.requiredTexts (package : ExpandedPackage) : List String :=
  [package.path, package.command] ++ package.apt ++ package.git ++ package.rosinstall.toList ++
    package.ssh ++ package.files

/-- The texts of everything that a robot runs that must not be blank. -/
def ExpandedRobot.requiredTexts (robot : ExpandedRobot) : List String :=
  robot.images.flatMap ExpandedImage.requiredTexts ++
    robot.packages.flatMap ExpandedPackage.requiredTexts

/-- The same texts as they are declared. -/
def RobotDecl.requiredTexts (doc : Document) (decl : RobotDecl) : List String :=
  (decl.imageDecls doc).flatMap (fun image => image.described.requiredTexts) ++
    (decl.packageDecls doc).flatMap fun package => package.described.requiredTexts

theorem Image.requiredTexts_copyFor (scope : Template.Scope) (robot : Robot) (image : Image) :
    (image.copyFor scope robot).requiredTexts = image.requiredTexts.map scope.fill :=
  rfl

theorem Package.requiredTexts_copyFor (scope : Template.Scope) (robot : Robot)
    (package : Package) :
    (package.copyFor scope robot).requiredTexts = package.requiredTexts.map scope.fill := by
  simp only [copyFor, ExpandedPackage.requiredTexts, requiredTexts, List.map_append,
    Option.toList_map]
  rfl

namespace Document

variable {settings : Settings} {doc : Document}

/-- The texts of a robot are the declared ones with placeholders replaced. -/
theorem requiredTexts_copyOf (areaId : String) (decl : RobotDecl) :
    ((doc.fleet settings).copyOf areaId (decl.placed settings doc)).requiredTexts =
      (decl.requiredTexts doc).map
        ((doc.fleet settings).copyOf areaId (decl.placed settings doc)).scope.fill := by
  simp only [ExpandedRobot.requiredTexts, RobotDecl.requiredTexts, Fleet.copyOf, imagesOf_placed,
    packagesOf_placed, List.map_append, List.map_map, List.flatMap_map, List.map_flatMap,
    Function.comp_apply, Image.requiredTexts_copyFor, Package.requiredTexts_copyFor]

end Document

/-! ## Checked declarations -/

theorem trim_fieldText (value : Option String) : Text.trim (fieldText value) = fieldText value :=
  Text.trim_trim _

theorem trim_of_mem_fieldTexts {entries : Option (List String)} {text : String}
    (member : text ∈ fieldTexts entries) : Text.trim text = text := by
  obtain ⟨written, -, rfl⟩ := List.mem_map.mp member
  exact Text.trim_trim written

theorem ImageDecl.WellFormed.requiredTexts_filled {decl : ImageDecl} (wellFormed : decl.WellFormed) :
    ∀ text ∈ decl.described.requiredTexts, Text.trim text ≠ "" := by
  intro text member
  rw [List.mem_singleton.mp member, described, trim_fieldText]
  exact wellFormed.image_ne

theorem PackageDecl.WellFormed.requiredTexts_filled {decl : PackageDecl}
    (wellFormed : decl.WellFormed) :
    ∀ text ∈ decl.described.requiredTexts, Text.trim text ≠ "" := by
  have entries : ∀ {list : Option (List String)}, (∀ entry ∈ fieldTexts list, entry ≠ "") →
      ∀ text ∈ fieldTexts list, Text.trim text ≠ "" := by
    intro list filled text member
    rw [trim_of_mem_fieldTexts member]
    exact filled text member
  intro text member
  simp only [Package.requiredTexts, described, List.mem_append, List.mem_cons, List.not_mem_nil,
    or_false] at member
  rcases member with (((((rfl | rfl) | apt) | git) | rosinstall) | ssh) | files
  · rw [trim_fieldText]
    exact wellFormed.path_ne
  · rw [trim_fieldText]
    exact wellFormed.command_ne
  · exact entries wellFormed.apt_ne text apt
  · exact entries wellFormed.git_ne text git
  · split at rosinstall
    next => cases rosinstall
    next present =>
      rw [Option.toList_some, List.mem_singleton] at rosinstall
      rw [rosinstall, trim_fieldText]
      exact present
  · exact entries wellFormed.ssh_ne text ssh
  · exact entries wellFormed.files_ne text files

/-- What the sections of a document require of the texts of a robot. -/
theorem Document.SectionsWellFormed.requiredTexts_filled {settings : Settings} {doc : Document}
    (wellFormed : doc.SectionsWellFormed settings) (decl : RobotDecl) :
    ∀ text ∈ decl.requiredTexts doc, Text.trim text ≠ "" := by
  intro text member
  cases List.mem_append.mp member with
  | inl inImages =>
      obtain ⟨image, imageMember, inImage⟩ := List.mem_flatMap.mp inImages
      obtain ⟨name, -, found⟩ := List.mem_filterMap.mp imageMember
      have declared := List.mem_of_find?_eq_some found
      exact (wellFormed.images image declared).requiredTexts_filled text inImage
  | inr inPackages =>
      obtain ⟨package, packageMember, inPackage⟩ := List.mem_flatMap.mp inPackages
      obtain ⟨name, -, found⟩ := List.mem_filterMap.mp packageMember
      have declared := List.mem_of_find?_eq_some found
      exact (wellFormed.packages package declared).requiredTexts_filled text inPackage

/-- What the system binds is never blank, so only the robot can declare a blank value. -/
theorem Template.Scope.solid_ofRobot {areaId : String} {robot : Robot}
    (area : Text.trim areaId ≠ "") (id : Text.trim robot.id ≠ "")
    (distro : Text.trim robot.ros.distro ≠ "")
    (vars : ∀ entry ∈ robot.vars, Text.trim entry.2 ≠ "") : (ofRobot areaId robot).Solid := by
  intro name value bound
  cases mem_of_get?_ofRobot bound with
  | inl declared => exact vars (name, value) declared
  | inr system =>
      simp only [systemVars, List.mem_cons, Prod.mk.injEq, List.not_mem_nil, or_false] at system
      rcases system with ⟨-, rfl⟩ | ⟨-, rfl⟩ | ⟨-, rfl⟩ | ⟨-, rfl⟩ | ⟨-, rfl⟩
      · exact area
      · exact id
      · exact distro
      · exact (Text.trim_repr _).trans_ne Nat.repr_ne_empty
      · exact (Text.trim_repr _).trans_ne Nat.repr_ne_empty

/-! ## Documents -/

/-- What becomes of the texts of a robot that must not be blank. They are blank exactly if they are
made of blank values, and that takes a variable that the robot declares. -/
structure ExpandedRobot.TextsChecked (doc : Document) (decl : RobotDecl) (robot : ExpandedRobot) :
    Prop where
  id_eq : robot.id = decl.name
  texts_eq : robot.requiredTexts = (decl.requiredTexts doc).map robot.scope.fill
  declared : ∀ text ∈ decl.requiredTexts doc, Text.trim text ≠ ""
  blank_iff : ∀ text ∈ decl.requiredTexts doc,
    (Text.trim (robot.scope.fill text) = "" ↔ robot.scope.Blanks text)
  filled : (∀ entry ∈ decl.varTexts, Text.trim entry.2 ≠ "") →
    ∀ text ∈ robot.requiredTexts, Text.trim text ≠ ""
  formed : (∀ entry ∈ decl.varTexts, Text.trim entry.2 ≠ "") → robot.scope.ColonFree →
    ∀ package ∈ robot.packages, ∀ entry ∈ package.files, IsFileEntry entry

namespace Document

variable {settings : Settings} {doc : Document}

theorem SectionsWellFormed.solid (wellFormed : doc.SectionsWellFormed settings)
    {area : AreaDecl} (areaMember : area ∈ doc.areaDecls) {decl : RobotDecl}
    (member : decl ∈ doc.robots) (vars : ∀ entry ∈ decl.varTexts, Text.trim entry.2 ≠ "") :
    (Template.Scope.ofRobot area.name (decl.placed settings doc)).Solid := by
  have robot := wellFormed.robots decl member
  apply Template.Scope.solid_ofRobot
  · rw [AreaDecl.name, trim_fieldText]
    exact (wellFormed.areas area areaMember).name_ne
  · change Text.trim (fieldText decl.id) ≠ ""
    rw [trim_fieldText]
    exact robot.name_ne
  · change Text.trim (Text.trim _) ≠ ""
    rw [Text.trim_trim]
    exact robot.ros.distro_ne
  · exact vars

/-- The entries of a package's copy are those of its declaration with placeholders replaced. -/
theorem SectionsWellFormed.isFileEntry_of_mem (wellFormed : doc.SectionsWellFormed settings)
    {areaId : String} {decl : RobotDecl} {package : ExpandedPackage} {entry : String}
    (packageMember : package ∈
      ((doc.fleet settings).copyOf areaId (decl.placed settings doc)).packages)
    (entryMember : entry ∈ package.files)
    (solid : (Template.Scope.ofRobot areaId (decl.placed settings doc)).Solid)
    (colonFree : (Template.Scope.ofRobot areaId (decl.placed settings doc)).ColonFree) :
    IsFileEntry entry := by
  rw [Fleet.copyOf, packagesOf_placed, List.map_map] at packageMember
  obtain ⟨declared, found, rfl⟩ := List.mem_map.mp packageMember
  obtain ⟨written, writtenMember, rfl⟩ := List.mem_map.mp entryMember
  obtain ⟨name, -, isDecl⟩ := List.mem_filterMap.mp found
  have checked := wellFormed.packages declared (List.mem_of_find?_eq_some isDecl)
  exact Template.Scope.isFileEntry_fill solid colonFree (checked.files_form written writtenMember)

/-- In an expanded document every text that loading has checked is told. -/
theorem textsChecked_of_toExpanded {fleet : ExpandedFleet}
    (expands : (doc.toExpanded settings).outcome = .ok fleet) :
    ∀ robot ∈ fleet.robots, ∃ decl ∈ doc.robots, robot.TextsChecked doc decl := by
  obtain ⟨wellFormed, -, rfl⟩ := toExpanded_eq_ok_iff.mp expands
  intro robot member
  obtain ⟨area, areaMember, decl, declMember, rfl⟩ := exists_decl_of_mem_robots_copy member
  have checked := wellFormed.toSectionsWellFormed
  have declared := checked.requiredTexts_filled decl
  have solid := checked.solid areaMember declMember
  refine ⟨decl, declMember, ?_⟩
  exact {
    id_eq := rfl
    texts_eq := requiredTexts_copyOf area.name decl
    declared
    blank_iff := fun text _ => Template.Scope.trim_fill_eq_empty_iff
    filled := by
      intro vars text textMember
      rw [requiredTexts_copyOf] at textMember
      obtain ⟨written, writtenMember, rfl⟩ := List.mem_map.mp textMember
      rw [Ne, Template.Scope.trim_fill_eq_empty_iff]
      exact (solid vars).not_blanks (declared written writtenMember)
    formed := by
      intro vars colonFree package packageMember entry entryMember
      exact checked.isFileEntry_of_mem packageMember entryMember (solid vars) colonFree }

/-- The sample document has placeholders in the command and the key of its package. -/
theorem sample_textsChecked :
    ∃ fleet, (sample.toExpanded .standard).outcome = .ok fleet ∧
      fleet.robots.map ExpandedRobot.requiredTexts =
        [["camera:1"],
          ["camera:1", "src/driver", "drive scout", "git", "keys/scout",
            "config/map.yaml:/etc/map.yaml"],
          ["src/driver", "drive guide", "git", "keys/guide", "config/map.yaml:/etc/map.yaml"]] ∧
      ∀ robot ∈ fleet.robots, ∃ decl ∈ sample.robots, robot.TextsChecked sample decl := by
  have ran : ((sample.toExpanded .standard).outcome.toOption.map fun fleet =>
      fleet.robots.map ExpandedRobot.requiredTexts) =
        some [["camera:1"],
          ["camera:1", "src/driver", "drive scout", "git", "keys/scout",
            "config/map.yaml:/etc/map.yaml"],
          ["src/driver", "drive guide", "git", "keys/guide",
            "config/map.yaml:/etc/map.yaml"]] := by
    decide +kernel
  obtain ⟨fleet, expands, texts⟩ := exists_ok_of_map_eq_some ran
  exact ⟨fleet, expands, texts, textsChecked_of_toExpanded expands⟩

/-- An image whose reference is a variable, and a robot that gives it no text. -/
def blankVariable : Document where
  areas := some [⟨some "yard", some ["carrier"]⟩]
  robots := [⟨some "carrier", some "humble", some ["camera"], none,
    some (.map (.ofList [("TYPE", .string "")])), .empty⟩]
  images := [⟨some "camera", some "\x7b\x7bTYPE\x7d\x7d", .empty⟩]
  packages := []
  globals := []

/-- A text that loading has checked can be blank afterwards. -/
theorem not_forall_filled :
    ¬∀ (settings : Settings) (doc : Document) (fleet : ExpandedFleet),
      (doc.toExpanded settings).outcome = .ok fleet →
        ∀ robot ∈ fleet.robots, ∀ text ∈ robot.requiredTexts, Text.trim text ≠ "" := by
  intro always
  have ran : ((blankVariable.toExpanded .standard).outcome.toOption.map fun fleet =>
      fleet.robots.flatMap ExpandedRobot.requiredTexts) = some [""] := by
    decide +kernel
  obtain ⟨fleet, expands, texts⟩ := exists_ok_of_map_eq_some ran
  have blank : "" ∈ fleet.robots.flatMap ExpandedRobot.requiredTexts := by
    rw [texts]
    exact List.mem_singleton_self ""
  obtain ⟨robot, member, inRobot⟩ := List.mem_flatMap.mp blank
  exact always .standard blankVariable fleet expands robot member "" inRobot Text.trim_empty

end Document

end FleetCompose
