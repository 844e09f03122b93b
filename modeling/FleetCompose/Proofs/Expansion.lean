import FleetCompose.Fleet.Expanded
import FleetCompose.Proofs.Positions
import FleetCompose.Proofs.ReportedPlaces

/-!
# Expansion of loaded fleets

Expanding a fleet visits the texts of all robots, robot by robot, and what it makes of them
are copies. The texts and the copies are listed here entity by entity; the traversal fails
with the first placeholder without a value in the list, or else it returns the copies. Of the
placeholders that the grammar allows, only those behind paired braces count in this.
-/

namespace FleetCompose

open Template

/-! ## Texts of entities -/

/-- The texts of an image in which placeholders are replaced, in the order in which they are
visited. -/
def Image.texts (image : Image) : List (Position × String) :=
  textField "image" image.image ++ passedTexts image.extra

/-- The texts of a package in which placeholders are replaced. -/
def Package.texts (package : Package) : List (Position × String) :=
  textField "path" package.path ++ textField "command" package.command ++
    listField "apt" package.apt ++ listField "git" package.git ++
    package.rosinstall.toList.flatMap (textField "rosinstall") ++
    listField "ssh" package.ssh ++ listField "files" package.files ++ passedTexts package.extra

/-- A text of an entity, with the robot for which it is expanded and the variables of that
robot. -/
structure ExpandableText where
  kind : EntityKind
  id : String
  robot : String
  scope : Scope
  position : Position
  text : String

/-- The placeholders without a value that the text is cut at, from the left. -/
def ExpandableText.misfits (text : ExpandableText) : List ExpansionError :=
  (text.scope.unbound text.text).map fun unresolved =>
    ⟨text.kind, text.id, text.robot, ⟨text.position, unresolved⟩⟩

/-- Every placeholder of the text that counts has a value. -/
def ExpandableText.Bound (counts : String → Prop) (text : ExpandableText) : Prop :=
  text.scope.Binds counts text.text

namespace Fleet

/-- The texts of an entity, for a robot. -/
def textsFor (scope : Scope) (robot : Robot) (kind : EntityKind) (id : String)
    (texts : List (Position × String)) : List ExpandableText :=
  texts.map fun (position, text) => ⟨kind, id, robot.id, scope, position, text⟩

/-- The texts that are expanded for a robot: its own, those of its images and those of its
packages. -/
def textsOf (fleet : Fleet) (areaId : String) (robot : Robot) : List ExpandableText :=
  let scope := Scope.ofRobot areaId robot
  textsFor scope robot .robot robot.id (passedTexts robot.extra) ++
    (fleet.imagesOf robot).flatMap (fun image =>
      textsFor scope robot .image image.id image.texts) ++
    (fleet.packagesOf robot).flatMap fun package =>
      textsFor scope robot .package package.id package.texts

/-- The texts of the fleet, area by area and robot by robot. -/
def texts (fleet : Fleet) : List ExpandableText :=
  fleet.areas.flatMap fun area => (fleet.robotsOf area).flatMap (fleet.textsOf area.id)

/-- The placeholders without a value that texts of the fleet are cut at, in the order in which they
are met. -/
def misfits (fleet : Fleet) : List ExpansionError :=
  fleet.texts.flatMap ExpandableText.misfits

/-- The failure names the first text of the fleet that has a placeholder without a value, and of the
placeholders in it the leftmost one without. Those that do not count are passed over. -/
def Reports (counts : String → Prop) (fleet : Fleet) (error : ExpansionError) : Prop :=
  ∃ before text after, fleet.texts = before ++ text :: after ∧
    (∀ earlier ∈ before, earlier.Bound counts) ∧
    ∃ unresolved, text.scope.FirstUnbound counts text.text unresolved ∧
      error = ⟨text.kind, text.id, text.robot, ⟨text.position, unresolved⟩⟩

end Fleet

/-! ## Copies of entities -/

/-- The image as a robot runs it. -/
def Image.copyFor (scope : Scope) (robot : Robot) (image : Image) : ExpandedImage where
  id := image.id
  service := instanceService robot.id image.id
  image := scope.fill image.image
  extra := image.extra.map (mapValue scope.fill)

/-- The package as a robot runs it. -/
def Package.copyFor (scope : Scope) (robot : Robot) (package : Package) : ExpandedPackage where
  id := package.id
  service := instanceService robot.id package.id
  path := scope.fill package.path
  command := scope.fill package.command
  apt := package.apt.map scope.fill
  git := package.git.map scope.fill
  rosinstall := package.rosinstall.map scope.fill
  ssh := package.ssh.map scope.fill
  files := package.files.map scope.fill
  extra := package.extra.map (mapValue scope.fill)

namespace Fleet

/-- The robot with copies of what it runs. -/
def copyOf (fleet : Fleet) (areaId : String) (robot : Robot) : ExpandedRobot :=
  let scope := Scope.ofRobot areaId robot
  { id := robot.id
    areaId
    ros := robot.ros
    scope
    extra := robot.extra.map (mapValue scope.fill)
    images := (fleet.imagesOf robot).map (Image.copyFor scope robot)
    packages := (fleet.packagesOf robot).map (Package.copyFor scope robot) }

/-- The fleet with copies of what its robots run. -/
def copy (fleet : Fleet) : ExpandedFleet where
  areas := fleet.areas.map fun area =>
    ⟨area.id, (fleet.robotsOf area).map (fleet.copyOf area.id)⟩
  globals := fleet.globals

/-! ## The traversal -/

theorem misfits_textsFor (scope : Scope) (robot : Robot) (kind : EntityKind) (id : String)
    (texts : List (Position × String)) :
    (textsFor scope robot kind id texts).flatMap ExpandableText.misfits =
      (Template.misfits scope MisfitAt.mk texts).map (⟨kind, id, robot.id, ·⟩) := by
  rw [textsFor, List.flatMap_map, Template.misfits, List.map_flatMap]
  congr 1
  funext entry
  rw [List.map_map]
  rfl

theorem expandImage_eq (scope : Scope) (robot : Robot) (image : Image) :
    expandImage scope robot image =
      verdict ((textsFor scope robot .image image.id image.texts).flatMap
        ExpandableText.misfits) (image.copyFor scope robot) := by
  rw [misfits_textsFor, Image.texts, misfits_append, ← mapError_verdict, expandImage]
  simp only [expandTextField_eq, expandFields_eq, pure_eq_verdict, verdict_bind, List.append_nil]
  rfl

theorem expandOptional_eq (scope : Scope) (field : String) (text : Option String) :
    expandPackage.expandOptional scope field text =
      verdict (Template.misfits scope MisfitAt.mk (text.toList.flatMap (textField field)))
        (text.map scope.fill) := by
  cases text with
  | none => rfl
  | some text =>
      rw [expandPackage.expandOptional, expandTextField_eq, map_verdict, Option.toList_some,
        List.flatMap_singleton, Option.map_some]

theorem expandPackage_eq (scope : Scope) (robot : Robot) (package : Package) :
    expandPackage scope robot package =
      verdict ((textsFor scope robot .package package.id package.texts).flatMap
        ExpandableText.misfits) (package.copyFor scope robot) := by
  rw [misfits_textsFor, Package.texts, ← mapError_verdict, expandPackage]
  simp only [misfits_append, expandTextField_eq, expandListField_eq, expandOptional_eq,
    expandFields_eq, pure_eq_verdict, verdict_bind, List.append_nil, List.append_assoc]
  rfl

theorem expandRobot_eq (fleet : Fleet) (areaId : String) (robot : Robot) :
    fleet.expandRobot areaId robot =
      verdict ((fleet.textsOf areaId robot).flatMap ExpandableText.misfits)
        (fleet.copyOf areaId robot) := by
  have images := traverse_eq_verdict (fleet.imagesOf robot)
    fun image _ => expandImage_eq (Scope.ofRobot areaId robot) robot image
  have packages := traverse_eq_verdict (fleet.packagesOf robot)
    fun package _ => expandPackage_eq (Scope.ofRobot areaId robot) robot package
  -- Binding verdicts appends their misfits, which leaves both sides to be reassociated.
  rw [expandRobot]
  simp only [expandFields_eq, mapError_verdict, images, packages, pure_eq_verdict, verdict_bind,
    ← misfits_textsFor, List.append_nil]
  rw [textsOf, List.flatMap_append, List.flatMap_append, List.flatMap_assoc, List.flatMap_assoc,
    List.append_assoc]
  rfl

theorem outcome_expandRobots (fleet : Fleet) (areaId : String) (robots : List Robot) :
    (fleet.expandRobots areaId robots).outcome =
      verdict ((robots.flatMap (fleet.textsOf areaId)).flatMap ExpandableText.misfits)
        (robots.map (fleet.copyOf areaId)) := by
  induction robots with
  | nil => rfl
  | cons robot rest ih =>
      simp only [expandRobots, Logged.outcome_bind, Logged.outcome_ofExcept,
        Logged.outcome_tell, Logged.outcome_pure, ih, expandRobot_eq, except_bind,
        ok_eq_verdict, verdict_bind, List.append_nil, List.nil_append, List.flatMap_cons,
        List.flatMap_append, List.map_cons]

theorem outcome_expandAreas (fleet : Fleet) (areas : List Area) :
    (fleet.expandAreas areas).outcome =
      verdict
        ((areas.flatMap fun area => (fleet.robotsOf area).flatMap (fleet.textsOf area.id)).flatMap
          ExpandableText.misfits)
        (areas.map fun area => ⟨area.id, (fleet.robotsOf area).map (fleet.copyOf area.id)⟩) := by
  induction areas with
  | nil => rfl
  | cons area rest ih =>
      simp only [expandAreas, Logged.outcome_bind, Logged.outcome_pure, ih, outcome_expandRobots,
        except_bind, ok_eq_verdict, verdict_bind, List.append_nil, List.flatMap_cons,
        List.flatMap_append, List.map_cons]

/-- Expanding a fleet fails with the first placeholder without a value, or else it copies. -/
theorem outcome_expand (fleet : Fleet) :
    fleet.expand.outcome = verdict fleet.misfits fleet.copy := by
  simp only [expand, Logged.outcome_bind, Logged.outcome_tell, Logged.outcome_pure,
    outcome_expandAreas, except_bind, ok_eq_verdict, verdict_bind, List.append_nil]
  rfl

end Fleet

/-! ## What an expanded fleet has in common with its fleet -/

/-- Copies of the elements at the given positions, in the order of the positions. -/
def CopiesAt {α β : Type} (items : List α) (Copies : α → β → Prop) : List Nat → List β → Prop :=
  List.Forall₂ fun position copy => ∃ item, items[position]? = some item ∧ Copies item copy

/-- An image that is expanded for a robot with a scope. -/
structure Image.CopiedAs (counts : String → Prop) (scope : Scope) (robot : Robot) (image : Image)
    (copy : ExpandedImage) : Prop where
  id_eq : copy.id = image.id
  service_eq : copy.service = instanceService robot.id image.id
  fills : scope.Fills counts image.image copy.image
  extra : image.extra.Expands (scope.Fills counts) copy.extra

/-- A package that is expanded for a robot with a scope. -/
structure Package.CopiedAs (counts : String → Prop) (scope : Scope) (robot : Robot)
    (package : Package) (copy : ExpandedPackage) : Prop where
  id_eq : copy.id = package.id
  service_eq : copy.service = instanceService robot.id package.id
  path : scope.Fills counts package.path copy.path
  command : scope.Fills counts package.command copy.command
  apt : List.Forall₂ (scope.Fills counts) package.apt copy.apt
  git : List.Forall₂ (scope.Fills counts) package.git copy.git
  rosinstall : Option.Rel (scope.Fills counts) package.rosinstall copy.rosinstall
  ssh : List.Forall₂ (scope.Fills counts) package.ssh copy.ssh
  files : List.Forall₂ (scope.Fills counts) package.files copy.files
  extra : package.extra.Expands (scope.Fills counts) copy.extra

/-- A robot that is expanded: what has no placeholders is the same, and it has one copy of
every image and package that it refers to. -/
structure Robot.CopiedAs (counts : String → Prop) (fleet : Fleet) (areaId : String) (robot : Robot)
    (copy : ExpandedRobot) : Prop where
  id_eq : copy.id = robot.id
  areaId_eq : copy.areaId = areaId
  ros_eq : copy.ros = robot.ros
  scope_eq : copy.scope = Scope.ofRobot areaId robot
  extra : robot.extra.Expands (copy.scope.Fills counts) copy.extra
  images : CopiesAt fleet.images (Image.CopiedAs counts copy.scope robot) robot.images copy.images
  packages : CopiesAt fleet.packages (Package.CopiedAs counts copy.scope robot)
    robot.packages copy.packages

/-- An area that is expanded. -/
structure Area.CopiedAs (counts : String → Prop) (fleet : Fleet) (area : Area)
    (copy : ExpandedArea) : Prop where
  id_eq : copy.id = area.id
  robots : CopiesAt fleet.robots (Robot.CopiedAs counts fleet area.id) area.robots copy.robots

/-- A fleet that is expanded. -/
structure Fleet.CopiedAs (counts : String → Prop) (fleet : Fleet) (copy : ExpandedFleet) :
    Prop where
  areas : List.Forall₂ (Area.CopiedAs counts fleet) fleet.areas copy.areas
  globals_eq : copy.globals = fleet.globals

/-- Copies of what is picked stand at the positions, if all positions are found. -/
theorem copiesAt_map {α β : Type} {items picked : List α} {Copies : α → β → Prop}
    {image : α → β} {positions : List Nat}
    (found : positions.map (items[·]?) = picked.map some)
    (copies : ∀ item ∈ picked, Copies item (image item)) :
    CopiesAt items Copies positions (picked.map image) := by
  induction positions generalizing picked with
  | nil =>
      cases picked with
      | nil => exact List.Forall₂.nil
      | cons item rest => cases found
  | cons position positions ih =>
      cases picked with
      | nil => cases found
      | cons item rest =>
          rw [List.map_cons, List.map_cons, List.cons.injEq] at found
          refine List.Forall₂.cons ⟨item, found.1, copies item (by simp)⟩ ?_
          exact ih found.2 fun other member => copies other (by simp [member])

/-! ## Copies of bound texts -/

section Bound

variable {scope : Scope} {robot : Robot}

theorem forall₂_map_fill {texts : List String} (bound : ∀ text ∈ texts, scope.Binds Counts text) :
    List.Forall₂ (scope.Fills Counts) texts (texts.map scope.fill) := by
  rw [List.forall₂_map_right_iff, List.forall₂_same]
  exact fun text member => (bound text member).fills_fill

theorem forall_mem_listField {field : String} {texts : List String} {P : String → Prop} :
    (∀ leaf ∈ listField field texts, P leaf.2) ↔ ∀ text ∈ texts, P text := by
  have plain : (listField field texts).map Prod.snd = texts := by
    simp [listField, inField, listTexts, Function.comp_def, List.zipIdx_map_fst]
  rw [← plain, List.forall_mem_map, plain]

theorem forall_mem_textField {field text : String} {P : String → Prop} :
    (∀ leaf ∈ textField field text, P leaf.2) ↔ P text := by
  simp [textField]

theorem Image.copiedAs_copyFor {image : Image}
    (bound : ∀ leaf ∈ image.texts, scope.Binds Counts leaf.2) :
    image.CopiedAs Counts scope robot (image.copyFor scope robot) := by
  rw [texts, List.forall_mem_append, forall_mem_textField] at bound
  exact ⟨rfl, rfl, bound.1.fills_fill, expands_fill bound.2⟩

theorem Package.copiedAs_copyFor {package : Package}
    (bound : ∀ leaf ∈ package.texts, scope.Binds Counts leaf.2) :
    package.CopiedAs Counts scope robot (package.copyFor scope robot) := by
  simp only [texts, List.forall_mem_append, forall_mem_textField, forall_mem_listField] at bound
  obtain ⟨⟨⟨⟨⟨⟨⟨path, command⟩, apt⟩, git⟩, rosinstall⟩, ssh⟩, files⟩, extra⟩ := bound
  refine ⟨rfl, rfl, path.fills_fill, command.fills_fill, forall₂_map_fill apt,
    forall₂_map_fill git, ?_, forall₂_map_fill ssh, forall₂_map_fill files, expands_fill extra⟩
  rw [copyFor]
  cases optional : package.rosinstall with
  | none => exact .none
  | some text =>
      rw [optional, Option.toList_some, List.flatMap_singleton, forall_mem_textField] at rosinstall
      exact .some rosinstall.fills_fill

end Bound

namespace Fleet

theorem mem_of_mem_robotsOf {fleet : Fleet} {area : Area} {robot : Robot}
    (member : robot ∈ fleet.robotsOf area) : robot ∈ fleet.robots := by
  rcases List.mem_filterMap.mp member with ⟨position, -, found⟩
  exact List.mem_of_getElem? found

theorem forall_mem_textsFor {scope : Scope} {robot : Robot} {kind : EntityKind} {id : String}
    {texts : List (Position × String)} {counts : String → Prop} :
    (∀ text ∈ textsFor scope robot kind id texts, text.Bound counts) ↔
      ∀ leaf ∈ texts, scope.Binds counts leaf.2 := by
  rw [textsFor, List.forall_mem_map]
  rfl

theorem LookupsSucceed.copiedAs_copyOf {fleet : Fleet} (lookups : fleet.LookupsSucceed)
    {areaId : String} {robot : Robot} (member : robot ∈ fleet.robots)
    (bound : ∀ text ∈ fleet.textsOf areaId robot, text.Bound Counts) :
    robot.CopiedAs Counts fleet areaId (fleet.copyOf areaId robot) := by
  rw [textsOf, List.forall_mem_append, List.forall_mem_append, forall_mem_textsFor,
    List.forall_mem_flatMap, List.forall_mem_flatMap] at bound
  obtain ⟨⟨extra, images⟩, packages⟩ := bound
  refine ⟨rfl, rfl, rfl, rfl, expands_fill extra, ?_, ?_⟩
  · apply copiesAt_map (lookups.images_of_robot robot member)
    exact fun image picked => image.copiedAs_copyFor (forall_mem_textsFor.mp (images image picked))
  · apply copiesAt_map (lookups.packages_of_robot robot member)
    exact fun package picked =>
      package.copiedAs_copyFor (forall_mem_textsFor.mp (packages package picked))

/-- Nothing gets lost when a fleet is copied in which all look-ups succeed. -/
theorem LookupsSucceed.copiedAs_copy {fleet : Fleet} (lookups : fleet.LookupsSucceed)
    (bound : ∀ text ∈ fleet.texts, text.Bound Counts) : fleet.CopiedAs Counts fleet.copy where
  areas := by
    rw [copy, List.forall₂_map_right_iff, List.forall₂_same]
    intro area areaMember
    refine ⟨rfl, copiesAt_map (lookups.robots_of_area area areaMember) ?_⟩
    intro robot member
    apply lookups.copiedAs_copyOf (mem_of_mem_robotsOf member)
    intro text inRobot
    exact bound text
      (List.mem_flatMap.mpr ⟨area, areaMember, List.mem_flatMap.mpr ⟨robot, member, inRobot⟩⟩)
  globals_eq := rfl

/-! ## Outcomes -/

theorem misfits_eq_nil_iff {fleet : Fleet} :
    fleet.misfits = [] ↔ ∀ text ∈ fleet.texts, text.Bound Counts := by
  simp only [misfits, List.flatMap_eq_nil_iff, ExpandableText.misfits, map_unbound_eq_nil_iff,
    ExpandableText.Bound]

theorem head?_misfits_eq_some_iff {fleet : Fleet} {error : ExpansionError} :
    fleet.misfits.head? = some error ↔ fleet.Reports Counts error := by
  rw [misfits, head?_flatMap_eq_some_iff]
  simp only [ExpandableText.misfits, map_unbound_eq_nil_iff, head?_map_unbound_eq_some_iff, Reports,
    ExpandableText.Bound, eq_comm (b := error)]

end Fleet

/-- A loaded fleet is expanded exactly if every placeholder behind paired braces, in every text of
its robots, has a value among the variables of the robot. Then the robots, images and packages are
copied with their texts filled, and otherwise the failure is the first such placeholder without a
value. -/
theorem Document.expand_loaded_fleet {settings : Settings} {doc : Document} {fleet : Fleet}
    (loaded : (loadFleet settings doc).outcome = .ok fleet) :
    ((∃ expanded, fleet.expand.outcome = .ok expanded) ↔
        ∀ text ∈ fleet.texts, text.Bound Counts) ∧
      (∀ expanded, fleet.expand.outcome = .ok expanded → fleet.CopiedAs Counts expanded) ∧
      (∀ error, fleet.expand.outcome = .error error ↔ fleet.Reports Counts error) := by
  rcases loadFleet_eq_ok_iff.mp loaded with ⟨wellFormed, rfl⟩
  rw [Fleet.outcome_expand]
  refine ⟨?_, ?_, ?_⟩
  · simp only [verdict_eq_ok_iff, Fleet.misfits_eq_nil_iff, exists_and_left, exists_eq, and_true]
  · intro expanded succeeded
    obtain ⟨none, rfl⟩ := verdict_eq_ok_iff.mp succeeded
    exact wellFormed.inRange.lookupsSucceed.copiedAs_copy (Fleet.misfits_eq_nil_iff.mp none)
  · intro error
    rw [verdict_eq_error_iff, Fleet.head?_misfits_eq_some_iff]

namespace Document

/-- A robot with a note. -/
def noted (note : String) : Document where
  areas := some [⟨some "yard", some ["carrier"]⟩]
  robots := [
    ⟨some "carrier", some "humble", some ["camera"], none, none,
      .ofList [("note", .string note)]⟩]
  images := [⟨some "camera", some "camera:1", .empty⟩]
  packages := []
  globals := []

theorem loadFleet_noted {note : String}
    (loads : (loadFleet .standard (noted note)).outcome.toOption.isSome = true) :
    (loadFleet .standard (noted note)).outcome = .ok ((noted note).fleet .standard) := by
  obtain ⟨fleet, loaded⟩ := exists_ok_of_isSome loads
  obtain rfl := (loadFleet_eq_ok_iff.mp loaded).2
  exact loaded

/-- The package of the sample document is copied for its two robots, and a note is refused for want
of a variable. -/
theorem sample_expanded :
    let zoned := (noted "\x7b\x7bAREA_ID\x7d\x7d, \x7b\x7bZONE\x7d\x7d").fleet .standard
    let error : ExpansionError := ⟨.robot, "carrier", "carrier",
      ⟨⟨"note", []⟩, ⟨"ZONE", "\x7b\x7bZONE\x7d\x7d"⟩⟩⟩
    (∃ fleet expanded, (loadFleet .standard sample).outcome = .ok fleet ∧
      fleet.expand.outcome = .ok expanded ∧
      (expanded.robots.flatMap ExpandedRobot.packages).map (fun package =>
        (package.service, package.command, package.ssh)) =
          [("scout-driver", "drive scout", ["keys/scout"]),
            ("guide-driver", "drive guide", ["keys/guide"])] ∧
      (∀ text ∈ fleet.texts, text.Bound Counts) ∧ fleet.CopiedAs Counts expanded) ∧
    zoned.expand.outcome = .error error ∧ zoned.Reports Counts error := by
  intro zoned error
  constructor
  · have ran : ((loadFleet .standard sample).outcome.toOption.bind fun fleet =>
        fleet.expand.outcome.toOption.map fun expanded =>
          (expanded.robots.flatMap ExpandedRobot.packages).map fun package =>
            (package.service, package.command, package.ssh)) =
        some [("scout-driver", "drive scout", ["keys/scout"]),
          ("guide-driver", "drive guide", ["keys/guide"])] := by
      decide +kernel
    rcases exists_loadFleet_sample with ⟨fleet, loaded⟩
    rw [loaded] at ran
    obtain ⟨expanded, expands, view⟩ := exists_ok_of_map_eq_some ran
    obtain ⟨bound, copied, -⟩ := expand_loaded_fleet loaded
    exact ⟨fleet, expanded, loaded, expands, view, bound.mp ⟨expanded, expands⟩,
      copied expanded expands⟩
  · have failed : zoned.expand.outcome = .error error := rfl
    have loaded : (loadFleet .standard (noted
        "\x7b\x7bAREA_ID\x7d\x7d, \x7b\x7bZONE\x7d\x7d")).outcome = .ok zoned :=
      loadFleet_noted (by decide +kernel)
    exact ⟨failed, ((expand_loaded_fleet loaded).2.2 error).mp failed⟩

/-- A placeholder behind a stray brace needs no value, and a fleet is expanded without it. -/
theorem not_forall_expanded :
    ¬∀ (settings : Settings) (doc : Document) (fleet : Fleet),
      (loadFleet settings doc).outcome = .ok fleet →
        ((∃ expanded, fleet.expand.outcome = .ok expanded) ↔
          ∀ text ∈ fleet.texts, text.Bound fun _ => True) := by
  intro always
  have loaded : (loadFleet .standard (noted "\x7b\x7b\x7bZONE\x7d\x7d")).outcome = .ok _ :=
    loadFleet_noted (by decide +kernel)
  have bound := (always _ _ _ loaded).mp ⟨_, rfl⟩
  have texts : ((noted "\x7b\x7b\x7bZONE\x7d\x7d").fleet .standard).texts.map
      (fun text => (text.text, text.scope.contains "ZONE")) =
        [("\x7b\x7b\x7bZONE\x7d\x7d", false), ("camera:1", false)] := by
    decide +kernel
  obtain ⟨text, member, view⟩ := List.mem_map.mp (texts ▸ List.mem_cons_self)
  obtain ⟨written, missing⟩ := Prod.mk.inj view
  have stray : PlaceholderAt (fun _ => True) text.text "\x7b" "ZONE" "\x7b\x7bZONE\x7d\x7d" := by
    rw [written]
    exact ⟨⟨"", by decide⟩, ⟨[], [], rfl, rfl, by decide, by decide⟩, trivial⟩
  rw [bound text member _ _ _ stray] at missing
  cases missing

end Document

end FleetCompose
