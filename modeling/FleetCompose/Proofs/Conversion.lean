import FleetCompose.Compose.Model
import FleetCompose.Proofs.Expansion
import FleetCompose.Proofs.Segments

/-!
# Conversion of loaded fleets

The last step from a document to its model can still fail: the host files of a package are
copied into one directory under their last path components, and these must be names, and
distinct ones. The loader looks at the texts before placeholders are replaced and does not
ask whether a component is a name. This module states exactly when the conversion succeeds.
-/

namespace FleetCompose

/-! ## Host files -/

/-- The path ends in the name of a file. -/
def NamesFile (path : String) : Prop :=
  Text.finalComponent path ≠ "" ∧ Text.finalComponent path ≠ "." ∧
    Text.finalComponent path ≠ ".."

/-- Paths that can be copied into one directory. -/
structure Copyable (paths : List String) : Prop where
  namesFile : ∀ path ∈ paths, NamesFile path
  nodup : (paths.map Text.finalComponent).Nodup

/-- The host path of an entry `HOST:CONTAINER`. -/
def hostPath (entry : String) : String := Text.trim (Text.beforeFirst ':' entry)

theorem hostPath_of_splitFirst {entry host container : String}
    (parts : Text.splitFirst ':' entry = some (host, container)) :
    hostPath entry = Text.trim host := by
  rw [hostPath, Text.beforeFirst_of_splitFirst parts]

/-- The host files of a package can be copied into its build directory. -/
structure ExpandedPackage.HostFilesCopyable (package : ExpandedPackage) : Prop where
  rosinstall : ∀ path ∈ package.rosinstall, NamesFile path
  ssh : Copyable package.ssh
  files : Copyable (package.files.map hostPath)

namespace PackageBuild

theorem fileName_eq_ok_iff {path name : String} :
    fileName path = .ok name ↔ NamesFile path ∧ name = Text.finalComponent path := by
  rw [fileName, NamesFile, Text.afterLast_dropTrailingSlashes]
  generalize Text.finalComponent path = component
  by_cases empty : component = ""
  · simp [empty]
  · by_cases here : component = "."
    · simp [here]
    · by_cases above : component = ".."
      · simp [above]
      · simpa [empty, here, above] using eq_comm

/-- Taking a name succeeds exactly if the path has one that is free. -/
theorem map_claimName_eq_ok_iff {α : Type} {taken : List String} {path : String}
    {make : String → α} {answer : α} :
    (claimName taken path).map make = .ok answer ↔
      (NamesFile path ∧ answer = make (Text.finalComponent path)) ∧
        Text.finalComponent path ∉ taken := by
  simp only [claimName, map_eq_ok_iff, bind_eq_ok_iff, fileName_eq_ok_iff, refuse_eq_ok_iff,
    pure_eq_ok_iff]
  constructor
  · intro given
    rcases given with ⟨_, ⟨name, ⟨named, rfl⟩, free, rfl⟩, rfl⟩
    exact ⟨⟨named, rfl⟩, free⟩
  · intro given
    rcases given with ⟨⟨named, rfl⟩, free⟩
    exact ⟨_, ⟨_, ⟨named, rfl⟩, free, rfl⟩, rfl⟩

theorem keyFile_reads :
    StepReads keyFile (fun path key => NamesFile path ∧ key = ⟨path, Text.finalComponent path⟩)
      (fun earlier later => earlier.name ≠ later.name) := by
  refine .of_fresh KeyFile.name fun accepted path key => ?_
  rw [keyFile, map_claimName_eq_ok_iff]
  refine and_congr_right fun read => ?_
  rw [read.2]

/-- The file of an entry with a colon. -/
def described (entry : String) : BundledFile where
  source := hostPath entry
  name := Text.finalComponent (hostPath entry)
  container := Text.trim (((Text.splitFirst ':' entry).map Prod.snd).getD "")

theorem bundledFile_reads :
    StepReads bundledFile
      (fun entry file => (':' ∈ entry.toList ∧ NamesFile (hostPath entry)) ∧
        file = described entry)
      (fun earlier later => earlier.name ≠ later.name) := by
  refine .of_fresh BundledFile.name fun accepted entry file => ?_
  rw [bundledFile]
  cases parts : Text.splitFirst ':' entry with
  | none =>
      have missing := Text.splitFirst_eq_none_iff.mp parts
      simp [missing]
  | some pair =>
      have colon : ':' ∈ entry.toList := Text.mem_of_splitFirst parts
      have host : Text.trim pair.1 = hostPath entry := (hostPath_of_splitFirst parts).symm
      simp only [map_claimName_eq_ok_iff, host, colon, true_and, described, parts]
      refine and_congr_right fun read => ?_
      rw [read.2]

/-- Read the field `rosinstall`. -/
def rosinstallFile : Option String → Except BuildIssue (Option KeyFile)
  | none => .ok none
  | some path => (fileName path).map fun name => some ⟨path, name⟩

theorem rosinstallFile_eq_ok_iff {field : Option String} {file : Option KeyFile} :
    rosinstallFile field = .ok file ↔
      (∀ path ∈ field, NamesFile path) ∧
        file = field.map fun path => ⟨path, Text.finalComponent path⟩ := by
  cases field with
  | none => simp [rosinstallFile, eq_comm]
  | some path =>
      simp only [rosinstallFile, map_eq_ok_iff, fileName_eq_ok_iff, Option.mem_def,
        Option.some.injEq, forall_eq', Option.map_some]
      constructor
      · intro given
        rcases given with ⟨name, ⟨named, rfl⟩, rfl⟩
        exact ⟨named, rfl⟩
      · intro given
        rcases given with ⟨named, rfl⟩
        exact ⟨_, ⟨named, rfl⟩, rfl⟩

/-- The three kinds of host files are read one after the other. -/
theorem ofPackage_eq (robot : ExpandedRobot) (package : ExpandedPackage) (workspace : String) :
    ofPackage robot package workspace =
      Except.mapError (⟨package.service, ·⟩) (do
        let rosinstall ← rosinstallFile package.rosinstall
        let keys ← accumulate keyFile [] package.ssh
        let files ← accumulate bundledFile [] package.files
        return assemble robot package workspace rosinstall keys files) := by
  rw [ofPackage]
  cases package.rosinstall <;> rfl

/-- A key file or rosinstall file, under the last component of its path. -/
def namedFile (path : String) : KeyFile := ⟨path, Text.finalComponent path⟩

/-- The build of a package whose host files can be copied. -/
def built (robot : ExpandedRobot) (package : ExpandedPackage) (workspace : String) :
    PackageBuild :=
  assemble robot package workspace (package.rosinstall.map namedFile)
    (package.ssh.map namedFile) (package.files.map described)

/-- A package is built exactly if its file entries have colons and its host files can be
copied. -/
theorem ofPackage_eq_ok_iff {robot : ExpandedRobot} {package : ExpandedPackage}
    {workspace : String} {build : PackageBuild} :
    ofPackage robot package workspace = .ok build ↔
      ((∀ entry ∈ package.files, ':' ∈ entry.toList) ∧ package.HostFilesCopyable) ∧
        build = built robot package workspace := by
  simp only [ofPackage_eq, mapError_eq_ok_iff, bind_eq_ok_iff, pure_eq_ok_iff,
    rosinstallFile_eq_ok_iff, keyFile_reads.keyed_eq_ok_iff KeyFile.name,
    bundledFile_reads.keyed_eq_ok_iff BundledFile.name]
  constructor
  · intro given
    rcases given with ⟨rosinstall, ⟨rosinstallNamed, rfl⟩, keys, ⟨keysNamed, keysNodup, rfl⟩,
        files, ⟨filesNamed, filesNodup, rfl⟩, rfl⟩
    refine ⟨⟨fun entry member => (filesNamed entry member).1, rosinstallNamed,
      ⟨keysNamed, keysNodup⟩, ?_, ?_⟩, rfl⟩
    · intro path member
      rcases List.mem_map.mp member with ⟨entry, entryMember, rfl⟩
      exact (filesNamed entry entryMember).2
    · rw [List.map_map]
      exact filesNodup
  · intro given
    rcases given with ⟨⟨colons, copyable⟩, rfl⟩
    have filesNodup := copyable.files.nodup
    rw [List.map_map] at filesNodup
    refine ⟨_, ⟨copyable.rosinstall, rfl⟩, _,
      ⟨copyable.ssh.namesFile, copyable.ssh.nodup, rfl⟩, _, ⟨?_, filesNodup, rfl⟩, rfl⟩
    intro entry member
    exact ⟨colons entry member, copyable.files.namesFile _ (List.mem_map_of_mem member)⟩

theorem exists_ofPackage_iff {robot : ExpandedRobot} {package : ExpandedPackage}
    {workspace : String} :
    (∃ build, ofPackage robot package workspace = .ok build) ↔
      (∀ entry ∈ package.files, ':' ∈ entry.toList) ∧ package.HostFilesCopyable := by
  simp only [ofPackage_eq_ok_iff, exists_and_left, exists_eq, and_true]

end PackageBuild

/-! ## Models -/

namespace Model

/-- A package of a robot can be built. -/
def Builds (settings : Settings) (robot : ExpandedRobot) (package : ExpandedPackage) : Prop :=
  ∃ build, PackageBuild.ofPackage robot package settings.workspace = .ok build

/-- The service of a package that is built. -/
def builtService (settings : Settings) (robot : ExpandedRobot) (package : ExpandedPackage) :
    Service :=
  let build := PackageBuild.built robot package settings.workspace
  Service.ofPackage robot package.service package.extra build.spec.context build.volumes
    settings.restart

/-- The build of a package. -/
def builtSpec (settings : Settings) (robot : ExpandedRobot) (package : ExpandedPackage) :
    BuildSpec :=
  (PackageBuild.built robot package settings.workspace).spec

/-- The services of a robot whose packages are all built. -/
def builtServices (settings : Settings) (robot : ExpandedRobot) : List Service :=
  (Service.ofMaster robot settings.restart).toList ++
    robot.images.map (fun image => Service.ofImage robot image settings.restart) ++
    robot.packages.map (builtService settings robot)

/-- The part of a robot whose packages are all built. -/
def builtPart (settings : Settings) (robot : ExpandedRobot) : RobotPart where
  services := builtServices settings robot
  builds := robot.packages.map (builtSpec settings robot)
  summary := summary robot (builtServices settings robot)

/-- The model of a fleet whose packages are all built. -/
def built (settings : Settings) (fleet : ExpandedFleet) : Model :=
  assemble settings.composeVersion (fleet.areas.map ExpandedArea.id) fleet.globals
    (fleet.robots.map (builtPart settings))

theorem packagePart_eq_ok_iff {settings : Settings} {robot : ExpandedRobot}
    {package : ExpandedPackage} {part : Service × BuildSpec} :
    (packagePart settings robot package).outcome = .ok part ↔
      Builds settings robot package ∧
        part = (builtService settings robot package, builtSpec settings robot package) := by
  simp only [packagePart, Builds, Logged.outcome_bind, Logged.outcome_ofExcept,
    Logged.outcome_tell, Logged.outcome_pure, except_bind, bind_eq_ok_iff,
    PackageBuild.ofPackage_eq_ok_iff, Except.ok.injEq]
  constructor
  · intro given
    rcases given with ⟨_, ⟨buildable, rfl⟩, _, -, rfl⟩
    exact ⟨⟨_, buildable, rfl⟩, rfl⟩
  · intro given
    rcases given with ⟨⟨_, buildable, rfl⟩, rfl⟩
    exact ⟨_, ⟨buildable, rfl⟩, (), trivial, rfl⟩

theorem packageParts_eq_ok_iff {settings : Settings} {robot : ExpandedRobot}
    {packages : List ExpandedPackage} {parts : List (Service × BuildSpec)} :
    (packageParts settings robot packages).outcome = .ok parts ↔
      (∀ package ∈ packages, Builds settings robot package) ∧
        parts = packages.map fun package =>
          (builtService settings robot package, builtSpec settings robot package) := by
  induction packages generalizing parts with
  | nil => simp [packageParts, eq_comm]
  | cons package rest ih =>
      simp only [packageParts, Logged.outcome_bind, Logged.outcome_pure, except_bind,
        bind_eq_ok_iff, packagePart_eq_ok_iff, ih, Except.ok.injEq, List.forall_mem_cons,
        List.map_cons]
      constructor
      · intro given
        rcases given with ⟨_, ⟨first, rfl⟩, _, ⟨later, rfl⟩, rfl⟩
        exact ⟨⟨first, later⟩, rfl⟩
      · intro given
        rcases given with ⟨⟨first, later⟩, rfl⟩
        exact ⟨_, ⟨first, rfl⟩, _, ⟨later, rfl⟩, rfl⟩

theorem robotPart_eq_ok_iff {settings : Settings} {robot : ExpandedRobot} {part : RobotPart} :
    (robotPart settings robot).outcome = .ok part ↔
      (∀ package ∈ robot.packages, Builds settings robot package) ∧
        part = builtPart settings robot := by
  simp only [robotPart, Logged.outcome_bind, Logged.outcome_tell, Logged.outcome_pure,
    except_bind, ok_bind, bind_eq_ok_iff, packageParts_eq_ok_iff, Except.ok.injEq]
  constructor
  · intro given
    rcases given with ⟨_, ⟨buildable, rfl⟩, rfl⟩
    refine ⟨buildable, ?_⟩
    rw [List.map_map, List.map_map]
    rfl
  · intro given
    rcases given with ⟨buildable, rfl⟩
    refine ⟨_, ⟨buildable, rfl⟩, ?_⟩
    rw [List.map_map, List.map_map]
    rfl

theorem robotParts_eq_ok_iff {settings : Settings} {robots : List ExpandedRobot}
    {parts : List RobotPart} :
    (robotParts settings robots).outcome = .ok parts ↔
      (∀ robot ∈ robots, ∀ package ∈ robot.packages, Builds settings robot package) ∧
        parts = robots.map (builtPart settings) := by
  induction robots generalizing parts with
  | nil => simp [robotParts, eq_comm]
  | cons robot rest ih =>
      simp only [robotParts, Logged.outcome_bind, Logged.outcome_pure, except_bind,
        bind_eq_ok_iff, robotPart_eq_ok_iff, ih, Except.ok.injEq, List.forall_mem_cons,
        List.map_cons]
      constructor
      · intro given
        rcases given with ⟨_, ⟨first, rfl⟩, _, ⟨later, rfl⟩, rfl⟩
        exact ⟨⟨first, later⟩, rfl⟩
      · intro given
        rcases given with ⟨⟨first, later⟩, rfl⟩
        exact ⟨_, ⟨first, rfl⟩, _, ⟨later, rfl⟩, rfl⟩

/-- A fleet is converted exactly if all its packages can be built. -/
theorem ofFleet_eq_ok_iff {settings : Settings} {fleet : ExpandedFleet} {model : Model} :
    (ofFleet settings fleet).outcome = .ok model ↔
      (∀ robot ∈ fleet.robots, ∀ package ∈ robot.packages, Builds settings robot package) ∧
        model = built settings fleet := by
  simp only [ofFleet, Logged.outcome_bind, Logged.outcome_tell, Logged.outcome_pure, except_bind,
    ok_bind, bind_eq_ok_iff, robotParts_eq_ok_iff, Except.ok.injEq]
  constructor
  · intro given
    rcases given with ⟨_, ⟨buildable, rfl⟩, rfl⟩
    exact ⟨buildable, rfl⟩
  · intro given
    rcases given with ⟨buildable, rfl⟩
    exact ⟨_, ⟨buildable, rfl⟩, rfl⟩

/-- A fleet has a model exactly if all its packages can be built. -/
theorem exists_ofFleet_iff {settings : Settings} {fleet : ExpandedFleet} :
    (∃ model, (ofFleet settings fleet).outcome = .ok model) ↔
      ∀ robot ∈ fleet.robots, ∀ package ∈ robot.packages, ∃ build,
        PackageBuild.ofPackage robot package settings.workspace = .ok build := by
  simp only [ofFleet_eq_ok_iff, exists_and_left, exists_eq, and_true, Builds]

end Model

/-! ## Entries of files -/

/-- A character that no placeholder has stays in a text when placeholders are replaced. -/
theorem Template.Scope.mem_fill_of_mem {c : Char}
    (foreign : ∀ name raw, Template.IsWritten name raw → c ∉ raw) (scope : Template.Scope)
    {text : String} (member : c ∈ text.toList) : c ∈ (scope.fill text).toList := by
  -- The segments spell the text, so the character stands in a literal or in a placeholder.
  rw [← Template.segmentChars_segments, Template.segmentChars] at member
  rcases List.mem_flatMap.mp member with ⟨segment, segmentMember, inside⟩
  cases segment with
  | literal written =>
      rw [fill, String.toList_join, List.flatMap_map]
      exact List.mem_flatMap.mpr ⟨.literal written, segmentMember, inside⟩
  | placeholder name raw =>
      have written := Template.isWritten_of_mem_segmentsFrom segmentMember
      exact absurd inside (foreign _ _ written)

/-- The entries of `files` still have their colons in a copy of a loaded package. -/
theorem Document.SectionsWellFormed.colon_mem_copyFor {settings : Settings} {doc : Document}
    (wellFormed : doc.SectionsWellFormed settings) {package : Package}
    (packageMember : package ∈ (doc.fleet settings).packages) {scope : Template.Scope}
    {robot : Robot} {entry : String} (entryMember : entry ∈ (package.copyFor scope robot).files) :
    ':' ∈ entry.toList := by
  rcases List.mem_map.mp packageMember with ⟨decl, declared, rfl⟩
  rcases List.mem_map.mp entryMember with ⟨written, writtenMember, rfl⟩
  rcases (wellFormed.packages decl declared).files_form written writtenMember with ⟨host, container,
      rfl, -⟩
  apply Template.Scope.mem_fill_of_mem fun _ _ => Template.IsWritten.colon_notMem
  simp

/-- The entries of `files` still have their colons when a loaded fleet is expanded. -/
theorem Document.SectionsWellFormed.colon_mem_files {settings : Settings} {doc : Document}
    (wellFormed : doc.SectionsWellFormed settings) {robot : ExpandedRobot}
    (robotMember : robot ∈ (doc.fleet settings).copy.robots) {package : ExpandedPackage}
    (packageMember : package ∈ robot.packages) {entry : String}
    (entryMember : entry ∈ package.files) : ':' ∈ entry.toList := by
  -- Every copy is traced back to the declaration that the loader has checked.
  rcases List.mem_flatMap.mp robotMember with ⟨area, areaMember, inArea⟩
  rcases List.mem_map.mp areaMember with ⟨fleetArea, -, rfl⟩
  rcases List.mem_map.mp inArea with ⟨fleetRobot, -, rfl⟩
  rcases List.mem_map.mp packageMember with ⟨fleetPackage, picked, rfl⟩
  rcases List.mem_filterMap.mp picked with ⟨position, -, found⟩
  exact wellFormed.colon_mem_copyFor (List.mem_of_getElem? found) entryMember

/-! ## Documents -/

/-- A loaded and expanded fleet is converted exactly if, in every package of every robot, the
paths of its host files end in names once placeholders are replaced, and those copied into
one directory end in distinct names. -/
theorem Document.exists_ofFleet_iff_copyable {settings : Settings} {doc : Document}
    {fleet : Fleet} {expanded : ExpandedFleet}
    (loaded : (loadFleet settings doc).outcome = .ok fleet)
    (expands : fleet.expand.outcome = .ok expanded) :
    (∃ model, (Model.ofFleet settings expanded).outcome = .ok model) ↔
      ∀ robot ∈ expanded.robots, ∀ package ∈ robot.packages, package.HostFilesCopyable := by
  rcases loadFleet_eq_ok_iff.mp loaded with ⟨wellFormed, rfl⟩
  rw [Fleet.outcome_expand, verdict_eq_ok_iff] at expands
  rcases expands with ⟨-, rfl⟩
  rw [Model.exists_ofFleet_iff]
  constructor
  · intro built robot robotMember package packageMember
    exact (PackageBuild.exists_ofPackage_iff.mp
      (built robot robotMember package packageMember)).2
  · intro copyable robot robotMember package packageMember
    refine PackageBuild.exists_ofPackage_iff.mpr ⟨fun entry entryMember => ?_, ?_⟩
    · exact wellFormed.colon_mem_files robotMember packageMember entryMember
    · exact copyable robot robotMember package packageMember

/-- The host files of the sample document can be copied. -/
theorem Document.sample_copyable :
    ∃ fleet expanded, (loadFleet .standard sample).outcome = .ok fleet ∧
      fleet.expand.outcome = .ok expanded ∧
      ∀ robot ∈ expanded.robots, ∀ package ∈ robot.packages, package.HostFilesCopyable := by
  have succeeds : ((loadFleet .standard sample).outcome.toOption.bind fun fleet =>
      fleet.expand.outcome.toOption.bind fun expanded =>
        (Model.ofFleet .standard expanded).outcome.toOption).isSome = true := by
    decide +kernel
  rcases exists_loadFleet_sample with ⟨fleet, loaded⟩
  cases expands : fleet.expand.outcome with
  | error failure => simp [loaded, expands, Except.toOption] at succeeds
  | ok expanded =>
      have converted := exists_ok_of_isSome
        (show (Model.ofFleet .standard expanded).outcome.toOption.isSome = true by
          simpa [loaded, expands, Except.toOption] using succeeds)
      exact ⟨fleet, expanded, loaded, expands,
        (exists_ofFleet_iff_copyable loaded expands).mp converted⟩

/-- A document with a key whose path does not end in the name of a file. -/
def Document.keyAbove : Document where
  areas := some [⟨some "yard", some ["carrier"]⟩]
  robots := [⟨some "carrier", some "humble", none, some ["driver"], none, .empty⟩]
  images := []
  packages := [⟨some "driver", some "src/driver", some "drive", some ["git"], none, none,
    some ["keys/.."], none, .empty⟩]
  globals := []

/-- Loading and expanding do not reject all that cannot be converted. -/
theorem Document.not_forall_converted :
    ¬∀ (settings : Settings) (doc : Document) (fleet : Fleet) (expanded : ExpandedFleet),
      (loadFleet settings doc).outcome = .ok fleet → fleet.expand.outcome = .ok expanded →
        ∃ model, (Model.ofFleet settings expanded).outcome = .ok model := by
  intro always
  have ran : ((loadFleet .standard keyAbove).outcome.toOption.bind fun fleet =>
      fleet.expand.outcome.toOption.map fun expanded =>
        (Model.ofFleet .standard expanded).outcome.toOption.isSome) = some false := by
    decide +kernel
  cases loaded : (loadFleet .standard keyAbove).outcome with
  | error failure => simp [loaded, Except.toOption] at ran
  | ok fleet =>
      cases expands : fleet.expand.outcome with
      | error failure => simp [loaded, expands, Except.toOption] at ran
      | ok expanded =>
          rcases always .standard keyAbove fleet expanded loaded expands with ⟨model, converted⟩
          simp [loaded, expands, converted, Except.toOption] at ran

end FleetCompose
