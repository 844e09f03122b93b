import FleetCompose.Proofs.Credentials
import FleetCompose.Proofs.Middleware
import FleetCompose.Proofs.RobotScopes

/-!
# The distribution of a robot

A robot may declare a variable that replaces the distribution of its `ros` field. Then all that is
made for the robot follows the variable: its master, its images without a tag, the builds of its
packages with their sources and scripts, and every placeholder.
-/

namespace FleetCompose

/-! ## References without a tag -/

namespace ImageRef

/-- The reference has neither a tag nor a digest. It is a name, perhaps with an empty tag. -/
inductive Untagged : String → String → Prop where
  | bare {name : String} (noDigest : '@' ∉ name.toList)
      (noTag : ':' ∉ (Text.afterLast '/' name).toList) : Untagged name name
  | emptyTag {name : String} (noDigest : '@' ∉ name.toList) : Untagged (name ++ ":") name

theorem parse_of_noDigest {reference : String} (noDigest : '@' ∉ reference.toList) :
    parse reference =
      ⟨String.ofList (splitTag reference.toList).1,
        ((splitTag reference.toList).2.filter fun tag => !tag.isEmpty).map String.ofList, none⟩ := by
  have whole : Text.splitFirst '@' reference = none := by
    rw [Text.splitFirst, Text.splitFirstChars_eq_none_iff.mpr noDigest, Option.map_none]
  rw [parse, whole]

theorem noDigest_of_parse {reference : String} (read : (parse reference).digest = none) :
    '@' ∉ reference.toList := by
  rw [← Text.splitFirstChars_eq_none_iff]
  cases parts : Text.splitFirstChars '@' reference.toList with
  | none => rfl
  | some pair => simp [parse, Text.splitFirst, parts] at read

/-- The tag is looked for in the last component. -/
theorem exists_splitTag_eq (reference : String) :
    ∃ registry, reference.toList = registry ++ (Text.afterLast '/' reference).toList ∧
      (Text.splitLastChars ':' (Text.afterLast '/' reference).toList = none →
        splitTag reference.toList = (reference.toList, none)) ∧
      ∀ name tag,
        Text.splitLastChars ':' (Text.afterLast '/' reference).toList = some (name, tag) →
          splitTag reference.toList = (registry ++ name, some tag) := by
  cases parts : Text.splitLastChars '/' reference.toList with
  | none =>
      rw [Text.afterLast_of_free (Text.splitLastChars_eq_none_iff.mp parts)]
      refine ⟨[], rfl, fun last => ?_, fun name tag last => ?_⟩
      · simp [splitTag, parts, last]
      · simp [splitTag, parts, last]
  | some pair =>
      obtain ⟨whole, -⟩ := Text.splitLastChars_eq_some_iff.mp parts
      have component : (Text.afterLast '/' reference).toList = pair.2 := by
        simp [Text.afterLast, Text.splitLast, parts]
      rw [component]
      refine ⟨pair.1 ++ ['/'], by simpa using whole, fun last => ?_, fun name tag last => ?_⟩
      · simp [splitTag, parts, last]
      · simp [splitTag, parts, last]

/-- An empty tag belongs to the last component. -/
theorem toList_afterLast_append_colon (name : String) :
    (Text.afterLast '/' (name ++ ":")).toList = (Text.afterLast '/' name).toList ++ [':'] := by
  rw [Text.afterLast_append (by simp), String.toList_append]
  rfl

theorem splitTag_of_untagged {reference name : String} (untagged : Untagged reference name) :
    splitTag reference.toList = (name.toList, none) ∨
      splitTag reference.toList = (name.toList, some []) := by
  obtain ⟨registry, whole, untaggedSplit, taggedSplit⟩ := exists_splitTag_eq reference
  cases untagged with
  | bare noDigest noTag => exact .inl (untaggedSplit (Text.splitLastChars_eq_none_iff.mpr noTag))
  | emptyTag noDigest =>
      have parts : Text.splitLastChars ':' (Text.afterLast '/' (name ++ ":")).toList =
          some ((Text.afterLast '/' name).toList, []) := by
        rw [Text.splitLastChars_eq_some_iff, toList_afterLast_append_colon]
        exact ⟨rfl, List.not_mem_nil⟩
      rw [toList_afterLast_append_colon, ← List.append_assoc, String.toList_append] at whole
      rw [List.append_cancel_right whole]
      exact .inr (taggedSplit _ _ parts)

theorem untagged_of_splitTag {reference : String} (noDigest : '@' ∉ reference.toList)
    {name : List Char} {tag : Option (List Char)}
    (split : splitTag reference.toList = (name, tag))
    (empty : (tag.filter fun tag => !tag.isEmpty) = none) :
    Untagged reference (String.ofList name) := by
  obtain ⟨registry, whole, untaggedSplit, taggedSplit⟩ := exists_splitTag_eq reference
  cases parts : Text.splitLastChars ':' (Text.afterLast '/' reference).toList with
  | none =>
      obtain ⟨rfl, rfl⟩ := Prod.mk.inj (split.symm.trans (untaggedSplit parts))
      rw [String.ofList_toList]
      exact .bare noDigest (Text.splitLastChars_eq_none_iff.mp parts)
  | some pair =>
      obtain ⟨rfl, rfl⟩ := Prod.mk.inj (split.symm.trans (taggedSplit _ _ parts))
      have noTag : pair.2 = [] := by
        simpa [Option.filter] using empty
      obtain ⟨component, -⟩ := Text.splitLastChars_eq_some_iff.mp parts
      have named : reference = String.ofList (registry ++ pair.1) ++ ":" := by
        rw [← String.toList_inj, whole, component, noTag]
        simp
      rw [named] at noDigest ⊢
      refine .emptyTag fun member => noDigest ?_
      rw [String.toList_append]
      exact List.mem_append_left _ member

/-- What is read as a reference without tag and digest is untagged, and nothing else is. -/
theorem untagged_iff {reference name : String} :
    Untagged reference name ↔ parse reference = ⟨name, none, none⟩ := by
  constructor
  · intro untagged
    have noDigest : '@' ∉ reference.toList := by
      cases untagged with
      | bare noDigest => exact noDigest
      | emptyTag noDigest => simpa using noDigest
    rw [parse_of_noDigest noDigest]
    cases splitTag_of_untagged untagged with
    | inl none => simp [none]
    | inr empty => simp [empty]
  · intro read
    have noDigest := noDigest_of_parse (congrArg ImageRef.digest read)
    rw [parse_of_noDigest noDigest, ImageRef.mk.injEq, Option.map_eq_none_iff] at read
    obtain ⟨rfl, noTag, -⟩ := read
    exact untagged_of_splitTag noDigest rfl noTag

theorem withDefaultTag_of_untagged {reference name : String} (untagged : Untagged reference name)
    (tag : String) : (parse reference).withDefaultTag tag = name ++ ":" ++ tag := by
  rw [untagged_iff.mp untagged]
  rfl

end ImageRef

/-! ## Entries without a branch -/

namespace PackageBuild

/-- The text after a colon is a branch, and the one before it is what is cloned. -/
structure IsBranch (url branch : String) : Prop where
  url_ne : url ≠ ""
  branch_ne : branch ≠ ""
  colon_free : ':' ∉ branch.toList
  slash_free : '/' ∉ branch.toList
  not_git : ¬".git".toList <:+ branch.toList

/-- A command that clones an entry: at the branch that the entry names, and otherwise at the branch
of the distribution. -/
inductive Clones (distro workspace : String) : String → String → Prop where
  | named {url branch : String} (isBranch : IsBranch url branch) :
      Clones distro workspace (url ++ ":" ++ branch)
        ("git -C " ++ workspace ++ "/src clone -b " ++ branch ++ " " ++ url)
  | unnamed {entry : String}
      (branchless : ∀ url branch, entry = url ++ ":" ++ branch → ¬IsBranch url branch) :
      Clones distro workspace entry
        ("git -C " ++ workspace ++ "/src clone -b " ++ distro ++ " " ++ entry)

theorem isBranch_iff {url branch : String} (free : ':' ∉ branch.toList) :
    (!url.isEmpty && !branch.isEmpty && !branch.toList.contains '/' &&
      !".git".toList.isSuffixOf branch.toList) = true ↔ IsBranch url branch := by
  simp only [Bool.and_eq_true, Bool.not_eq_true', String.isEmpty_eq_false_iff,
    List.contains_eq_mem, decide_eq_false_iff_not]
  rw [Bool.eq_false_iff, ne_eq (List.isSuffixOf _ _), List.isSuffixOf_iff_suffix]
  constructor
  · intro given
    obtain ⟨⟨⟨urlFilled, branchFilled⟩, slashFree⟩, notGit⟩ := given
    exact ⟨urlFilled, branchFilled, free, slashFree, notGit⟩
  · intro given
    exact ⟨⟨⟨given.url_ne, given.branch_ne⟩, given.slash_free⟩, given.not_git⟩

/-- The parts around the last colon. -/
theorem eq_of_splitLast {entry url branch : String}
    (parts : Text.splitLast ':' entry = some (url, branch)) :
    entry = url ++ ":" ++ branch ∧ ':' ∉ branch.toList := by
  obtain ⟨whole, free⟩ := Text.splitLast_eq_some_iff.mp parts
  refine ⟨?_, free⟩
  rw [← String.toList_inj, whole]
  simp

/-- A branch is behind the last colon. -/
theorem IsBranch.splitLast {url branch : String} (isBranch : IsBranch url branch) :
    Text.splitLast ':' (url ++ ":" ++ branch) = some (url, branch) :=
  Text.splitLast_colon isBranch.colon_free

/-- Entries are cut in front of a branch, if there is one. -/
theorem clones_cloneCommand (entry distro workspace : String) :
    Clones distro workspace entry (cloneCommand entry distro workspace) := by
  rw [cloneCommand, splitBranch]
  cases parts : Text.splitLast ':' entry with
  | none =>
      refine .unnamed fun url branch equal isBranch => ?_
      rw [equal, isBranch.splitLast] at parts
      cases parts
  | some pair =>
      obtain ⟨rfl, free⟩ := eq_of_splitLast parts
      dsimp only
      split
      next holds => exact .named ((isBranch_iff free).mp holds)
      next fails =>
        refine .unnamed fun url branch equal isBranch => ?_
        rw [equal, isBranch.splitLast] at parts
        cases parts
        exact fails ((isBranch_iff free).mpr isBranch)

end PackageBuild

/-! ## Lines that run a shell -/

namespace BuildSpec

variable (spec : BuildSpec)

/-- The line runs a shell. -/
def runsShell (line : String) : Bool := "RUN /bin/bash".toList.isPrefixOf line.toList

/-- The line that builds the workspace. -/
def buildLine (distro buildTool : String) : String :=
  "RUN /bin/bash -c \"source /opt/ros/" ++ distro ++ "/setup.bash && " ++ buildTool ++ "\""

theorem not_runsShell_installCommand (packages : List String) :
    runsShell (installCommand packages) = false := by
  -- The text in front is cut after the letters that tell it from a shell.
  have words : installCommand packages =
      "RUN a" ++ ("pt-get update && apt-get install -y --no-install-recommends " ++
        " ".intercalate packages ++ " && rm -rf /var/lib/apt/lists/*") := by
    rw [← String.append_assoc, ← String.append_assoc]
    rfl
  rw [words]
  simp [runsShell, List.isPrefixOf]

theorem filter_headerLines_runsShell : spec.headerLines.filter runsShell = [] := by
  simp [headerLines, runsShell, List.isPrefixOf]

theorem filter_keyLines_runsShell : spec.keyLines.filter runsShell = [] := by
  rw [keyLines]
  split
  · rfl
  · simp [runsShell, List.isPrefixOf]

theorem filter_rosinstallLines_runsShell : spec.rosinstallLines.filter runsShell = [] := by
  rw [rosinstallLines]
  split
  · rfl
  · split
    · rfl
    · simp [runsShell, List.isPrefixOf]

variable {spec}

theorem filter_fetchLines_runsShell
    (commands : ∀ command ∈ spec.fetchCommands, runsShell ("RUN " ++ command) = false) :
    spec.fetchLines.filter runsShell = [] := by
  have fetching : (spec.fetchCommands.map ("RUN " ++ ·)).filter runsShell = [] := by
    rw [List.filter_eq_nil_iff, List.forall_mem_map]
    intro command member
    rw [commands command member]
    exact Bool.false_ne_true
  have install := not_runsShell_installCommand spec.fetchPackages
  have stage : runsShell ("FROM " ++ spec.baseImage ++ " AS fetch") = false := by
    simp [runsShell, List.isPrefixOf]
  have directory : runsShell ("RUN mkdir -p " ++ spec.workspace ++ "/src") = false := by
    simp [runsShell, List.isPrefixOf]
  have empty : runsShell "" = false := rfl
  rw [fetchLines]
  split
  · simp only [List.filter_append, List.filter_cons, List.filter_nil, empty, stage, install,
      directory, filter_keyLines_runsShell, filter_rosinstallLines_runsShell, fetching]
    rfl
  · rfl

theorem runsShell_buildLine (distro buildTool : String) :
    runsShell (buildLine distro buildTool) = true := by
  have front : "RUN /bin/bash".toList <+: "RUN /bin/bash -c \"source /opt/ros/".toList :=
    List.isPrefixOf_iff_prefix.mp (by decide +kernel)
  apply List.isPrefixOf_iff_prefix.mpr
  unfold buildLine
  simp only [String.append_assoc, String.toList_append]
  exact front.trans (List.prefix_append _ _)

/-- Only a workspace that was fetched is built. -/
theorem filter_workspaceLines_runsShell :
    spec.workspaceLines.filter runsShell =
      if spec.twoStage then [buildLine spec.distro spec.buildTool] else [] := by
  have copies : runsShell
      ("COPY --from=fetch " ++ spec.workspace ++ "/src " ++ spec.workspace ++ "/src") = false := by
    simp [runsShell, List.isPrefixOf]
  have resolves : runsShell
      ("RUN apt-get update && rosdep update && rosdep install --from-paths src --ignore-src -r -y" ++
        " && rm -rf /var/lib/apt/lists/*") = false := by
    decide +kernel
  have builds := runsShell_buildLine spec.distro spec.buildTool
  unfold buildLine at builds ⊢
  rw [workspaceLines]
  split
  · simp only [List.filter_cons, List.filter_nil, copies, resolves, builds]
    rfl
  · rfl

/-- Of the final stage its first line is left, and what is done in the workspace. -/
theorem filter_finalLines {keep : String → Bool}
    (installs : ∀ packages, keep (installCommand packages) = false)
    (enters : keep ("WORKDIR " ++ spec.workspace) = false)
    (runs : keep ("CMD " ++ spec.run) = false) :
    spec.finalLines.filter keep =
      ["FROM " ++ spec.baseImage].filter keep ++ spec.workspaceLines.filter keep := by
  have install : (if spec.apt.isEmpty then [] else [installCommand spec.apt]).filter keep = [] := by
    split
    · rfl
    · rw [List.filter_singleton, installs]
      rfl
  simp only [finalLines, List.filter_append, install, List.filter_singleton, enters, runs,
    cond_false, List.append_nil]

theorem filter_finalLines_runsShell :
    spec.finalLines.filter runsShell =
      if spec.twoStage then [buildLine spec.distro spec.buildTool] else [] := by
  rw [filter_finalLines not_runsShell_installCommand (by simp [runsShell, List.isPrefixOf])
    (by simp [runsShell, List.isPrefixOf]), filter_workspaceLines_runsShell]
  simp [runsShell, List.isPrefixOf]

/-- The Dockerfile runs a shell for one purpose only, to build the workspace. -/
theorem filter_dockerfileLines_runsShell
    (commands : ∀ command ∈ spec.fetchCommands, runsShell ("RUN " ++ command) = false) :
    spec.dockerfileLines.filter runsShell =
      if spec.twoStage then [buildLine spec.distro spec.buildTool] else [] := by
  rw [dockerfileLines, List.filter_append, List.filter_append, filter_headerLines_runsShell,
    filter_fetchLines_runsShell commands, filter_finalLines_runsShell, List.append_nil,
    List.nil_append]

end BuildSpec

/-! ## What is made for a robot -/

/-- The service of an image runs the distribution unless the image or the author names a tag. -/
structure ExpandedImage.Tagged (distro : String) (image : ExpandedImage) (service : Service) :
    Prop where
  name_eq : service.name = image.service
  image_eq : ∀ name, ImageRef.Untagged image.image name →
    service.fields.get? "image" =
      (image.extra.get? "image").or (some (.string (name ++ ":" ++ distro)))

/-- The build of a package starts from the distribution, clones its branch, builds the workspace
with it and runs the command in it. -/
structure ExpandedPackage.BuiltOn (distro : String) (package : ExpandedPackage)
    (build : BuildSpec) : Prop where
  service_eq : build.service = package.service
  distro_eq : build.distro = distro
  baseImage_eq : build.baseImage = "ros:" ++ distro
  clones : List.Forall₂ (PackageBuild.Clones distro build.workspace) package.git
    (build.fetchCommands.take package.git.length)
  twoStage_iff : build.twoStage = true ↔ package.git ≠ [] ∨ package.rosinstall ≠ none
  run_eq : build.twoStage = true → build.run = PackageBuild.shellArguments
    ("source /opt/ros/" ++ distro ++ "/setup.bash && source " ++ build.workspace ++ "/" ++
      build.workspaceSetup ++ " && " ++ package.command)
  shells_eq : build.dockerfileLines.filter BuildSpec.runsShell =
    if build.twoStage then [BuildSpec.buildLine distro build.buildTool] else []

/-- Everything that a model has of a robot follows one distribution, the one that placeholders of
the robot stand for. -/
structure ExpandedRobot.RunsOn (distro : String) (model : Model) (robot : ExpandedRobot) :
    Prop where
  placeholder : robot.scope.substitute "{{ROBOT_ROS_DISTRO}}" = .ok distro
  placeholders : ∀ raw,
    robot.scope.fillSegment (.placeholder Template.Scope.distroName raw) = distro
  summaries : ((model.summariesOf robot.id).map fun summary =>
    summary.vars.get? Template.Scope.distroName) = [some distro]
  masters : (((model.servicesOf robot.id).filter fun service => service.kind == .master).map
    fun service => service.fields.get? "image") =
      match robot.ros.family with
      | .ros1 => [(robot.extra.get? "image").or (some (.string ("ros:" ++ distro)))]
      | .ros2 => []
  images : List.Forall₂ (ExpandedImage.Tagged distro) robot.images
    ((model.servicesOf robot.id).filter fun service => service.kind == .image)
  builds : List.Forall₂ (ExpandedPackage.BuiltOn distro) robot.packages
    (model.buildsOf robot.id)

/-- The distribution of a robot: its last variable of that name, and otherwise what its `ros` field
says. -/
def RobotDecl.distro (settings : Settings) (decl : RobotDecl) : String :=
  (lastValue Template.Scope.distroName decl.varTexts).getD (decl.spec settings).distro

namespace Template.Scope

theorem lastValue_systemVars (areaId : String) (robot : Robot) :
    lastValue distroName (systemVars areaId robot) = some robot.ros.distro := by
  rw [systemVars]
  cases robot.ros.family with
  | ros1 => rfl
  | ros2 => rfl

variable {scope : Scope} {distro : String}

/-- A placeholder for the distribution stands for its value. -/
theorem substitute_distroName (bound : scope.get? distroName = some distro) :
    scope.substitute "{{ROBOT_ROS_DISTRO}}" = .ok distro := by
  have cut : segments "{{ROBOT_ROS_DISTRO}}" = [.placeholder distroName "{{ROBOT_ROS_DISTRO}}"] := by
    decide +kernel
  rw [substitute, cut, substituteSegments, bound]
  simp [substituteSegments, Except.map]

end Template.Scope

theorem Document.get?_scope_copyOf (settings : Settings) (doc : Document) (areaId : String)
    (decl : RobotDecl) :
    ((doc.fleet settings).copyOf areaId (decl.placed settings doc)).scope.get?
      Template.Scope.distroName = some (decl.distro settings) := by
  change (Template.Scope.ofRobot areaId (decl.placed settings doc)).get? _ = _
  rw [Template.Scope.get?_ofRobot, Template.Scope.lastValue_systemVars]
  change (lastValue _ decl.varTexts).or (some (decl.spec settings).distro) = _
  rw [RobotDecl.distro]
  cases lastValue Template.Scope.distroName decl.varTexts with
  | none => rfl
  | some value => rfl

namespace PackageBuild

theorem not_runsShell_cloneCommand (entry branch workspace : String) :
    BuildSpec.runsShell ("RUN " ++ cloneCommand entry branch workspace) = false := by
  unfold cloneCommand
  simp [BuildSpec.runsShell, List.isPrefixOf]

theorem not_runsShell_importCommand (workspace file : String) :
    BuildSpec.runsShell ("RUN " ++ importCommand workspace file) = false := by
  unfold importCommand
  simp [BuildSpec.runsShell, List.isPrefixOf]

end PackageBuild

namespace Model

variable (settings : Settings) {robot : ExpandedRobot}

theorem tagged_ofImage (image : ExpandedImage) :
    image.Tagged robot.distro (Service.ofImage robot image settings.restart) where
  name_eq := rfl
  image_eq := by
    intro name untagged
    rw [← ImageRef.withDefaultTag_of_untagged untagged]
    exact Service.Draft.get?_fields_of_wiring (Service.imageDraft robot image) rfl
      settings.restart (by decide) (by decide)

/-- Sources are cloned before they are imported. -/
theorem fetchCommands_builtSpec (package : ExpandedPackage) :
    (builtSpec settings robot package).fetchCommands =
      package.git.map (fun entry =>
        PackageBuild.cloneCommand entry robot.distro settings.workspace) ++
      (package.rosinstall.map PackageBuild.namedFile).toList.map fun file =>
        PackageBuild.importCommand settings.workspace (PackageBuild.rosinstallPlace file.name) :=
  rfl

theorem builtOn_builtSpec (package : ExpandedPackage) :
    package.BuiltOn robot.distro (builtSpec settings robot package) where
  service_eq := rfl
  distro_eq := rfl
  baseImage_eq := rfl
  clones := by
    rw [fetchCommands_builtSpec, List.take_left' (List.length_map _), List.forall₂_map_right_iff,
      List.forall₂_same]
    intro entry _
    exact PackageBuild.clones_cloneCommand entry robot.distro settings.workspace
  twoStage_iff := by
    change (!package.git.isEmpty || package.rosinstall.isSome) = true ↔ _
    simp [Option.isSome_iff_ne_none]
  run_eq := by
    intro twoStage
    exact if_pos twoStage
  shells_eq := by
    apply BuildSpec.filter_dockerfileLines_runsShell
    intro command member
    rw [fetchCommands_builtSpec, List.mem_append, List.mem_map, List.mem_map] at member
    cases member with
    | inl clone =>
        obtain ⟨entry, -, rfl⟩ := clone
        exact PackageBuild.not_runsShell_cloneCommand ..
    | inr imported =>
        obtain ⟨file, -, rfl⟩ := imported
        exact PackageBuild.not_runsShell_importCommand ..

theorem masterImages_builtServices (robot : ExpandedRobot) :
    (((builtServices settings robot).filter fun service => service.kind == .master).map
      fun service => service.fields.get? "image") =
        match robot.ros.family with
        | .ros1 => [(robot.extra.get? "image").or (some (.string ("ros:" ++ robot.distro)))]
        | .ros2 => [] := by
  rw [filter_master_builtServices, Service.ofMaster]
  cases robot.ros.family with
  | ros1 =>
      have image : ((Service.masterDraft robot).fields settings.restart).get? "image" =
          (robot.extra.get? "image").or (some (.string ("ros:" ++ robot.distro))) :=
        Service.get?_masterDraft robot settings.restart (by decide) (by decide)
      exact congrArg (fun value => [value]) image
  | ros2 => rfl

theorem runsOn_built {fleet : ExpandedFleet}
    (nodup : (fleet.robots.map ExpandedRobot.id).Nodup) (member : robot ∈ fleet.robots)
    {distro : String} (bound : robot.scope.get? Template.Scope.distroName = some distro) :
    robot.RunsOn distro (built settings fleet) := by
  have follows : robot.distro = distro := by
    rw [ExpandedRobot.distro, bound]
    rfl
  have only := filter_key_eq_singleton nodup member
  exact {
    placeholder := Template.Scope.substitute_distroName bound
    placeholders := by
      intro raw
      rw [Template.Scope.fillSegment, bound]
      rfl
    summaries := by
      rw [summariesOf_built, only, List.map_map]
      exact congrArg (fun value => [value]) bound
    masters := by
      rw [servicesOf_built_of_mem nodup member, ← follows]
      exact masterImages_builtServices settings robot
    images := by
      rw [servicesOf_built_of_mem nodup member, filter_image_builtServices,
        List.forall₂_map_right_iff, List.forall₂_same, ← follows]
      intro image _
      exact tagged_ofImage settings image
    builds := by
      rw [buildsOf_built, only, List.flatMap_singleton, List.forall₂_map_right_iff,
        List.forall₂_same, ← follows]
      intro package _
      exact builtOn_builtSpec settings package }

end Model

/-! ## Documents -/

namespace Document

/-- In a compiled document all that is made for a robot follows the distribution that its
placeholders stand for. -/
theorem runsOn_of_toModel {settings : Settings} {doc : Document} {model : Model}
    (compiled : (doc.toModel settings).outcome = .ok model) :
    ∃ fleet, (doc.toExpanded settings).outcome = .ok fleet ∧
      model.robots.map RobotSummary.id = fleet.robots.map ExpandedRobot.id ∧
      ∀ robot ∈ fleet.robots, ∃ area ∈ doc.areaDecls, ∃ decl ∈ doc.robots,
        robot = (doc.fleet settings).copyOf area.name (decl.placed settings doc) ∧
          robot.RunsOn (decl.distro settings) model := by
  obtain ⟨wellFormed, bound, -, rfl⟩ := toModel_eq_ok_iff.mp compiled
  have nodup := wellFormed.toSectionsWellFormed.nodup_id_robots_copy
  refine ⟨_, toExpanded_eq_ok_iff.mpr ⟨wellFormed, bound, rfl⟩, ?_, ?_⟩
  · rw [Model.robots_built, List.map_map]
    rfl
  · intro robot member
    obtain ⟨area, areaMember, decl, declMember, equal⟩ := exists_decl_of_mem_robots_copy member
    refine ⟨area, areaMember, decl, declMember, equal, ?_⟩
    apply Model.runsOn_built settings nodup member
    rw [equal]
    exact get?_scope_copyOf settings doc area.name decl

/-- A robot that declares its distribution twice, a robot with a master that declares another one,
and a robot that keeps its own. They share an image without a tag and a package that is fetched. -/
def redeclared : Document where
  areas := some [⟨some "yard", some ["carrier", "guide", "porter"]⟩]
  robots := [
    ⟨some "carrier", some "humble:2", some ["camera"], some ["driver"],
      some (.list [.ofList [("ROBOT_ROS_DISTRO", .string "iron")],
        .ofList [("ROBOT_ROS_DISTRO", .string "jazzy")]]), .empty⟩,
    ⟨some "guide", some "noetic:11400", some ["camera"], some ["driver"],
      some (.map (.ofList [("ROBOT_ROS_DISTRO", .string "melodic")])), .empty⟩,
    ⟨some "porter", some "rolling:3", some ["camera"], some ["driver"], none, .empty⟩]
  images := [⟨some "camera", some "lab:5000/camera", .empty⟩]
  packages := [⟨some "driver", some "src/driver", some "drive {{ROBOT_ROS_DISTRO}}", none,
    some ["git@lab:carrier/driver.git", "https://lab/tools.git:main"], none, none, none, .empty⟩]
  globals := []

/-- Three robots, each with the distribution that it has in the end. -/
theorem redeclared_runsOn :
    ∃ model fleet, (redeclared.toModel .standard).outcome = .ok model ∧
      (redeclared.toExpanded .standard).outcome = .ok fleet ∧
      (model.builds.map fun build => (build.robot, build.baseImage)) =
        [("carrier", "ros:jazzy"), ("guide", "ros:melodic"), ("porter", "ros:rolling")] ∧
      model.robots.map RobotSummary.id = fleet.robots.map ExpandedRobot.id ∧
      ∀ robot ∈ fleet.robots, ∃ area ∈ redeclared.areaDecls, ∃ decl ∈ redeclared.robots,
        robot = (redeclared.fleet .standard).copyOf area.name (decl.placed .standard redeclared) ∧
          robot.RunsOn (decl.distro .standard) model := by
  have ran : ((redeclared.toModel .standard).outcome.toOption.map fun model =>
      model.builds.map fun build => (build.robot, build.baseImage)) =
        some [("carrier", "ros:jazzy"), ("guide", "ros:melodic"), ("porter", "ros:rolling")] := by
    decide +kernel
  obtain ⟨model, compiled, bases⟩ := exists_ok_of_map_eq_some ran
  obtain ⟨fleet, expands, ids, runs⟩ := runsOn_of_toModel compiled
  exact ⟨model, fleet, compiled, expands, bases, ids, runs⟩

end Document

end FleetCompose
