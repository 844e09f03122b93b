import FleetCompose.Proofs.Distributions

/-!
# The tools of a build

A build takes its distribution from the variables of its robot, but the tools that it works with
from the family that the `ros` field of the robot was given. The two go together as long as the
variables leave the robot in its family: then the settings put the distribution of the build into
the family whose tools it uses. A variable that names a distribution of the other family, or none
that the settings know, takes them apart.
-/

namespace FleetCompose

namespace RosFamily

/-- The command that builds a workspace of the family. -/
def buildTool : RosFamily → String
  | .ros1 => "catkin_make"
  | .ros2 => "colcon build"

/-- The setup script of a built workspace of the family, relative to the workspace. -/
def setupScript : RosFamily → String
  | .ros1 => "devel/setup.bash"
  | .ros2 => "install/setup.bash"

theorem buildTool_injective : Function.Injective buildTool := by
  intro first second equal
  cases first with
  | ros1 =>
      cases second with
      | ros1 => rfl
      | ros2 => exact absurd equal (by decide)
  | ros2 =>
      cases second with
      | ros1 => exact absurd equal (by decide)
      | ros2 => rfl

end RosFamily

namespace RosSpec

theorem buildTool_eq (ros : RosSpec) : ros.buildTool = ros.family.buildTool := by
  rw [buildTool]
  cases ros.family <;> rfl

theorem workspaceSetup_eq (ros : RosSpec) : ros.workspaceSetup = ros.family.setupScript := by
  rw [workspaceSetup]
  cases ros.family <;> rfl

/-- The settings put the distribution of a readable `ros` text into its family. -/
theorem familyOf_described {settings : Settings} {text : String}
    (readable : Readable settings text) :
    settings.familyOf (described settings text).distro =
      some (described settings text).family := by
  obtain ⟨family, known⟩ := Settings.exists_familyOf_iff.mpr readable.distro_known
  change settings.familyOf (distroPart text) = some (describedFamily settings text)
  rw [describedFamily, known, Option.getD_some]

end RosSpec

namespace BuildSpec

/-- The build works with the tools of a family: in the Dockerfile, and in the script that runs a
command in the built workspace. -/
structure UsesToolsOf (family : RosFamily) (command : String) (build : BuildSpec) : Prop where
  buildTool_eq : build.buildTool = family.buildTool
  workspaceSetup_eq : build.workspaceSetup = family.setupScript
  run_eq : build.twoStage = true → build.run = PackageBuild.shellArguments
    ("source /opt/ros/" ++ build.distro ++ "/setup.bash && source " ++ build.workspace ++ "/" ++
      family.setupScript ++ " && " ++ command)
  shells_eq : build.dockerfileLines.filter runsShell =
    if build.twoStage then [buildLine build.distro family.buildTool] else []

/-- The settings put the distribution of the build into the family whose tools it uses. -/
def IsConsistent (settings : Settings) (command : String) (build : BuildSpec) : Prop :=
  ∃ family, settings.familyOf build.distro = some family ∧ build.UsesToolsOf family command

/-- The tools of a build tell the only family that its distribution can have. -/
theorem UsesToolsOf.isConsistent_iff {settings : Settings} {family : RosFamily} {command : String}
    {build : BuildSpec} (uses : build.UsesToolsOf family command) :
    build.IsConsistent settings command ↔ settings.familyOf build.distro = some family := by
  constructor
  · intro consistent
    obtain ⟨other, known, usesOther⟩ := consistent
    have same := RosFamily.buildTool_injective (usesOther.buildTool_eq.symm.trans uses.buildTool_eq)
    rwa [same] at known
  · intro known
    exact ⟨family, known, uses⟩

end BuildSpec

/-! ## Packages of a robot -/

/-- The build of a package that is built on a distribution uses the tools that it was given. -/
theorem ExpandedPackage.BuiltOn.usesToolsOf {distro : String} {package : ExpandedPackage}
    {build : BuildSpec} (built : package.BuiltOn distro build) {family : RosFamily}
    (tool : build.buildTool = family.buildTool)
    (setup : build.workspaceSetup = family.setupScript) :
    build.UsesToolsOf family package.command where
  buildTool_eq := tool
  workspaceSetup_eq := setup
  run_eq := by
    intro twoStage
    rw [built.run_eq twoStage, built.distro_eq, setup]
  shells_eq := by
    rw [built.shells_eq, built.distro_eq, tool]

theorem Model.usesToolsOf_builtSpec (settings : Settings) (robot : ExpandedRobot)
    (package : ExpandedPackage) :
    (builtSpec settings robot package).UsesToolsOf robot.ros.family package.command :=
  (builtOn_builtSpec settings package).usesToolsOf (RosSpec.buildTool_eq robot.ros)
    (RosSpec.workspaceSetup_eq robot.ros)

/-- A build of a robot, with its package and the declaration of the robot. Its tools are those of
the declared family, and its distribution is the one that the variables leave. -/
structure RobotDecl.Tooled (settings : Settings) (decl : RobotDecl) (package : ExpandedPackage)
    (build : BuildSpec) : Prop where
  robot_eq : build.robot = decl.name
  service_eq : build.service = package.service
  declared : settings.familyOf (decl.spec settings).distro = some (decl.spec settings).family
  uses : build.UsesToolsOf (decl.spec settings).family package.command
  distro_eq : build.distro = decl.distro settings
  baseImage_eq : build.baseImage = "ros:" ++ decl.distro settings
  isConsistent_iff : build.IsConsistent settings package.command ↔
    settings.familyOf (decl.distro settings) = some (decl.spec settings).family
  isConsistent_of_unchanged : lastValue Template.Scope.distroName decl.varTexts = none →
    build.IsConsistent settings package.command

/-! ## Documents -/

namespace Document

variable {settings : Settings} {doc : Document}

theorem distro_copyOf (areaId : String) (decl : RobotDecl) :
    ((doc.fleet settings).copyOf areaId (decl.placed settings doc)).distro =
      decl.distro settings := by
  rw [ExpandedRobot.distro, get?_scope_copyOf, Option.getD_some]

theorem tooled_builtSpec {decl : RobotDecl} (wellFormed : decl.WellFormed settings doc)
    (areaId : String) (package : ExpandedPackage) :
    decl.Tooled settings package (Model.builtSpec settings
      ((doc.fleet settings).copyOf areaId (decl.placed settings doc)) package) := by
  have built : package.BuiltOn
      ((doc.fleet settings).copyOf areaId (decl.placed settings doc)).distro
      (Model.builtSpec settings ((doc.fleet settings).copyOf areaId (decl.placed settings doc))
        package) :=
    Model.builtOn_builtSpec settings package
  rw [distro_copyOf] at built
  have uses := Model.usesToolsOf_builtSpec settings
    ((doc.fleet settings).copyOf areaId (decl.placed settings doc)) package
  have declared := RosSpec.familyOf_described wellFormed.ros
  have consistent : _ ↔ settings.familyOf _ = some _ := uses.isConsistent_iff
  rw [built.distro_eq] at consistent
  exact {
    robot_eq := rfl
    service_eq := built.service_eq
    declared
    uses
    distro_eq := built.distro_eq
    baseImage_eq := built.baseImage_eq
    isConsistent_iff := consistent
    isConsistent_of_unchanged := by
      intro unchanged
      apply consistent.mpr
      rw [RobotDecl.distro, unchanged]
      exact declared }

/-- Every build of a compiled document uses the tools of the family that the `ros` field of its
robot was given. It is consistent with its distribution exactly if the settings put that into this
family, so it is for a robot that does not declare its distribution once more. -/
theorem tooled_of_toModel {model : Model} (compiled : (doc.toModel settings).outcome = .ok model) :
    ∃ fleet, (doc.toExpanded settings).outcome = .ok fleet ∧
      ∀ build ∈ model.builds, ∃ robot ∈ fleet.robots, ∃ package ∈ robot.packages,
        ∃ decl ∈ doc.robots, decl.Tooled settings package build := by
  obtain ⟨wellFormed, bound, -, rfl⟩ := toModel_eq_ok_iff.mp compiled
  refine ⟨_, toExpanded_eq_ok_iff.mpr ⟨wellFormed, bound, rfl⟩, fun build member => ?_⟩
  rw [Model.builds_built, List.mem_flatMap] at member
  obtain ⟨robot, robotMember, isBuilt⟩ := member
  obtain ⟨package, packageMember, rfl⟩ := List.mem_map.mp isBuilt
  obtain ⟨area, -, decl, declMember, rfl⟩ := exists_decl_of_mem_robots_copy robotMember
  exact ⟨_, robotMember, package, packageMember, decl, declMember,
    tooled_builtSpec (wellFormed.robots decl declMember) area.name package⟩

/-- The tools of three robots, of which two declare their distribution once more. -/
theorem redeclared_tooled :
    ∃ model fleet, (redeclared.toModel .standard).outcome = .ok model ∧
      (redeclared.toExpanded .standard).outcome = .ok fleet ∧
      (model.builds.map fun build => (build.distro, build.buildTool)) =
        [("jazzy", "colcon build"), ("melodic", "catkin_make"), ("rolling", "colcon build")] ∧
      ∀ build ∈ model.builds, ∃ robot ∈ fleet.robots, ∃ package ∈ robot.packages,
        ∃ decl ∈ redeclared.robots, decl.Tooled .standard package build := by
  have ran : ((redeclared.toModel .standard).outcome.toOption.map fun model =>
      model.builds.map fun build => (build.distro, build.buildTool)) =
        some [("jazzy", "colcon build"), ("melodic", "catkin_make"),
          ("rolling", "colcon build")] := by
    decide +kernel
  obtain ⟨model, compiled, tools⟩ := exists_ok_of_map_eq_some ran
  obtain ⟨fleet, expands, tooled⟩ := tooled_of_toModel compiled
  exact ⟨model, fleet, compiled, expands, tools, tooled⟩

/-- A robot with a master whose variable names a distribution of the other family. -/
def switched : Document where
  areas := some [⟨some "yard", some ["carrier"]⟩]
  robots := [⟨some "carrier", some "noetic", none, some ["driver"],
    some (.map (.ofList [("ROBOT_ROS_DISTRO", .string "humble")])), .empty⟩]
  images := []
  packages := [⟨some "driver", some "src/driver", some "drive", none,
    some ["https://lab/driver.git"], none, none, none, .empty⟩]
  globals := []

/-- Not every build is consistent with its distribution: the base image can be of one family, and
the tools of the other one. -/
theorem not_forall_isConsistent :
    ¬∀ (settings : Settings) (doc : Document) (model : Model),
      (doc.toModel settings).outcome = .ok model →
        ∀ build ∈ model.builds, ∃ command, build.IsConsistent settings command := by
  intro always
  have ran : ((switched.toModel .standard).outcome.toOption.map fun model =>
      model.builds.map fun build => (Settings.standard.familyOf build.distro, build.buildTool)) =
        some [(some .ros2, "catkin_make")] := by
    decide +kernel
  obtain ⟨model, compiled, tools⟩ := exists_ok_of_map_eq_some ran
  obtain ⟨build, builds, seen⟩ := List.map_eq_singleton_iff.mp tools
  obtain ⟨command, family, known, uses⟩ := always .standard switched model compiled build
    (by rw [builds]; exact List.mem_singleton_self build)
  obtain ⟨isRos2, isCatkin⟩ := Prod.mk.inj seen
  cases Option.some.inj (isRos2.symm.trans known)
  exact absurd (isCatkin.symm.trans uses.buildTool_eq) (by decide)

end Document

end FleetCompose
