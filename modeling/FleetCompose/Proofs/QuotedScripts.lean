import FleetCompose.Proofs.Credentials
import FleetCompose.Proofs.JsonReading

/-!
# Commands of packages with sources

A package with sources is run by a shell, which first sets up the distribution and the built
workspace. What the shell runs is one line of the Dockerfile, a list of arguments in JSON. Whatever
the command is, it comes back when the line is read.
-/

namespace FleetCompose.PackageBuild

/-- The text is one line, and as JSON it is the arguments with which a shell runs a script. -/
structure RunsScript (script text : String) : Prop where
  lineFeed_free : '\n' ∉ text.toList
  carriageReturn_free : '\r' ∉ text.toList
  reads : Json.ofText? text = some (.strings ["/bin/bash", "-c", script])

theorem runsScript_shellArguments (script : String) :
    RunsScript script (shellArguments script) where
  lineFeed_free := by
    intro member
    exact absurd (Json.space_le_of_mem_strings member) (by decide)
  carriageReturn_free := by
    intro member
    exact absurd (Json.space_le_of_mem_strings member) (by decide)
  reads := Json.ofText?_strings _

/-- The text tells the script. -/
theorem RunsScript.script_eq {script other text : String} (runs : RunsScript script text)
    (otherRuns : RunsScript other text) : script = other := by
  have same := runs.reads.symm.trans otherRuns.reads
  simpa [Json.strings] using same

theorem runScript_injective (distro workspace setup : String) :
    Function.Injective (runScript distro workspace setup) := by
  intro command other equal
  unfold runScript at equal
  exact (String.append_right_inj _).mp equal

variable {robot : ExpandedRobot} {package : ExpandedPackage} {workspace : String}

/-- The command of a package does not decide whether it can be built. -/
theorem ofPackage_withCommand {build : PackageBuild} (command : String)
    (succeeds : ofPackage robot package workspace = .ok build) :
    ofPackage robot { package with command } workspace =
      .ok (built robot { package with command } workspace) := by
  rcases ofPackage_eq_ok_iff.mp succeeds with ⟨⟨colons, copyable⟩, -⟩
  exact ofPackage_eq_ok_iff.mpr ⟨⟨colons, copyable.rosinstall, copyable.ssh, copyable.files⟩, rfl⟩

theorem runsScript_built (twoStage : (built robot package workspace).spec.twoStage = true) :
    RunsScript (runScript robot.distro workspace robot.ros.workspaceSetup package.command)
      (built robot package workspace).spec.run := by
  have run : (built robot package workspace).spec.run =
      shellArguments
        (runScript robot.distro workspace robot.ros.workspaceSetup package.command) :=
    if_pos twoStage
  rw [run]
  exact runsScript_shellArguments _

/-- A build in two stages runs a shell with a script that ends in the command of the package, and
the text that says so differs from that of every other command. -/
theorem runsCommand_of_ofPackage {build : PackageBuild}
    (succeeds : ofPackage robot package workspace = .ok build)
    (twoStage : build.spec.twoStage = true) :
    RunsScript ("source /opt/ros/" ++ robot.distro ++ "/setup.bash && source " ++ workspace ++
        "/" ++ build.spec.workspaceSetup ++ " && " ++ package.command) build.spec.run ∧
      ∀ command, ∃ other, ofPackage robot { package with command } workspace = .ok other ∧
        (other.spec.run = build.spec.run → command = package.command) := by
  rcases ofPackage_eq_ok_iff.mp succeeds with ⟨-, rfl⟩
  have runs := runsScript_built twoStage
  refine ⟨runs, fun command => ⟨_, ofPackage_withCommand command succeeds, fun same => ?_⟩⟩
  have otherTwoStage :
      (built robot { package with command } workspace).spec.twoStage = true :=
    twoStage
  have otherRuns := runsScript_built otherTwoStage
  rw [same] at otherRuns
  exact runScript_injective _ _ _ (otherRuns.script_eq runs)

/-- The sample package with a command that has quotes, a backslash, line ends, a control character
and a letter beyond ASCII. -/
def quotingPackage : ExpandedPackage :=
  { samplePackage with command := "say \"a\\b\"\r\n\x07 für" }

/-- What the package runs. -/
theorem quotingPackage_runsCommand :
    ∃ build, ofPackage sampleRobot quotingPackage "/ws" = .ok build ∧
      build.spec.twoStage = true ∧
      RunsScript ("source /opt/ros/humble/setup.bash && source /ws/install/setup.bash && " ++
        "say \"a\\b\"\r\n\x07 für") build.spec.run ∧
      ∀ command, ∃ other,
        ofPackage sampleRobot { quotingPackage with command } "/ws" = .ok other ∧
          (other.spec.run = build.spec.run → command = quotingPackage.command) := by
  have ran : ((ofPackage sampleRobot quotingPackage "/ws").toOption.map fun build =>
      (build.spec.twoStage, build.spec.workspaceSetup)) = some (true, "install/setup.bash") := by
    decide +kernel
  rcases exists_ok_of_map_eq_some ran with ⟨build, succeeds, view⟩
  rcases Prod.mk.inj view with ⟨twoStage, setup⟩
  have runs := runsCommand_of_ofPackage succeeds twoStage
  have script : "source /opt/ros/" ++ sampleRobot.distro ++ "/setup.bash && source " ++ "/ws" ++
      "/" ++ "install/setup.bash" ++ " && " ++ quotingPackage.command =
        "source /opt/ros/humble/setup.bash && source /ws/install/setup.bash && " ++
          "say \"a\\b\"\r\n\x07 für" := by
    decide +kernel
  rw [setup, script] at runs
  exact ⟨build, succeeds, twoStage, runs.1, runs.2⟩

end FleetCompose.PackageBuild
