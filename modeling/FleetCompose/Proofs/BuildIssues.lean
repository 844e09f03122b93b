import FleetCompose.Proofs.Credentials

/-!
# Why a package is not built

A package fails to be built only for its host paths and for the form of its file entries. The
paths are looked at in a fixed order, the rosinstall file first, then the keys, then the bundled
files, and the failure tells the first one that has no name or whose name is taken. Entries of
loaded packages always have the right form: a colon that is written stays where it is, whatever
the variables are bound to.
-/

namespace FleetCompose

/-! ## Issues -/

/-- Every file entry has the form `HOST:CONTAINER`. -/
def ExpandedPackage.FilesFormed (package : ExpandedPackage) : Prop :=
  ∀ entry ∈ package.files, ':' ∈ entry.toList

/-- The host parts of the file entries that have one. -/
def ExpandedPackage.hostParts (package : ExpandedPackage) : List String :=
  (package.files.filter fun entry => ':' ∈ entry.toList).map hostPath

/-- The ways in which a package can fail to be built. -/
inductive ExpandedPackage.Unbuildable (package : ExpandedPackage) : Prop where
  | rosinstall {path : String} (written : package.rosinstall = some path)
      (unnamed : ¬NamesFile path)
  | key {path : String} (member : path ∈ package.ssh) (unnamed : ¬NamesFile path)
  | sameKeys (repeated : ¬(package.ssh.map Text.finalComponent).Nodup)
  | malformed {entry : String} (member : entry ∈ package.files) (colonless : ':' ∉ entry.toList)
  | file {path : String} (member : path ∈ package.hostParts) (unnamed : ¬NamesFile path)
  | sameFiles (repeated : ¬(package.hostParts.map Text.finalComponent).Nodup)

/-- What is wrong with a path that is to be copied next to earlier ones. -/
inductive PathIssue (earlier : List String) (path : String) : BuildIssue → Prop where
  | unnamed (noName : ¬NamesFile path) : PathIssue earlier path (.namesNoFile path)
  | taken (named : NamesFile path)
      (inFront : Text.finalComponent path ∈ earlier.map Text.finalComponent) :
      PathIssue earlier path (.sameFileName (Text.finalComponent path))

/-- What is wrong with a file entry behind earlier ones. -/
inductive EntryIssue (earlier : List String) (entry : String) : BuildIssue → Prop where
  | malformed (colonless : ':' ∉ entry.toList) : EntryIssue earlier entry (.malformedFile entry)
  | host {issue : BuildIssue} (colon : ':' ∈ entry.toList)
      (wrong : PathIssue (earlier.map hostPath) (hostPath entry) issue) :
      EntryIssue earlier entry issue

/-- Entries of files that can be copied into one directory. -/
structure CopyableEntries (entries : List String) : Prop where
  colon_mem : ∀ entry ∈ entries, ':' ∈ entry.toList
  copyable : Copyable (entries.map hostPath)

/-- The first thing that is wrong with a package: nothing is wrong with what stands in front. -/
inductive ExpandedPackage.FirstIssue (package : ExpandedPackage) : BuildIssue → Prop where
  | rosinstall {path : String} (written : package.rosinstall = some path)
      (unnamed : ¬NamesFile path) : package.FirstIssue (.namesNoFile path)
  | key {before after : List String} {path : String} {issue : BuildIssue}
      (rosinstall : ∀ path ∈ package.rosinstall, NamesFile path)
      (ssh_eq : package.ssh = before ++ path :: after) (inFront : Copyable before)
      (wrong : PathIssue before path issue) : package.FirstIssue issue
  | file {before after : List String} {entry : String} {issue : BuildIssue}
      (rosinstall : ∀ path ∈ package.rosinstall, NamesFile path) (ssh : Copyable package.ssh)
      (files_eq : package.files = before ++ entry :: after) (inFront : CopyableEntries before)
      (wrong : EntryIssue before entry issue) : package.FirstIssue issue

/-! ## Failures of names -/

namespace PackageBuild

theorem fileName_eq_error_iff {path : String} {issue : BuildIssue} :
    fileName path = .error issue ↔ ¬NamesFile path ∧ issue = .namesNoFile path := by
  rw [fileName, NamesFile, Text.afterLast_dropTrailingSlashes]
  generalize Text.finalComponent path = component
  by_cases empty : component = ""
  · simpa [empty] using eq_comm
  · by_cases here : component = "."
    · simpa [here] using eq_comm
    · by_cases above : component = ".."
      · simpa [above] using eq_comm
      · simp [empty, here, above]

/-- A name cannot be taken exactly if there is something wrong with its path. -/
theorem claimName_eq_error_iff {earlier : List String} {path : String} {issue : BuildIssue} :
    claimName (earlier.map Text.finalComponent) path = .error issue ↔
      PathIssue earlier path issue := by
  rw [claimName, bind_eq_error_iff]
  constructor
  · intro failed
    rcases failed with unnamed | ⟨name, read, refused⟩
    · rcases fileName_eq_error_iff.mp unnamed with ⟨noName, rfl⟩
      exact .unnamed noName
    · rcases fileName_eq_ok_iff.mp read with ⟨named, rfl⟩
      by_cases inFront : Text.finalComponent path ∈ earlier.map Text.finalComponent
      · rw [if_pos inFront] at refused
        cases refused
        exact .taken named inFront
      · rw [if_neg inFront] at refused
        cases refused
  · intro wrong
    cases wrong with
    | unnamed noName => exact .inl (fileName_eq_error_iff.mpr ⟨noName, rfl⟩)
    | taken named inFront =>
        refine .inr ⟨_, fileName_eq_ok_iff.mpr ⟨named, rfl⟩, ?_⟩
        rw [if_pos inFront]
        rfl

theorem rosinstallFile_eq_error_iff {field : Option String} {issue : BuildIssue} :
    rosinstallFile field = .error issue ↔
      ∃ path, field = some path ∧ ¬NamesFile path ∧ issue = .namesNoFile path := by
  cases field with
  | none => simp [rosinstallFile]
  | some path => simp [rosinstallFile, map_eq_error_iff, fileName_eq_error_iff]

theorem keyFile_eq_error_iff {before : List String} {path : String} {issue : BuildIssue} :
    keyFile (before.map namedFile) path = .error issue ↔ PathIssue before path issue := by
  rw [keyFile, map_eq_error_iff, List.map_map]
  exact claimName_eq_error_iff

theorem bundledFile_eq_error_iff {before : List String} {entry : String} {issue : BuildIssue} :
    bundledFile (before.map described) entry = .error issue ↔ EntryIssue before entry issue := by
  have names : (before.map described).map BundledFile.name =
      (before.map hostPath).map Text.finalComponent := by
    rw [List.map_map, List.map_map]
    rfl
  rw [bundledFile]
  cases parts : Text.splitFirst ':' entry with
  | none =>
      have colonless := Text.splitFirst_eq_none_iff.mp parts
      constructor
      · intro failed
        cases failed
        exact .malformed colonless
      · intro wrong
        cases wrong with
        | malformed => rfl
        | host colon => exact absurd colon colonless
  | some pair =>
      have colon : ':' ∈ entry.toList := Text.mem_of_splitFirst parts
      dsimp only
      rw [map_eq_error_iff, ← hostPath_of_splitFirst parts, names, claimName_eq_error_iff]
      constructor
      · exact EntryIssue.host colon
      · intro wrong
        cases wrong with
        | malformed colonless => exact absurd colon colonless
        | host _ wrong => exact wrong

/-! ## Failures of packages -/

theorem keyFiles_eq_error_iff {paths : List String} {issue : BuildIssue} :
    accumulate keyFile [] paths = .error issue ↔
      ∃ before path after, paths = before ++ path :: after ∧ Copyable before ∧
        PathIssue before path issue := by
  rw [keyFile_reads.keyed_eq_error_iff KeyFile.name]
  constructor
  · intro given
    rcases given with ⟨before, path, after, whole, ⟨named, nodup⟩, refused⟩
    exact ⟨before, path, after, whole, ⟨named, nodup⟩, keyFile_eq_error_iff.mp refused⟩
  · intro given
    rcases given with ⟨before, path, after, whole, copyable, wrong⟩
    exact ⟨before, path, after, whole, ⟨copyable.namesFile, copyable.nodup⟩,
      keyFile_eq_error_iff.mpr wrong⟩

theorem bundledFiles_eq_error_iff {entries : List String} {issue : BuildIssue} :
    accumulate bundledFile [] entries = .error issue ↔
      ∃ before entry after, entries = before ++ entry :: after ∧ CopyableEntries before ∧
        EntryIssue before entry issue := by
  have names : ∀ before : List String, (before.map fun earlier => (described earlier).name) =
      (before.map hostPath).map Text.finalComponent := by
    intro before
    rw [List.map_map]
    rfl
  rw [bundledFile_reads.keyed_eq_error_iff BundledFile.name]
  constructor
  · intro given
    rcases given with ⟨before, entry, after, whole, ⟨read, nodup⟩, refused⟩
    rw [names] at nodup
    refine ⟨before, entry, after, whole, ⟨fun earlier member => (read earlier member).1, ?_, nodup⟩,
      bundledFile_eq_error_iff.mp refused⟩
    exact List.forall_mem_map.mpr fun earlier member => (read earlier member).2
  · intro given
    rcases given with ⟨before, entry, after, whole, copyable, wrong⟩
    refine ⟨before, entry, after, whole, ⟨fun earlier member => ?_, ?_⟩,
      bundledFile_eq_error_iff.mpr wrong⟩
    · exact ⟨copyable.colon_mem earlier member,
        copyable.copyable.namesFile _ (List.mem_map_of_mem member)⟩
    · rw [names]
      exact copyable.copyable.nodup

/-- The failure of a package is the first thing that is wrong with it. -/
theorem ofPackage_eq_error_iff {robot : ExpandedRobot} {package : ExpandedPackage}
    {workspace : String} {error : BuildError} :
    ofPackage robot package workspace = .error error ↔
      error.service = package.service ∧ package.FirstIssue error.issue := by
  -- A reading is reached only if those in front of it succeed, and assembling cannot fail.
  have answered : ∀ build issue, (pure build : Except BuildIssue PackageBuild) ≠ .error issue := by
    intro build issue equal
    cases equal
  simp only [ofPackage_eq, mapError_eq_error_iff, bind_eq_error_iff, answered, and_false,
    exists_false, or_false, rosinstallFile_eq_error_iff, rosinstallFile_eq_ok_iff,
    keyFiles_eq_error_iff, keyFile_reads.keyed_eq_ok_iff KeyFile.name, bundledFiles_eq_error_iff]
  constructor
  · intro given
    rcases given with ⟨issue, failed, rfl⟩
    refine ⟨rfl, ?_⟩
    rcases failed with ⟨path, written, unnamed, rfl⟩ | ⟨_, ⟨rosinstall, -⟩, failed⟩
    · exact .rosinstall written unnamed
    · rcases failed with ⟨before, path, after, whole, inFront, wrong⟩ | ⟨_, keys, failed⟩
      · exact .key rosinstall whole inFront wrong
      · rcases keys with ⟨named, nodup, -⟩
        rcases failed with ⟨before, entry, after, whole, inFront, wrong⟩
        exact .file rosinstall ⟨named, nodup⟩ whole inFront wrong
  · intro given
    rcases error with ⟨service, issue⟩
    rcases given with ⟨rfl, first⟩
    refine ⟨issue, ?_, rfl⟩
    cases first with
    | rosinstall written unnamed => exact .inl ⟨_, written, unnamed, rfl⟩
    | key rosinstall whole inFront wrong =>
        exact .inr ⟨_, ⟨rosinstall, rfl⟩, .inl ⟨_, _, _, whole, inFront, wrong⟩⟩
    | file rosinstall ssh whole inFront wrong =>
        exact .inr ⟨_, ⟨rosinstall, rfl⟩, .inr ⟨_, ⟨ssh.namesFile, ssh.nodup, rfl⟩,
          ⟨_, _, _, whole, inFront, wrong⟩⟩⟩

end PackageBuild

/-! ## Packages without issues -/

/-- Nothing is wrong with a package exactly if its entries have colons and its host files can be
copied. -/
theorem ExpandedPackage.not_unbuildable_iff {package : ExpandedPackage} :
    ¬package.Unbuildable ↔
      (∀ entry ∈ package.files, ':' ∈ entry.toList) ∧ package.HostFilesCopyable := by
  -- Host parts can be compared with paths only once all entries have them.
  have hostParts_eq (colons : ∀ entry ∈ package.files, ':' ∈ entry.toList) :
      package.hostParts = package.files.map hostPath := by
    rw [hostParts, List.filter_eq_self.mpr]
    simpa using colons
  constructor
  · intro sound
    have colons : ∀ entry ∈ package.files, ':' ∈ entry.toList := by
      intro entry member
      by_contra colonless
      exact sound (.malformed member colonless)
    refine ⟨colons, ?_, ⟨?_, ?_⟩, ?_, ?_⟩
    · intro path written
      by_contra unnamed
      exact sound (.rosinstall written unnamed)
    · intro path member
      by_contra unnamed
      exact sound (.key member unnamed)
    · by_contra repeated
      exact sound (.sameKeys repeated)
    · intro path member
      by_contra unnamed
      rw [← hostParts_eq colons] at member
      exact sound (.file member unnamed)
    · by_contra repeated
      rw [← hostParts_eq colons] at repeated
      exact sound (.sameFiles repeated)
  · intro given unbuildable
    rcases given with ⟨colons, copyable⟩
    cases unbuildable with
    | rosinstall written unnamed => exact unnamed (copyable.rosinstall _ written)
    | key member unnamed => exact unnamed (copyable.ssh.namesFile _ member)
    | sameKeys repeated => exact repeated copyable.ssh.nodup
    | malformed member colonless => exact colonless (colons _ member)
    | file member unnamed =>
        rw [hostParts_eq colons] at member
        exact unnamed (copyable.files.namesFile _ member)
    | sameFiles repeated =>
        rw [hostParts_eq colons] at repeated
        exact repeated copyable.files.nodup

namespace PackageBuild

/-- A package fails to be built exactly in one of these ways. -/
theorem exists_error_iff {robot : ExpandedRobot} {package : ExpandedPackage}
    {workspace : String} :
    (∃ error, ofPackage robot package workspace = .error error) ↔ package.Unbuildable := by
  rw [exists_error_iff_not_exists_ok, exists_ofPackage_iff, ← ExpandedPackage.not_unbuildable_iff,
    not_not]

/-- A package is not built exactly if something is wrong with its host paths or file entries, and
the failure is the first such thing. Whatever the variables are bound to, the file entries of a
loaded package have their colons. -/
theorem failures_of_ofPackage :
    (∀ (robot : ExpandedRobot) (package : ExpandedPackage) (workspace : String),
      ((∃ error, ofPackage robot package workspace = .error error) ↔ package.Unbuildable) ∧
        ∀ error, ofPackage robot package workspace = .error error ↔
          error.service = package.service ∧ package.FirstIssue error.issue) ∧
      ∀ (settings : Settings) (doc : Document) (fleet : Fleet),
        (loadFleet settings doc).outcome = .ok fleet →
          (∀ package ∈ fleet.packages, ∀ scope robot copy,
            Fleet.expandPackage scope robot package = .ok copy → copy.FilesFormed) ∧
          ∀ expanded, fleet.expand.outcome = .ok expanded →
            ∀ robot ∈ expanded.robots, ∀ package ∈ robot.packages, package.FilesFormed := by
  refine ⟨fun _ _ _ => ⟨exists_error_iff, fun _ => ofPackage_eq_error_iff⟩, ?_⟩
  intro settings doc fleet loaded
  rcases Document.loadFleet_eq_ok_iff.mp loaded with ⟨wellFormed, rfl⟩
  constructor
  · intro package member scope robot copy expands
    rw [Fleet.expandPackage_eq, verdict_eq_ok_iff] at expands
    rw [expands.2]
    exact fun entry => wellFormed.colon_mem_copyFor member
  · intro expanded expands robot robotMember package packageMember
    rw [Fleet.outcome_expand, verdict_eq_ok_iff] at expands
    rw [expands.2] at robotMember
    exact fun entry => wellFormed.colon_mem_files robotMember packageMember

/-- A package with two keys of one name, and with an entry without a colon behind them. -/
def clashingPackage : ExpandedPackage :=
  { samplePackage with ssh := ["keys/deploy", "keys/mirror", "backup/deploy//"], files := ["map"] }

/-- The name of the keys is what the failure tells, and the packages of the sample document have
file entries with colons. -/
theorem clashingPackage_failure :
    ofPackage sampleRobot clashingPackage "/ws" =
        .error ⟨"carrier-driver", .sameFileName "deploy"⟩ ∧
      clashingPackage.Unbuildable ∧ clashingPackage.FirstIssue (.sameFileName "deploy") ∧
      ∃ fleet expanded, (loadFleet .standard Document.sample).outcome = .ok fleet ∧
        fleet.expand.outcome = .ok expanded ∧
        (∃ robot ∈ expanded.robots, ∃ package ∈ robot.packages, package.files ≠ []) ∧
        ∀ robot ∈ expanded.robots, ∀ package ∈ robot.packages, package.FilesFormed := by
  have failed : ofPackage sampleRobot clashingPackage "/ws" =
      .error ⟨"carrier-driver", .sameFileName "deploy"⟩ := by
    decide +kernel
  have clashing := failures_of_ofPackage.1 sampleRobot clashingPackage "/ws"
  refine ⟨failed, clashing.1.mp ⟨_, failed⟩, ((clashing.2 _).mp failed).2, ?_⟩
  have ran : ((loadFleet .standard Document.sample).outcome.toOption.bind fun fleet =>
      fleet.expand.outcome.toOption.map fun expanded =>
        expanded.robots.any fun robot => robot.packages.any fun package =>
          !package.files.isEmpty) = some true := by
    decide +kernel
  rcases Document.exists_loadFleet_sample with ⟨fleet, loaded⟩
  rw [loaded] at ran
  rcases exists_ok_of_map_eq_some ran with ⟨expanded, expands, present⟩
  refine ⟨fleet, expanded, loaded, expands, ?_, ?_⟩
  · simpa using present
  · exact (failures_of_ofPackage.2 .standard Document.sample fleet loaded).2 expanded expands

end PackageBuild

end FleetCompose
