import FleetCompose.Files.FileSystem
import FleetCompose.Proofs.Credentials
import FleetCompose.Proofs.OutputPlaces

/-!
# Host files of a build

A build ships one host file for every rosinstall file, key and bundled file of its package. Each
kind has a directory in the context, and in its directory a host file has a name that names
nothing but a file. So the host files of a build and its Dockerfile have places of their own, and
in a file system these places are below the context wherever it is.
-/

namespace FleetCompose

/-! ## Places in a file system -/

/-- A text that names a file in a directory. -/
structure IsFileName (name : String) : Prop where
  ne_empty : name ≠ ""
  ne_here : name ≠ "."
  ne_above : name ≠ ".."
  slash_free : '/' ∉ name.toList

theorem NamesFile.isFileName {path : String} (named : NamesFile path) :
    IsFileName (Text.finalComponent path) where
  ne_empty := named.1
  ne_here := named.2.1
  ne_above := named.2.2
  slash_free := Text.slash_notMem_finalComponent path

namespace Path

theorem isAbsolute_append {front : String} (nonempty : front ≠ "") (rest : String) :
    isAbsolute ⟨front ++ rest⟩ = isAbsolute ⟨front⟩ := by
  have chars : front.toList ≠ [] := by
    simpa using nonempty
  rw [isAbsolute, isAbsolute, String.toList_append, List.head?_append_of_ne_nil _ chars]

/-- From a directory, a path below another one is seen below that one. -/
theorem join_append (base : Path) {front : String} (nonempty : front ≠ "") (rest : String) :
    base.join (front ++ rest) = ⟨(base.join front).text ++ rest⟩ := by
  rw [join, join, isAbsolute_append nonempty]
  split
  · rfl
  · split
    · rw [String.append_assoc]
    · simp only [String.append_assoc]

theorem join_ne_empty (base : Path) {rest : String} (nonempty : rest ≠ "") :
    (base.join rest).text ≠ "" := by
  rw [join]
  split
  · exact nonempty
  · split
    · simp [nonempty]
    · simp [nonempty]

/-- A name behind a slash is the last segment. -/
theorem segments_append_name (directory : String) {name : String} (free : '/' ∉ name.toList) :
    segments ⟨directory ++ "/" ++ name⟩ = segments ⟨directory⟩ ++ [name] := by
  have chars : (directory ++ "/" ++ name).toList = directory.toList ++ '/' :: name.toList := by
    simp
  rw [segments, segments, chars, Text.splitOnChars_append_cons, Text.splitOnChars_of_notMem free,
    List.map_append, List.map_singleton, String.ofList_toList]

end Path

namespace FileSystem

variable {files : FileSystem}

theorem follow_append (files : FileSystem) (location : Location) (front rest : List String) :
    files.follow location (front ++ rest) =
      files.follow location front >>= fun next => files.follow next rest := by
  induction front generalizing location with
  | nil => rfl
  | cons segment front ih =>
      rw [List.cons_append, follow, follow]
      by_cases empty : segment = ""
      · rw [if_pos empty, if_pos empty]
        exact ih location
      · rw [if_neg empty, if_neg empty]
        cases files.step location segment with
        | error failure => rfl
        | ok next => exact ih next

/-- A file name leads into the directory and no further. -/
theorem follow_name {location next : Location} {name : String} (isName : IsFileName name)
    (followed : files.follow location [name] = .ok next) : next = location ++ [name] := by
  rw [follow, if_neg isName.ne_empty, step] at followed
  cases found : files.get? location with
  | none =>
      rw [found] at followed
      cases followed
  | some item =>
      rw [found] at followed
      cases item with
      | file content => cases followed
      | directory =>
          dsimp only at followed
          rw [if_neg isName.ne_here, if_neg isName.ne_above] at followed
          cases followed
          rfl

/-- What is behind a file name is in the directory in front of it. -/
theorem exists_locate_of_name {directory name : String} {location : Location}
    (nonempty : directory ≠ "") (isName : IsFileName name)
    (located : files.locate ⟨directory ++ "/" ++ name⟩ = .ok location) :
    ∃ home, files.locate ⟨directory⟩ = .ok home ∧ location = home ++ [name] := by
  have isEmpty : Path.isEmpty ⟨directory⟩ = false := by
    simpa [Path.isEmpty] using nonempty
  have longer : Path.isEmpty ⟨directory ++ "/" ++ name⟩ = false := by
    simp [Path.isEmpty]
  have origin : files.origin ⟨directory ++ "/" ++ name⟩ = files.origin ⟨directory⟩ := by
    rw [FileSystem.origin, FileSystem.origin, String.append_assoc,
      Path.isAbsolute_append nonempty]
  rw [locate, longer, Path.segments_append_name directory isName.slash_free, origin] at located
  rw [locate, isEmpty]
  rcases bind_eq_ok_iff.mp ((follow_append ..).symm.trans located) with ⟨home, inFront, followed⟩
  exact ⟨home, inFront, follow_name isName followed⟩

/-- The same, for what is seen from another directory. -/
theorem exists_locate_of_join {base : Path} {directory name : String} {location : Location}
    (nonempty : directory ≠ "") (isName : IsFileName name)
    (located : files.locate (base.join (directory ++ "/" ++ name)) = .ok location) :
    ∃ home, files.locate (base.join directory) = .ok home ∧ location = home ++ [name] := by
  rw [String.append_assoc, Path.join_append base nonempty, ← String.append_assoc] at located
  exact exists_locate_of_name (base.join_ne_empty nonempty) isName located

end FileSystem

/-! ## Entries -/

/-- An entry of a package for which a host file is shipped. -/
inductive HostEntry where
  | rosinstall (path : String)
  | key (path : String)
  | file (entry : String)
  deriving DecidableEq, Repr

namespace HostEntry

/-- The path of the host file. -/
def source : HostEntry → String
  | rosinstall path => path
  | key path => path
  | file entry => hostPath entry

/-- The directory of its kind. -/
def directory : HostEntry → String
  | rosinstall _ => "rosinstall"
  | key _ => "ssh"
  | file _ => "files"

/-- The place of the host file in a context. -/
def place (entry : HostEntry) : HostPlace := ⟨entry.directory, Text.finalComponent entry.source⟩

/-- The host file as it is shipped in a context. -/
def asset (context : String) (entry : HostEntry) : Asset :=
  ⟨entry.source, entry.place.path context⟩

theorem directory_mem (entry : HostEntry) :
    entry.directory ∈ ["rosinstall", "ssh", "files"] := by
  cases entry <;> simp [directory]

theorem isFileName_directory (entry : HostEntry) : IsFileName entry.directory := by
  have names : ∀ directory ∈ ["rosinstall", "ssh", "files"], directory ≠ "" ∧ directory ≠ "." ∧
      directory ≠ ".." ∧ '/' ∉ directory.toList := by
    decide
  rcases names entry.directory entry.directory_mem with ⟨nonempty, here, above, free⟩
  exact ⟨nonempty, here, above, free⟩

theorem wellFormed_place (entry : HostEntry) : entry.place.WellFormed where
  directory_mem := entry.directory_mem
  name_free := Text.slash_notMem_finalComponent entry.source

/-- Where an entry is shipped to, its place can be read off. -/
theorem place_inj {first second : HostEntry} {context : String}
    (same : (first.asset context).target = (second.asset context).target) :
    first.place = second.place :=
  ((HostPlace.path_inj first.wellFormed_place second.wellFormed_place).mp same).2

theorem target_ne_dockerfile (entry : HostEntry) (context : String) :
    (entry.asset context).target ≠ context ++ "/" ++ "Dockerfile" := by
  intro same
  -- The directory of the host file would be empty.
  have inContext : context ++ "/" ++ entry.directory = context :=
    ((Text.join_inj (Text.slash_notMem_finalComponent entry.source) (by decide)).mp same).1
  have lengths := congrArg String.length inContext
  have slash : "/".length = 1 := by decide
  rw [String.length_append, String.length_append, slash] at lengths
  omega

section FileSystems

variable {files : FileSystem} {base : Path} {context : String} {location : Location}
  {entry other : HostEntry} (nonempty : context ≠ "")
  (named : IsFileName (Text.finalComponent entry.source))
  (located : files.locate (base.join (entry.asset context).target) = .ok location)
include nonempty named located

/-- In a file system, a host file is in its directory below the context. -/
theorem exists_home :
    ∃ home, files.locate (base.join context) = .ok home ∧
      location = home ++ [entry.directory, Text.finalComponent entry.source] := by
  have longer : context ++ "/" ++ entry.directory ≠ "" := by
    simp
  rcases FileSystem.exists_locate_of_join longer named located with ⟨inside, below, rfl⟩
  rcases FileSystem.exists_locate_of_join nonempty entry.isFileName_directory below with
    ⟨home, atContext, rfl⟩
  refine ⟨home, atContext, ?_⟩
  rw [List.append_assoc]
  rfl

theorem not_located_at_dockerfile :
    files.locate (base.join (context ++ "/" ++ "Dockerfile")) ≠ .ok location := by
  intro atDockerfile
  have isName : IsFileName "Dockerfile" := ⟨by decide, by decide, by decide, by decide⟩
  rcases exists_home nonempty named located with ⟨home, atContext, rfl⟩
  rcases FileSystem.exists_locate_of_join nonempty isName atDockerfile with
    ⟨otherHome, otherContext, same⟩
  -- Both are below one location, but the host file is one directory deeper.
  cases atContext.symm.trans otherContext
  simp at same

theorem place_eq_of_located (otherNamed : IsFileName (Text.finalComponent other.source))
    (otherLocated : files.locate (base.join (other.asset context).target) = .ok location) :
    other.place = entry.place := by
  rcases exists_home nonempty named located with ⟨home, atContext, rfl⟩
  rcases exists_home nonempty otherNamed otherLocated with ⟨otherHome, otherContext, same⟩
  cases atContext.symm.trans otherContext
  have parts := List.append_cancel_left same
  simp only [List.cons.injEq, and_true] at parts
  rw [place, place, parts.1, parts.2]

end FileSystems

end HostEntry

namespace ExpandedPackage

variable {package : ExpandedPackage}

/-- All entries of a package for which host files are shipped. -/
def hostEntries (package : ExpandedPackage) : List HostEntry :=
  package.rosinstall.toList.map .rosinstall ++ package.ssh.map .key ++ package.files.map .file

theorem map_place_hostEntries (package : ExpandedPackage) :
    package.hostEntries.map HostEntry.place = package.hostPlaces := by
  simp only [hostEntries, hostPlaces, List.map_append, List.map_map]
  rfl

theorem HostFilesCopyable.isFileName (copyable : package.HostFilesCopyable) {entry : HostEntry}
    (member : entry ∈ package.hostEntries) : IsFileName (Text.finalComponent entry.source) := by
  apply NamesFile.isFileName
  simp only [hostEntries, List.mem_append, List.mem_map, Option.mem_toList] at member
  rcases member with (⟨path, written, rfl⟩ | ⟨path, listed, rfl⟩) | ⟨entry, listed, rfl⟩
  · exact copyable.rosinstall path written
  · exact copyable.ssh.namesFile path listed
  · exact copyable.files.namesFile _ (List.mem_map_of_mem listed)

end ExpandedPackage

/-! ## Builds -/

/-- The host files of a build: one for each entry, at a place in the context that nothing else of
the build has, whether places are compared as paths or as locations in a file system. -/
structure BuildSpec.Ships (build : BuildSpec) (entries : List HostEntry) : Prop where
  assets_eq : build.assets = entries.map (HostEntry.asset build.context)
  entries_nodup : entries.Nodup
  existsUnique_entry : ∀ asset ∈ build.assets,
    ∃! entry, entry ∈ entries ∧ entry.asset build.context = asset
  targets_nodup : (build.assets.map Asset.target).Nodup
  target_ne : ∀ asset ∈ build.assets, asset.target ≠ build.context ++ "/Dockerfile"
  exists_name : ∀ asset ∈ build.assets, ∃ directory ∈ ["rosinstall", "ssh", "files"], ∃ name,
    IsFileName name ∧ asset.target = build.context ++ "/" ++ directory ++ "/" ++ name
  located_inside : ∀ (files : FileSystem) (base : Path), ∀ asset ∈ build.assets, ∀ location,
    files.locate (base.join asset.target) = .ok location →
      ∃ directory ∈ ["rosinstall", "ssh", "files"], ∃ home name,
        files.locate (base.join build.context) = .ok home ∧ location = home ++ [directory, name]
  located_apart : ∀ (files : FileSystem) (base : Path), ∀ asset ∈ build.assets, ∀ location,
    files.locate (base.join asset.target) = .ok location →
      files.locate (base.join (build.context ++ "/Dockerfile")) ≠ .ok location ∧
        ∀ other ∈ build.assets,
          files.locate (base.join other.target) = .ok location → other = asset

/-- Entries with places of their own, all of which end in file names, are shipped. -/
theorem BuildSpec.ships_of_assets_eq {build : BuildSpec} {entries : List HostEntry}
    (nonempty : build.context ≠ "")
    (assets_eq : build.assets = entries.map (HostEntry.asset build.context))
    (places : (entries.map HostEntry.place).Nodup)
    (named : ∀ entry ∈ entries, IsFileName (Text.finalComponent entry.source)) :
    build.Ships entries := by
  have dockerfile : build.context ++ "/Dockerfile" = build.context ++ "/" ++ "Dockerfile" :=
    build.dockerfile_path
  have target_inj : ∀ first ∈ entries, ∀ second ∈ entries,
      (first.asset build.context).target = (second.asset build.context).target →
        first = second := by
    intro first firstMember second secondMember same
    exact List.inj_on_of_nodup_map places firstMember secondMember (HostEntry.place_inj same)
  have shipped : ∀ asset ∈ build.assets, ∃ entry ∈ entries, entry.asset build.context = asset := by
    intro asset member
    rw [assets_eq] at member
    exact List.mem_map.mp member
  constructor
  case assets_eq => exact assets_eq
  case entries_nodup => exact places.of_map
  case existsUnique_entry =>
    intro asset member
    rcases shipped asset member with ⟨entry, entryMember, rfl⟩
    refine ⟨entry, ⟨entryMember, rfl⟩, ?_⟩
    intro other given
    exact target_inj other given.1 entry entryMember (congrArg Asset.target given.2)
  case targets_nodup =>
    rw [assets_eq, List.map_map]
    exact places.of_map.map_on target_inj
  case target_ne =>
    intro asset member
    rcases shipped asset member with ⟨entry, -, rfl⟩
    rw [dockerfile]
    exact entry.target_ne_dockerfile build.context
  case exists_name =>
    intro asset member
    rcases shipped asset member with ⟨entry, entryMember, rfl⟩
    exact ⟨entry.directory, entry.directory_mem, _, named entry entryMember, rfl⟩
  case located_inside =>
    intro files base asset member location located
    rcases shipped asset member with ⟨entry, entryMember, rfl⟩
    rcases HostEntry.exists_home nonempty (named entry entryMember) located with
      ⟨home, atContext, rfl⟩
    exact ⟨entry.directory, entry.directory_mem, home, _, atContext, rfl⟩
  case located_apart =>
    intro files base asset member location located
    rcases shipped asset member with ⟨entry, entryMember, rfl⟩
    have isName := named entry entryMember
    rw [dockerfile]
    refine ⟨HostEntry.not_located_at_dockerfile nonempty isName located, ?_⟩
    intro other otherMember otherLocated
    rcases shipped other otherMember with ⟨otherEntry, otherEntryMember, rfl⟩
    have place := HostEntry.place_eq_of_located nonempty isName located
      (named otherEntry otherEntryMember) otherLocated
    rw [List.inj_on_of_nodup_map places otherEntryMember entryMember place]

namespace PackageBuild

theorem context_ne_empty (path service : String) : context path service ≠ "" := by
  unfold context
  dsimp only
  generalize (if (Text.dropTrailingSlashes (Text.trim path)).isEmpty then service
    else Text.dropTrailingSlashes (Text.trim path) ++ "/" ++ service) = joined
  split
  · next chars =>
      rintro rfl
      cases chars
  · next chars =>
      rintro rfl
      cases chars
  · simp

/-- The host files of a build are those of the entries, one after the other. -/
theorem assets_built_eq (robot : ExpandedRobot) (package : ExpandedPackage) (workspace : String) :
    (built robot package workspace).spec.assets =
      package.hostEntries.map
        (HostEntry.asset (built robot package workspace).spec.context) := by
  simp only [assets_built, context_built, keyAssets, ExpandedPackage.hostEntries, List.map_append,
    List.map_map, Option.toList_map, Function.comp_def, rosinstallPlace_eq, keyPlace_eq,
    filePlace_eq, HostEntry.asset, HostEntry.place, HostPlace.path, HostEntry.source,
    HostEntry.directory, String.append_assoc]
  rfl

/-- The host files of a package that is built are shipped: one for each of its entries, and none
in the place of another one or of the Dockerfile. -/
theorem ships_of_ofPackage {robot : ExpandedRobot} {package : ExpandedPackage}
    {workspace : String} {build : PackageBuild}
    (succeeds : ofPackage robot package workspace = .ok build) :
    build.spec.Ships package.hostEntries := by
  rcases ofPackage_eq_ok_iff.mp succeeds with ⟨⟨-, copyable⟩, rfl⟩
  have nonempty : (built robot package workspace).spec.context ≠ "" := by
    rw [context_built]
    exact context_ne_empty _ _
  have places : (package.hostEntries.map HostEntry.place).Nodup := by
    rw [package.map_place_hostEntries]
    exact copyable.nodup_hostPlaces
  exact BuildSpec.ships_of_assets_eq nonempty (assets_built_eq robot package workspace) places
    fun entry member => copyable.isFileName member

/-- A package with a rosinstall file that is named like a Dockerfile, and with one name in all of
its directories. -/
def namesakePackage : ExpandedPackage :=
  { samplePackage with
    rosinstall := some "deps/Dockerfile"
    ssh := ["keys/Dockerfile/", "keys/deploy"]
    files := ["config/Dockerfile : /etc/Dockerfile", "config/deploy:/etc/deploy"] }

/-- One name in all directories, and still no place is taken twice. -/
theorem namesakePackage_ships :
    ∃ build, ofPackage sampleRobot namesakePackage "/ws" = .ok build ∧
      build.spec.assets.map Asset.target =
        ["rosinstall/Dockerfile", "ssh/Dockerfile", "ssh/deploy", "files/Dockerfile",
          "files/deploy"].map ("./src/driver/carrier-driver/" ++ ·) ∧
      build.spec.Ships namesakePackage.hostEntries := by
  have ran : ((ofPackage sampleRobot namesakePackage "/ws").toOption.map fun build =>
      build.spec.assets.map Asset.target) =
        some (["rosinstall/Dockerfile", "ssh/Dockerfile", "ssh/deploy", "files/Dockerfile",
          "files/deploy"].map ("./src/driver/carrier-driver/" ++ ·)) := by
    decide +kernel
  rcases exists_ok_of_map_eq_some ran with ⟨build, succeeds, targets⟩
  exact ⟨build, succeeds, targets, ships_of_ofPackage succeeds⟩

end PackageBuild

end FleetCompose
