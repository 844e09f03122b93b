import FleetCompose.Proofs.BlankTexts
import FleetCompose.Proofs.RosField
import FleetCompose.Settings.Source

/-!
# What a `ros` text says

A `ros` text is read exactly if it names a distribution of the settings and, behind a colon, a
number of 32 bits. What was read can be written down with its metadata and is read again. Settings
that come from a file never have a distribution in both lists, so every distribution has one family,
whichever list is searched first.
-/

namespace FleetCompose

/-! ## Families of distributions -/

namespace Settings

/-- The lists of the distributions of both families. -/
def distros (settings : Settings) : RosFamily → List String
  | .ros1 => settings.ros1Distros
  | .ros2 => settings.ros2Distros

/-- No distribution belongs to both families. -/
def Disjoint (settings : Settings) : Prop :=
  ∀ distro ∈ settings.ros1Distros, distro ∉ settings.ros2Distros

/-- Between disjoint lists the order in which they are searched does not matter. -/
theorem Disjoint.familyOf_eq_some_iff {settings : Settings} (disjoint : settings.Disjoint)
    {distro : String} {family : RosFamily} :
    settings.familyOf distro = some family ↔ distro ∈ settings.distros family := by
  rw [familyOf]
  by_cases first : distro ∈ settings.ros1Distros
  · have notSecond := disjoint distro first
    cases family <;> simp [distros, first, notSecond]
  · cases family <;> simp [distros, first]

end Settings

/-- The list of a family that counts: the one of the file, or the built-in one. -/
def SettingsFile.distros (file : SettingsFile) : RosFamily → List String
  | .ros1 => file.ros1Distros.getD Settings.standard.ros1Distros
  | .ros2 => file.ros2Distros.getD Settings.standard.ros2Distros

namespace Settings

theorem disjoint_of_ofSource {source : String} {settings : Settings}
    (read : ofSource source = .ok settings) : settings.Disjoint := by
  rw [ofSource] at read
  split at read
  · cases read
  · exact disjoint_of_ofFile (mapError_eq_ok_iff.mp read)

/-- A file whose lists overlap is refused, and a common distribution is named. -/
theorem exists_ambiguous_of_overlap {source : String} {file : SettingsFile}
    (read : SettingsFile.ofSource source = .ok file) {distro : String}
    (first : distro ∈ file.distros .ros1) (second : distro ∈ file.distros .ros2) :
    ∃ common, common ∈ file.distros .ros1 ∧ common ∈ file.distros .ros2 ∧
      ofSource source = .error (.ambiguous common) := by
  cases found : (overlay file).ros1Distros.find? (· ∈ (overlay file).ros2Distros) with
  | none =>
      have apart := List.find?_eq_none.mp found distro first
      exact absurd (decide_eq_true second) apart
  | some common =>
      refine ⟨common, List.mem_of_find?_eq_some found, ?_, ?_⟩
      · exact of_decide_eq_true (List.find?_some (p := (· ∈ (overlay file).ros2Distros)) found)
      · rw [ofSource, read]
        dsimp only
        rw [ofFile, found]
        rfl

end Settings

namespace RosSpec

/-! ## Decimal metadata -/

theorem parseMetadata_repr (metadata : UInt32) :
    parseMetadata (Nat.repr metadata.toNat) = .ok metadata := by
  have value : digitsValue 0 (Nat.repr metadata.toNat).toList = metadata.toNat := by
    rw [Nat.toList_repr]
    exact Nat.ofDigitChars_toDigits (by decide) (by decide)
  rw [parseMetadata_eq_ok_iff, value]
  refine ⟨⟨Nat.repr_ne_empty, ?_, ?_⟩, by simp⟩
  · intro c member
    rw [Nat.toList_repr] at member
    exact Nat.isDigit_of_mem_toDigits (by decide) (by decide) member
  · rw [value]
    exact metadata.toNat_lt

/-! ## Reading -/

/-- What a text with a distribution and perhaps a metadata says. -/
structure ReadAs (settings : Settings) (text : String) (spec : RosSpec) : Prop where
  distro_eq : spec.distro = distroPart text
  family : settings.familyOf spec.distro = some spec.family
  written : ∀ digits, metadataPart? text = some digits →
    spec.explicitMetadata = true ∧ spec.metadata.toNat = Nat.ofDigitChars 10 digits.toList 0
  unwritten : metadataPart? text = none →
    spec.explicitMetadata = false ∧ spec.metadata = settings.defaultMetadata spec.family

variable {settings : Settings} {text : String} {spec : RosSpec}

theorem exists_parse_iff : (∃ spec, parse settings text = .ok spec) ↔ Readable settings text := by
  simp only [parse_eq_ok_iff, exists_and_left, exists_eq, and_true]

theorem Readable.readAs (readable : Readable settings text) :
    ReadAs settings text (described settings text) where
  distro_eq := rfl
  family := by
    obtain ⟨family, known⟩ := Settings.exists_familyOf_iff.mpr readable.distro_known
    simp [described, describedFamily, known]
  written := by
    intro digits has
    have metadata := readable.metadata digits has
    refine ⟨by simp [described, has], ?_⟩
    rw [described, has]
    exact UInt32.toNat_ofNat_of_lt metadata.value_lt
  unwritten := by
    intro none
    simp [described, none]

/-- The distribution of a text is trimmed and has no colon. -/
theorem distroPart_append (text last : String) :
    distroPart (distroPart text ++ ":" ++ last) = distroPart text ∧
      metadataPart? (distroPart text ++ ":" ++ last) = some (Text.trim last) := by
  have free : ':' ∉ (distroPart text).toList := fun member =>
    Text.notMem_beforeFirst ':' text (Text.mem_of_mem_trim member)
  have parts : Text.splitFirst ':' (distroPart text ++ ":" ++ last) =
      some (distroPart text, last) :=
    Text.splitFirst_eq_some_iff.mpr ⟨by simp, free⟩
  constructor
  · rw [distroPart, Text.beforeFirst_of_splitFirst parts, distroPart, Text.trim_trim]
  · rw [metadataPart?, parts, Option.map_some]

/-- The distribution with any metadata in decimal is read back. -/
theorem parse_append_repr (readable : Readable settings text) (metadata : UInt32) :
    parse settings (distroPart text ++ ":" ++ Nat.repr metadata.toNat) =
      .ok ⟨distroPart text, describedFamily settings text, metadata, true⟩ := by
  obtain ⟨distro_eq, metadata_eq⟩ := distroPart_append text (Nat.repr metadata.toNat)
  have filled : (distroPart text).isEmpty = false := by simpa using readable.distro_ne
  have known : settings.familyOf (distroPart text) = some (describedFamily settings text) :=
    readable.readAs.family
  rw [parse_eq, distro_eq, metadata_eq, filled, known, Text.trim_repr]
  dsimp only
  rw [parseMetadata_repr]
  rfl

/-- A `ros` text is read exactly if its distribution is listed and its metadata, if it has any, is a
number of 32 bits; it is read as what it says, and so is what was read once it is written down with
its metadata. Settings from a file list every distribution in one family, and a file that does not
is refused. -/
theorem parse_readAs (settings : Settings) (text : String) :
    ((∃ spec, parse settings text = .ok spec) ↔ Readable settings text) ∧
      (∀ spec, parse settings text = .ok spec → ReadAs settings text spec ∧
        parse settings (spec.distro ++ ":" ++ spec.metadataText) =
          .ok { spec with explicitMetadata := true }) ∧
      (∀ source, Settings.ofSource source = .ok settings → settings.Disjoint ∧
        ∀ distro family, settings.familyOf distro = some family ↔
          distro ∈ settings.distros family) ∧
      ∀ source file, SettingsFile.ofSource source = .ok file →
        ∀ distro, distro ∈ file.distros .ros1 → distro ∈ file.distros .ros2 →
          ∃ common, common ∈ file.distros .ros1 ∧ common ∈ file.distros .ros2 ∧
            Settings.ofSource source = .error (.ambiguous common) := by
  refine ⟨exists_parse_iff, ?_, ?_, ?_⟩
  · intro spec read
    obtain ⟨readable, rfl⟩ := parse_eq_ok_iff.mp read
    exact ⟨readable.readAs, parse_append_repr readable _⟩
  · intro source read
    have disjoint := Settings.disjoint_of_ofSource read
    exact ⟨disjoint, fun _ _ => disjoint.familyOf_eq_some_iff⟩
  · intro source file read distro first second
    exact Settings.exists_ambiguous_of_overlap read first second

/-- A text with blanks and leading zeros, under settings from a file; and a file that lists a
built-in distribution of the other family. -/
theorem noetic_readAs :
    ∃ settings, Settings.ofSource "distros.ros2 = ['lyrical']" = .ok settings ∧
      settings.Disjoint ∧
      ∃ spec, parse settings " noetic : 007" = .ok spec ∧
        ReadAs settings " noetic : 007" spec ∧ parse settings "noetic:7" = .ok spec ∧
        ∃ file common, SettingsFile.ofSource "distros.ros2 = ['noetic']" = .ok file ∧
          Settings.ofSource "distros.ros2 = ['noetic']" = .error (.ambiguous common) := by
  have ran : (Settings.ofSource "distros.ros2 = ['lyrical']").toOption.map id =
      some { Settings.standard with ros2Distros := ["lyrical"] } := by
    decide +kernel
  have refused : (SettingsFile.ofSource "distros.ros2 = ['noetic']").toOption.map id =
      some { SettingsFile.blank with ros2Distros := some ["noetic"] } := by
    decide +kernel
  obtain ⟨settings, fromSource, rfl⟩ := exists_ok_of_map_eq_some ran
  obtain ⟨file, fileRead, rfl⟩ := exists_ok_of_map_eq_some refused
  have parsed : parse { Settings.standard with ros2Distros := ["lyrical"] } " noetic : 007" =
      .ok ⟨"noetic", .ros1, 7, true⟩ := by
    decide +kernel
  obtain ⟨-, reads, apart, overlap⟩ := parse_readAs
    { Settings.standard with ros2Distros := ["lyrical"] } " noetic : 007"
  obtain ⟨readAs, again⟩ := reads _ parsed
  obtain ⟨common, -, -, ambiguous⟩ :=
    overlap _ _ fileRead "noetic" (by decide) (by decide)
  exact ⟨_, fromSource, (apart _ fromSource).1, _, parsed, readAs, again, _, common, fileRead,
    ambiguous⟩

end RosSpec

end FleetCompose
