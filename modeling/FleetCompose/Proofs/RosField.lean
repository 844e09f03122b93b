import FleetCompose.Proofs.Checks
import FleetCompose.Proofs.Texts
import FleetCompose.Ros

/-!
# Readable `ros` fields

Which `ros` texts can be read, and what they say, stated on the two parts of the text: the
distribution before the first colon and the metadata after it.
-/

namespace FleetCompose

/-- A distribution has a family exactly if one of the two lists has it. -/
theorem Settings.exists_familyOf_iff {settings : Settings} {distro : String} :
    (∃ family, settings.familyOf distro = some family) ↔
      distro ∈ settings.ros1Distros ∨ distro ∈ settings.ros2Distros := by
  rw [familyOf]
  by_cases first : distro ∈ settings.ros1Distros
  · simp [first]
  · by_cases second : distro ∈ settings.ros2Distros <;> simp [first, second]

namespace RosSpec

/-- The distribution that a `ros` text names. -/
def distroPart (text : String) : String := Text.trim (Text.beforeFirst ':' text)

/-- The metadata of a `ros` text as written, if it has a colon. -/
def metadataPart? (text : String) : Option String :=
  (Text.splitFirst ':' text).map fun parts => Text.trim parts.2

/-- A written metadata is a number of 32 bits: decimal digits, and at least one. -/
structure IsMetadata (digits : String) : Prop where
  digits_ne : digits ≠ ""
  isDigit : ∀ c ∈ digits.toList, c.isDigit
  value_lt : digitsValue 0 digits.toList < UInt32.size

/-- A `ros` text can be read: it names a distribution of the settings, and its metadata is a
number if it has any. -/
structure Readable (settings : Settings) (text : String) : Prop where
  distro_ne : distroPart text ≠ ""
  distro_known :
    distroPart text ∈ settings.ros1Distros ∨ distroPart text ∈ settings.ros2Distros
  metadata : ∀ digits, metadataPart? text = some digits → IsMetadata digits

/-- The family of the distribution that a `ros` text names. -/
def describedFamily (settings : Settings) (text : String) : RosFamily :=
  (settings.familyOf (distroPart text)).getD .ros1

/-- What a readable `ros` text says. -/
def described (settings : Settings) (text : String) : RosSpec where
  distro := distroPart text
  family := describedFamily settings text
  metadata :=
    match metadataPart? text with
    | none => settings.defaultMetadata (describedFamily settings text)
    | some digits => UInt32.ofNat (digitsValue 0 digits.toList)
  explicitMetadata := (metadataPart? text).isSome

theorem parseMetadata_eq_ok_iff {digits : String} {value : UInt32} :
    parseMetadata digits = .ok value ↔
      IsMetadata digits ∧ value = UInt32.ofNat (digitsValue 0 digits.toList) := by
  rw [parseMetadata]
  by_cases empty : digits = ""
  · subst empty
    constructor
    · intro read
      simp at read
    · intro given
      rcases given with ⟨metadata, -⟩
      exact absurd rfl metadata.digits_ne
  · have nonempty : digits.isEmpty = false := by simpa using empty
    by_cases all : digits.toList.all Char.isDigit = true
    · by_cases small : digitsValue 0 digits.toList < UInt32.size
      · have metadata : IsMetadata digits :=
          ⟨empty, by simpa using all, small⟩
        simp [nonempty, all, small, metadata, eq_comm]
      · have noMetadata : ¬IsMetadata digits := fun metadata => small metadata.value_lt
        simp [nonempty, all, small, noMetadata]
    · have noMetadata : ¬IsMetadata digits := fun metadata =>
        all (by simpa using metadata.isDigit)
      simp [nonempty, all, noMetadata]

/-- Reading, with the text cut at its first colon. -/
theorem parse_eq (settings : Settings) (text : String) :
    parse settings text =
      if (distroPart text).isEmpty then .error .emptyDistro
      else
        match settings.familyOf (distroPart text) with
        | none => .error .unsupportedDistro
        | some family =>
            match metadataPart? text with
            | none => .ok ⟨distroPart text, family, settings.defaultMetadata family, false⟩
            | some digits =>
                (parseMetadata digits).map fun port => ⟨distroPart text, family, port, true⟩ := by
  rw [parse, distroPart, metadataPart?, Text.beforeFirst]
  cases Text.splitFirst ':' text with
  | none => rfl
  | some parts => rfl

/-- A `ros` text is accepted exactly if it can be read, and then the answer is what it
says. -/
theorem parse_eq_ok_iff {settings : Settings} {text : String} {spec : RosSpec} :
    parse settings text = .ok spec ↔
      Readable settings text ∧ spec = described settings text := by
  rw [parse_eq]
  by_cases empty : distroPart text = ""
  · have isEmpty : (distroPart text).isEmpty = true := by simpa using empty
    simp only [isEmpty, ↓reduceIte, reduceCtorEq, false_iff, not_and]
    exact fun readable => absurd empty readable.distro_ne
  · have nonempty : (distroPart text).isEmpty = false := by simpa using empty
    simp only [nonempty, Bool.false_eq_true, ↓reduceIte]
    cases found : settings.familyOf (distroPart text) with
    | none =>
        simp only [reduceCtorEq, false_iff, not_and]
        intro readable
        rcases Settings.exists_familyOf_iff.mpr readable.distro_known with ⟨family, known⟩
        rw [found] at known
        cases known
    | some family =>
        have known := Settings.exists_familyOf_iff.mp ⟨family, found⟩
        have describes : describedFamily settings text = family := by
          simp [describedFamily, found]
        cases written : metadataPart? text with
        | none =>
            have readable : Readable settings text :=
              ⟨empty, known, fun digits has => by simp [written] at has⟩
            simp [readable, described, describes, written, eq_comm]
        | some digits =>
            have readable_iff : Readable settings text ↔ IsMetadata digits := by
              constructor
              · exact fun readable => readable.metadata digits written
              · intro metadata
                refine ⟨empty, known, fun other has => ?_⟩
                rw [written] at has
                exact Option.some.inj has ▸ metadata
            simp only [map_eq_ok_iff, parseMetadata_eq_ok_iff, readable_iff]
            constructor
            · intro given
              rcases given with ⟨value, ⟨metadata, rfl⟩, rfl⟩
              exact ⟨metadata, by simp [described, describes, written]⟩
            · intro given
              rcases given with ⟨metadata, rfl⟩
              exact ⟨_, ⟨metadata, rfl⟩, by simp [described, describes, written]⟩

end RosSpec

end FleetCompose
