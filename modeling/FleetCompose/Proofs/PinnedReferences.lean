import FleetCompose.Proofs.Distributions

/-!
# Pinned references

A reference is pinned if it has a digest, or a tag in its last component. A pinned reference is
taken as it is written, without the colon of an empty tag in front of the digest. Any other one
gets the default tag, in the place of an empty tag if there is one, and is pinned by that: the
reference with its tag is the same under every other default.
-/

namespace FleetCompose

namespace Text

/-- A text without the colon at its end, if there is one. -/
def dropColon (text : String) : String :=
  String.ofList (if text.toList.getLast? = some ':' then text.toList.dropLast else text.toList)

theorem dropColon_append_colon (text : String) : dropColon (text ++ ":") = text := by
  simp [dropColon]

theorem dropColon_of_ends {text : String} (ends : text.toList.getLast? ≠ some ':') :
    dropColon text = text := by
  rw [dropColon, if_neg ends, String.ofList_toList]

theorem mem_of_mem_dropColon {c : Char} {text : String} (member : c ∈ (dropColon text).toList) :
    c ∈ text.toList := by
  rw [dropColon, String.toList_ofList] at member
  split at member
  · exact List.dropLast_subset _ member
  · exact member

/-- A colon-free text that is not empty hides what stands in front of it. -/
theorem dropColon_append {text last : String} (last_ne : last ≠ "") (free : ':' ∉ last.toList) :
    dropColon (text ++ last) = text ++ last := by
  apply dropColon_of_ends
  have filled : last.toList ≠ [] := String.toList_eq_nil_iff.not.mpr last_ne
  rw [String.toList_append, List.getLast?_append_of_ne_nil _ filled]
  exact fun ends => free (List.mem_of_getLast? ends)

end Text

namespace ImageRef

variable {reference name tag : String}

/-! ## Tags of last components -/

/-- The last component has a tag: behind its last colon stands a text that is not empty. -/
def HasTag (reference : String) : Prop :=
  ∃ name tag, Text.afterLast '/' reference = name ++ ":" ++ tag ∧ ':' ∉ tag.toList ∧ tag ≠ ""

/-- What stands in front of a digest, read as a name and a tag. -/
inductive ReadAs (text : String) : String → Option String → Prop where
  | tagged {name tag : String} (has : HasTag text) (whole : text = name ++ ":" ++ tag)
      (colon_free : ':' ∉ tag.toList) (tag_ne : tag ≠ "") : ReadAs text name (some tag)
  | untagged (noTag : ¬HasTag text) : ReadAs text (Text.dropColon text) none

theorem hasTag_iff : HasTag reference ↔ ∃ name tag,
    Text.splitLastChars ':' (Text.afterLast '/' reference).toList = some (name, tag) ∧
      tag ≠ [] := by
  constructor
  · intro has
    obtain ⟨name, tag, component, free, filled⟩ := has
    refine ⟨name.toList, tag.toList, Text.splitLastChars_eq_some_iff.mpr ⟨?_, free⟩, ?_⟩
    · simp [component]
    · simpa using filled
  · intro given
    obtain ⟨name, tag, parts, filled⟩ := given
    obtain ⟨component, free⟩ := Text.splitLastChars_eq_some_iff.mp parts
    refine ⟨String.ofList name, String.ofList tag, ?_, by simpa using free, by simpa using filled⟩
    rw [← String.toList_inj, component]
    simp

/-- Without a colon in its last component a reference does not end in a colon. -/
theorem dropColon_of_noTag (noTag : ':' ∉ (Text.afterLast '/' reference).toList) :
    Text.dropColon reference = reference := by
  apply Text.dropColon_of_ends
  intro ends
  obtain ⟨front, whole⟩ := List.getLast?_eq_some_iff.mp ends
  have named : reference = String.ofList front ++ ":" := by
    rw [← String.toList_inj, whole]
    simp
  rw [named, toList_afterLast_append_colon] at noTag
  exact noTag (List.mem_append_right _ List.mem_cons_self)

theorem readAs_splitTag (text : String) :
    ReadAs text (String.ofList (splitTag text.toList).1)
      (((splitTag text.toList).2.filter fun tag => !tag.isEmpty).map String.ofList) := by
  obtain ⟨registry, whole, untagged, tagged⟩ := exists_splitTag_eq text
  cases parts : Text.splitLastChars ':' (Text.afterLast '/' text).toList with
  | none =>
      have noTag := Text.splitLastChars_eq_none_iff.mp parts
      have kept : String.ofList text.toList = Text.dropColon text := by
        rw [String.ofList_toList, dropColon_of_noTag noTag]
      rw [untagged parts]
      change ReadAs text (String.ofList text.toList) none
      rw [kept]
      refine .untagged fun has => ?_
      simp [hasTag_iff, parts] at has
  | some pair =>
      obtain ⟨component, free⟩ := Text.splitLastChars_eq_some_iff.mp parts
      have spelled : text = String.ofList (registry ++ pair.1) ++ ":" ++ String.ofList pair.2 := by
        rw [← String.toList_inj, whole, component]
        simp
      rw [tagged _ _ parts]
      by_cases empty : pair.2 = []
      · have named : String.ofList (registry ++ pair.1) = Text.dropColon text := by
          rw [spelled, empty, String.ofList_nil, String.append_empty, Text.dropColon_append_colon]
        rw [named, empty]
        refine .untagged fun has => ?_
        obtain ⟨name, tag, again, filled⟩ := hasTag_iff.mp has
        cases parts.symm.trans again
        exact filled empty
      · have has : HasTag text := hasTag_iff.mpr ⟨_, _, parts, empty⟩
        have filled : (some pair.2).filter (fun tag => !tag.isEmpty) = some pair.2 := by
          simpa using empty
        rw [filled]
        exact .tagged has spelled (by simpa using free) (by simpa using empty)

/-! ## Parts of references -/

/-- A reference and its parts. The digest is behind the first at sign. -/
inductive ParsedAs (reference : String) : ImageRef → Prop where
  | digest {front digest name : String} {tag : Option String}
      (parts : Text.splitFirst '@' reference = some (front, digest))
      (read : ReadAs front name tag) : ParsedAs reference ⟨name, tag, some digest⟩
  | bare {name : String} {tag : Option String} (noDigest : '@' ∉ reference.toList)
      (read : ReadAs reference name tag) : ParsedAs reference ⟨name, tag, none⟩

theorem parsedAs_parse (reference : String) : ParsedAs reference (parse reference) := by
  cases parts : Text.splitFirst '@' reference with
  | some pair =>
      rw [parse, parts]
      exact .digest parts (readAs_splitTag pair.1)
  | none =>
      have noDigest := Text.splitFirst_eq_none_iff.mp parts
      rw [parse_of_noDigest noDigest]
      exact .bare noDigest (readAs_splitTag reference)

/-! ## Pinned references -/

/-- The reference fixes what is run: it has a digest, or its last component has a tag. -/
def Pinned (reference : String) : Prop := '@' ∈ reference.toList ∨ HasTag reference

/-- The reference without the colon of an empty tag in front of its digest. -/
def withoutEmptyTag (reference : String) : String :=
  match Text.splitFirst '@' reference with
  | some (front, digest) => Text.dropColon front ++ "@" ++ digest
  | none => reference

theorem isPinned_parse_iff : (parse reference).isPinned = true ↔ Pinned reference := by
  have parsed := parsedAs_parse reference
  generalize parse reference = ref at parsed ⊢
  cases parsed with
  | digest parts => simp [isPinned, Pinned, Text.mem_of_splitFirst parts]
  | bare noDigest read =>
      cases read with
      | tagged has => simp [isPinned, Pinned, has]
      | untagged noTag => simp [isPinned, Pinned, noTag, noDigest]

/-- A pinned reference is put together again from its parts. -/
theorem withDefaultTag_of_pinned (pinned : Pinned reference) (tag : String) :
    (parse reference).withDefaultTag tag = withoutEmptyTag reference := by
  have parsed := parsedAs_parse reference
  generalize parse reference = ref at parsed ⊢
  cases parsed with
  | digest parts read =>
      rw [withoutEmptyTag, parts]
      cases read with
      | tagged _ whole colon_free tag_ne =>
          dsimp only
          rw [whole, Text.dropColon_append tag_ne colon_free]
          rfl
      | untagged => rfl
  | bare noDigest read =>
      rw [withoutEmptyTag, Text.splitFirst_eq_none_iff.mpr noDigest]
      cases read with
      | tagged _ whole => exact whole.symm
      | untagged noTag => exact absurd pinned (not_or.mpr ⟨noDigest, noTag⟩)

/-- What is not pinned is a name, perhaps with an empty tag. -/
theorem parse_of_not_pinned (notPinned : ¬Pinned reference) :
    parse reference = ⟨Text.dropColon reference, none, none⟩ := by
  obtain ⟨noDigest, noTag⟩ := not_or.mp notPinned
  have parsed := parsedAs_parse reference
  generalize parse reference = ref at parsed ⊢
  cases parsed with
  | digest parts => exact absurd (Text.mem_of_splitFirst parts) noDigest
  | bare _ read =>
      cases read with
      | tagged has => exact absurd has noTag
      | untagged => rfl

/-! ## Completed references -/

/-- A tag that is told apart from the name, the registry and the digest around it. -/
structure IsTag (tag : String) : Prop where
  ne_empty : tag ≠ ""
  colon_free : ':' ∉ tag.toList
  slash_free : '/' ∉ tag.toList
  at_free : '@' ∉ tag.toList

/-- A tag that is written behind a name is read again. -/
theorem IsTag.parse_append {name tag : String} (isTag : IsTag tag) (noDigest : '@' ∉ name.toList) :
    parse (name ++ ":" ++ tag) = ⟨name, some tag, none⟩ := by
  have free : '@' ∉ (name ++ ":" ++ tag).toList := by
    simpa [noDigest] using isTag.at_free
  have has : HasTag (name ++ ":" ++ tag) := by
    refine ⟨Text.afterLast '/' name, tag, ?_, isTag.colon_free, isTag.ne_empty⟩
    rw [String.append_assoc, Text.afterLast_append (by simpa using isTag.slash_free),
      String.append_assoc]
  have parsed := parsedAs_parse (name ++ ":" ++ tag)
  generalize parse (name ++ ":" ++ tag) = ref at parsed ⊢
  cases parsed with
  | digest parts => exact absurd (Text.mem_of_splitFirst parts) free
  | bare _ read =>
      cases read with
      | untagged noTag => exact absurd has noTag
      | tagged _ whole colon_free =>
          -- Both tags stand behind the last colon.
          have parts : Text.splitLast ':' (name ++ ":" ++ tag) = some (name, tag) :=
            Text.splitLast_colon isTag.colon_free
          rw [whole, Text.splitLast_colon colon_free] at parts
          cases parts
          rfl

/-- The full reference with a default tag. -/
def completed (defaultTag reference : String) : String :=
  (parse reference).withDefaultTag defaultTag

/-- A pinned reference is kept under every default tag, without an empty tag in front of its
digest. Any other one gets the default tag in the place of an empty tag, or behind it; it is read
with that tag again and so is kept under every other default tag. -/
theorem completed_eq (reference : String) :
    ((parse reference).isPinned = true ↔ Pinned reference) ∧
      (Pinned reference → ∀ tag, completed tag reference = withoutEmptyTag reference) ∧
      (¬Pinned reference → ∀ tag,
        completed tag reference = Text.dropColon reference ++ ":" ++ tag ∧
          (IsTag tag →
            Pinned (completed tag reference) ∧
              parse (completed tag reference) = ⟨Text.dropColon reference, some tag, none⟩ ∧
              ∀ other, completed other (completed tag reference) = completed tag reference)) := by
  refine ⟨isPinned_parse_iff, withDefaultTag_of_pinned, fun notPinned tag => ?_⟩
  have complete : completed tag reference = Text.dropColon reference ++ ":" ++ tag := by
    rw [completed, parse_of_not_pinned notPinned]
    rfl
  refine ⟨complete, fun isTag => ?_⟩
  have noDigest : '@' ∉ (Text.dropColon reference).toList := fun member =>
    notPinned (.inl (Text.mem_of_mem_dropColon member))
  have read := isTag.parse_append noDigest
  refine ⟨?_, ?_, fun other => ?_⟩
  · rw [complete, ← isPinned_parse_iff, read]
    rfl
  · rw [complete, read]
  · rw [complete, completed, read]
    rfl

/-- A digest behind an empty tag, and an image without a tag on a registry with a port. -/
theorem camera_completed :
    Pinned "lab:5000/camera:@sha256:1" ∧
      completed "humble" "lab:5000/camera:@sha256:1" = "lab:5000/camera@sha256:1" ∧
      ¬Pinned "lab:5000/camera" ∧ IsTag "humble" ∧
      completed "humble" "lab:5000/camera" = "lab:5000/camera:humble" ∧
      completed "noetic" "lab:5000/camera:humble" = "lab:5000/camera:humble" := by
  have pinned : Pinned "lab:5000/camera:@sha256:1" := .inl (by decide)
  have notPinned : ¬Pinned "lab:5000/camera" := by
    rw [← (completed_eq _).1]
    decide +kernel
  have isTag : IsTag "humble" := ⟨by decide, by decide, by decide, by decide⟩
  have kept := (completed_eq _).2.1 pinned "humble"
  obtain ⟨complete, again⟩ := (completed_eq _).2.2 notPinned "humble"
  obtain ⟨-, -, unchanged⟩ := again isTag
  rw [complete] at unchanged
  exact ⟨pinned, kept, notPinned, isTag, complete, unchanged "noetic"⟩

end ImageRef

end FleetCompose
