import FleetCompose.Proofs.FilledTexts

/-!
# Texts with bound placeholders

Which placeholders a text has is said by their grammar alone, without the cutter: one stands
wherever a part of the text is written as one. A scope binds all of them, or there is a leftmost one
that it does not bind. As in factorings, a placeholder may count or not where it stands. Of those
behind paired braces, the two cases are the ones in which replacing succeeds and fails.
-/

namespace FleetCompose.Template

/-! ## Placeholders of a text -/

/-- A part of the text is written as a placeholder, and it counts where it stands. -/
structure PlaceholderAt (counts : String → Prop) (text before name raw : String) : Prop where
  occurs : ∃ after, text = before ++ raw ++ after
  written : IsWritten name.toList raw.toList
  counted : counts before

namespace Scope

/-- Every placeholder of the text that counts has a value. -/
def Binds (scope : Scope) (counts : String → Prop) (text : String) : Prop :=
  ∀ before name raw, PlaceholderAt counts text before name raw → scope.contains name = true

/-- Of the placeholders of the text that count, the leftmost one without a value. -/
def FirstUnbound (scope : Scope) (counts : String → Prop) (text : String)
    (unresolved : Unresolved) : Prop :=
  ∃ before, PlaceholderAt counts text before unresolved.name unresolved.raw ∧
    scope.contains unresolved.name = false ∧
    ∀ front name raw, PlaceholderAt counts text front name raw → front.length < before.length →
      scope.contains name = true

/-- The image is the text with values in the places of the placeholders that count. A text has only
one factoring at them, so it has only one such image. -/
def Fills (scope : Scope) (counts : String → Prop) (text image : String) : Prop :=
  ∃ (factoring : Factoring) (value : Slot → String), factoring.Of counts text ∧
    (∀ slot ∈ factoring.slots, scope.get? slot.name = some (value slot)) ∧
    image = factoring.fill value

end Scope

section PlaceholderAt

variable {counts : String → Prop} {text before name raw : String}

/-- At one place there is at most one placeholder. -/
theorem PlaceholderAt.eq {front other otherRaw : String}
    (first : PlaceholderAt counts text before name raw)
    (second : PlaceholderAt counts text front other otherRaw)
    (same : before.length = front.length) : name = other ∧ raw = otherRaw := by
  obtain ⟨⟨after, rfl⟩, written, -⟩ := first
  obtain ⟨⟨otherAfter, occurs⟩, otherWritten, -⟩ := second
  have parts : before.toList ++ (raw.toList ++ after.toList) =
      front.toList ++ (otherRaw.toList ++ otherAfter.toList) := by
    simpa [String.append_assoc] using congrArg String.toList occurs
  have sizes : before.toList.length = front.toList.length := by
    rw [String.length_toList, String.length_toList, same]
  have behind := (List.append_inj parts sizes).2
  obtain ⟨names, raws⟩ := written.eq_of_append_eq otherWritten behind
  exact ⟨String.toList_inj.mp names, String.toList_inj.mp raws⟩

/-- The placeholders of a factoring are placeholders of its text. -/
theorem Factoring.Of.exists_placeholderAt {factoring : Factoring}
    (taken : factoring.Of counts text) {slot : Slot} (member : slot ∈ factoring.slots) :
    ∃ before, PlaceholderAt counts text before slot.name slot.raw := by
  obtain ⟨earlier, later, parts⟩ := List.append_of_mem member
  obtain ⟨occurs, written, counted⟩ :=
    (taken.hasSlot_iff _ _ _).mp ⟨earlier, slot.after, later, parts, rfl⟩
  exact ⟨_, occurs, written, counted⟩

/-- The cutter finds the placeholders behind paired braces. -/
theorem cutAt_iff_placeholderAt :
    CutAt (segments text) before.toList name raw ↔ PlaceholderAt Counts text before name raw := by
  rw [cutAt_segments_iff]
  constructor
  · rintro ⟨occurs, written, counted⟩
    exact ⟨occurs, written, counted⟩
  · rintro ⟨occurs, written, counted⟩
    exact ⟨occurs, written, counted⟩

theorem placeholder_mem_segments_iff :
    .placeholder name raw ∈ segments text ↔
      ∃ before, PlaceholderAt Counts text before name raw := by
  constructor
  · intro member
    obtain ⟨earlier, later, cut⟩ := List.append_of_mem member
    refine ⟨String.join (earlier.map Segment.text), cutAt_iff_placeholderAt.mp ?_⟩
    exact ⟨earlier, later, cut, (toList_join_text earlier).symm⟩
  · rintro ⟨before, there⟩
    obtain ⟨earlier, later, cut, -⟩ := cutAt_iff_placeholderAt.mpr there
    rw [cut]
    simp

end PlaceholderAt

/-! ## Placeholders without a value -/

namespace Scope

variable {scope : Scope} {counts : String → Prop} {text : String}

/-- Two placeholders cannot both be the leftmost one without a value. -/
theorem FirstUnbound.eq {first second : Unresolved} (isFirst : scope.FirstUnbound counts text first)
    (isSecond : scope.FirstUnbound counts text second) : first = second := by
  obtain ⟨before, there, missing, earlier⟩ := isFirst
  obtain ⟨front, otherThere, otherMissing, otherEarlier⟩ := isSecond
  rcases Nat.lt_trichotomy before.length front.length with shorter | same | longer
  · rw [otherEarlier _ _ _ there shorter] at missing
    cases missing
  · obtain ⟨names, raws⟩ := there.eq otherThere same
    cases first
    cases second
    simp_all
  · rw [earlier _ _ _ otherThere longer] at otherMissing
    cases otherMissing

theorem unbound_eq_nil_iff : scope.unbound text = [] ↔ scope.Binds Counts text := by
  rw [unbound, List.filterMap_eq_nil_iff]
  constructor
  · intro none before name raw there
    simpa [unboundSegment?] using none _ (placeholder_mem_segments_iff.mpr ⟨before, there⟩)
  · intro binds segment member
    cases segment with
    | literal text => rfl
    | placeholder name raw =>
        obtain ⟨before, there⟩ := placeholder_mem_segments_iff.mp member
        simp [unboundSegment?, binds _ _ _ there]

theorem firstUnbound_of_head {unresolved : Unresolved}
    (head : (scope.unbound text).head? = some unresolved) :
    scope.FirstUnbound Counts text unresolved := by
  rw [unbound, List.head?_filterMap, List.findSome?_eq_some_iff] at head
  obtain ⟨earlier, segment, later, cut, found, bound⟩ := head
  obtain ⟨rfl, missing⟩ := unboundSegment?_eq_some_iff.mp found
  refine ⟨String.join (earlier.map Segment.text), ?_, missing, ?_⟩
  · exact cutAt_iff_placeholderAt.mp ⟨earlier, later, cut, (toList_join_text earlier).symm⟩
  · intro front name raw there shorter
    have cutThere := cutAt_iff_placeholderAt.mpr there
    rw [cut, cutAt_append_iff] at cutThere
    rcases cutThere with ⟨first, behind, rfl, -⟩ | ⟨rest, equal, -⟩
    · simpa [unboundSegment?] using bound (.placeholder name raw) (by simp)
    · -- It would stand behind all of the segments in front.
      rw [← toList_join_text] at equal
      have sizes := congrArg List.length equal
      simp only [List.length_append, String.length_toList] at sizes
      omega

theorem head?_unbound_eq_some_iff {unresolved : Unresolved} :
    (scope.unbound text).head? = some unresolved ↔
      scope.FirstUnbound Counts text unresolved := by
  constructor
  · exact firstUnbound_of_head
  · intro first
    cases head : (scope.unbound text).head? with
    | none =>
        obtain ⟨before, there, missing, -⟩ := first
        rw [unbound_eq_nil_iff.mp (List.head?_eq_none_iff.mp head) _ _ _ there] at missing
        cases missing
    | some other => rw [(firstUnbound_of_head head).eq first]

/-- What replaces a text without unbound placeholders is the text with its values. -/
theorem Binds.fills_fill (binds : scope.Binds Counts text) :
    scope.Fills Counts text (scope.fill text) := by
  refine ⟨.ofSegments (segments text), fun slot => (scope.get? slot.name).getD slot.raw,
    of_ofSegments text, ?_, (Factoring.fill_ofSegments scope (segments text)).symm⟩
  intro slot member
  obtain ⟨before, there⟩ := (of_ofSegments text).exists_placeholderAt member
  obtain ⟨value, bound⟩ := Option.isSome_iff_exists.mp (binds _ _ _ there)
  rw [← get?] at bound
  simp only [bound, Option.getD_some]

end Scope

end FleetCompose.Template
