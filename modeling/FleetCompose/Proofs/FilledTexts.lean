import FleetCompose.Proofs.Placeholders
import FleetCompose.Proofs.Substitution

/-!
# Texts with their placeholders replaced

A text is literal text and placeholders in turn, and in one way only. Replacing its placeholders
puts the bound texts in their places, all at once: what is inserted is never looked at again. The
first placeholder without a value is the failure, and names that do not occur do not matter.
-/

namespace FleetCompose.Template

/-! ## Factorings -/

/-- A placeholder, and the literal text between it and the next one. -/
structure Slot where
  name : String
  raw : String
  after : String

/-- Literal text, and then placeholders, each with the literal text behind it. -/
structure Factoring where
  head : String
  slots : List Slot

namespace Factoring

/-- The parts put together again, with texts in the places of the placeholders. -/
def fill (factoring : Factoring) (value : Slot → String) : String :=
  factoring.head ++ String.join (factoring.slots.map fun slot => value slot ++ slot.after)

/-- The text that was taken apart. -/
def text (factoring : Factoring) : String := factoring.fill Slot.raw

/-- A placeholder stands behind a text. -/
def HasSlot (factoring : Factoring) (before name raw : String) : Prop :=
  ∃ earlier after later, factoring.slots = earlier ++ ⟨name, raw, after⟩ :: later ∧
    (Factoring.mk factoring.head earlier).text = before

/-- The placeholders of the factoring are those of the text, as far as they count where they
stand. -/
structure Of (counts : String → Prop) (text : String) (factoring : Factoring) : Prop where
  text_eq : factoring.text = text
  hasSlot_iff : ∀ before name raw, factoring.HasSlot before name raw ↔
    (∃ after, text = before ++ raw ++ after) ∧ IsWritten name.toList raw.toList ∧ counts before

section Slots

variable {head before name raw : String} {slot : Slot} {slots : List Slot}

theorem fill_cons (value : Slot → String) :
    (Factoring.mk head (slot :: slots)).fill value =
      head ++ value slot ++ (Factoring.mk slot.after slots).fill value := by
  simp [fill, String.append_assoc]

theorem text_cons : (Factoring.mk head (slot :: slots)).text =
    head ++ slot.raw ++ (Factoring.mk slot.after slots).text :=
  fill_cons Slot.raw

theorem not_hasSlot_nil : ¬(Factoring.mk head []).HasSlot before name raw := by
  rintro ⟨earlier, after, later, equal, -⟩
  simp at equal

theorem hasSlot_cons_iff :
    (Factoring.mk head (slot :: slots)).HasSlot before name raw ↔
      (before = head ∧ slot.name = name ∧ slot.raw = raw) ∨
        ∃ rest, before = head ++ slot.raw ++ rest ∧
          (Factoring.mk slot.after slots).HasSlot rest name raw := by
  constructor
  · rintro ⟨earlier, after, later, equal, rfl⟩
    cases earlier with
    | nil =>
        obtain ⟨rfl, -⟩ := List.cons.inj equal
        exact .inl ⟨by simp [text, fill], rfl, rfl⟩
    | cons first earlier =>
        obtain ⟨rfl, others⟩ := List.cons.inj equal
        exact .inr ⟨_, text_cons, earlier, after, later, others, rfl⟩
  · rintro (⟨rfl, rfl, rfl⟩ | ⟨rest, rfl, earlier, after, later, others, rfl⟩)
    · exact ⟨[], slot.after, slots, rfl, by simp [text, fill]⟩
    · exact ⟨slot :: earlier, after, later, congrArg (slot :: ·) others, text_cons⟩

theorem hasSlot_head : (Factoring.mk head (slot :: slots)).HasSlot head slot.name slot.raw :=
  hasSlot_cons_iff.mpr (.inl ⟨rfl, rfl, rfl⟩)

/-- Literal text in front moves the places. -/
theorem hasSlot_append_iff {front : String} :
    (Factoring.mk (front ++ head) slots).HasSlot before name raw ↔
      ∃ rest, before = front ++ rest ∧ (Factoring.mk head slots).HasSlot rest name raw := by
  have moved : ∀ earlier, (Factoring.mk (front ++ head) earlier).text =
      front ++ (Factoring.mk head earlier).text := by
    intro earlier
    simp [text, fill, String.append_assoc]
  constructor
  · rintro ⟨earlier, after, later, equal, rfl⟩
    exact ⟨_, moved earlier, earlier, after, later, equal, rfl⟩
  · rintro ⟨rest, rfl, earlier, after, later, equal, rfl⟩
    exact ⟨earlier, after, later, equal, moved earlier⟩

end Slots

/-! ## One factoring -/

theorem ne_append_of_ne_empty {first middle : String} (filled : middle ≠ "") (rest : String) :
    first ≠ first ++ middle ++ rest := by
  intro equal
  rw [← String.toList_inj] at equal
  simp [filled] at equal

/-- Behind the first placeholder, the places are those of the rest. -/
theorem hasSlot_behind_iff {head before name raw : String} {slot : Slot} {slots : List Slot}
    (filled : slot.raw ≠ "") :
    (Factoring.mk head (slot :: slots)).HasSlot (head ++ slot.raw ++ before) name raw ↔
      (Factoring.mk slot.after slots).HasSlot before name raw := by
  rw [hasSlot_cons_iff]
  constructor
  · rintro (⟨equal, -⟩ | ⟨rest, equal, later⟩)
    · exact absurd equal.symm (ne_append_of_ne_empty filled before)
    · rwa [(String.append_right_inj _).mp equal]
  · intro later
    exact .inr ⟨before, rfl, later⟩

/-- Two factorings that have placeholders at the same places start with the same one. -/
theorem head_eq_of_hasSlot {head other : String} {slot otherSlot : Slot}
    {slots otherSlots : List Slot} (filled : slot.raw ≠ "") (otherFilled : otherSlot.raw ≠ "")
    (there : (Factoring.mk other (otherSlot :: otherSlots)).HasSlot head slot.name slot.raw)
    (back : (Factoring.mk head (slot :: slots)).HasSlot other otherSlot.name otherSlot.raw) :
    head = other ∧ otherSlot.name = slot.name ∧ otherSlot.raw = slot.raw := by
  rcases hasSlot_cons_iff.mp there with here | ⟨rest, behind, -⟩
  · exact here
  · -- Neither can start behind the other one.
    rcases hasSlot_cons_iff.mp back with ⟨equal, -⟩ | ⟨otherRest, otherBehind, -⟩
    · rw [equal] at behind
      exact absurd behind (ne_append_of_ne_empty otherFilled rest)
    · have around : head = head ++ slot.raw ++ (otherRest ++ otherSlot.raw ++ rest) := by
        rw [otherBehind] at behind
        simpa only [String.append_assoc] using behind
      exact absurd around (ne_append_of_ne_empty filled _)

/-- Two factorings of one text that have placeholders at the same places are the same. -/
theorem eq_of_hasSlot_iff {first second : Factoring} (text_eq : first.text = second.text)
    (same : ∀ before name raw, first.HasSlot before name raw ↔ second.HasSlot before name raw)
    (filled : ∀ before name raw, first.HasSlot before name raw → raw ≠ "") : first = second := by
  obtain ⟨head, slots⟩ := first
  induction slots generalizing head second with
  | nil =>
      obtain ⟨otherHead, otherSlots⟩ := second
      cases otherSlots with
      | nil => simpa [text, fill] using text_eq
      | cons slot slots => exact absurd ((same _ _ _).mpr hasSlot_head) not_hasSlot_nil
  | cons slot slots ih =>
      obtain ⟨otherHead, otherSlots⟩ := second
      cases otherSlots with
      | nil => exact absurd ((same _ _ _).mp hasSlot_head) not_hasSlot_nil
      | cons other otherSlots =>
          have there := (same _ _ _).mp hasSlot_head
          have back := (same _ _ _).mpr hasSlot_head
          have slotFilled : slot.raw ≠ "" := filled _ _ _ hasSlot_head
          have otherFilled : other.raw ≠ "" := filled _ _ _ back
          obtain ⟨rfl, names, raws⟩ := head_eq_of_hasSlot slotFilled otherFilled there back
          have rest : Factoring.mk slot.after slots = Factoring.mk other.after otherSlots := by
            apply ih
            · rw [text_cons, text_cons, raws] at text_eq
              exact (String.append_right_inj _).mp text_eq
            · intro before name raw
              rw [← hasSlot_behind_iff slotFilled, same, ← raws]
              exact hasSlot_behind_iff otherFilled
            · intro before name raw later
              exact filled _ _ _ ((hasSlot_behind_iff slotFilled).mpr later)
          obtain ⟨afters, others⟩ := Factoring.mk.inj rest
          cases slot
          cases other
          simp_all

/-! ## The factoring of the cutter -/

/-- Segments as a factoring. -/
def ofSegments : List Segment → Factoring
  | [] => ⟨"", []⟩
  | .literal text :: rest => ⟨text ++ (ofSegments rest).head, (ofSegments rest).slots⟩
  | .placeholder name raw :: rest =>
      ⟨"", ⟨name, raw, (ofSegments rest).head⟩ :: (ofSegments rest).slots⟩

theorem text_ofSegments (segments : List Segment) :
    (ofSegments segments).text = String.join (segments.map Segment.text) := by
  induction segments with
  | nil => rfl
  | cons segment rest ih =>
      rw [List.map_cons, String.join_cons, ← ih]
      cases segment with
      | literal text => simp [ofSegments, Factoring.text, fill, Segment.text, String.append_assoc]
      | placeholder name raw =>
          rw [ofSegments, text_cons]
          simp [Segment.text]

theorem cutAt_toList_cons_iff {segment : Segment} {segments : List Segment}
    {before name raw : String} :
    CutAt (segment :: segments) before.toList name raw ↔
      (before = "" ∧ segment = .placeholder name raw) ∨
        ∃ rest : String, before = segment.text ++ rest ∧ CutAt segments rest.toList name raw := by
  rw [cutAt_cons_iff, String.toList_eq_nil_iff]
  apply or_congr Iff.rfl
  constructor
  · rintro ⟨rest, equal, later⟩
    refine ⟨String.ofList rest, ?_, by rwa [String.toList_ofList]⟩
    rw [← String.toList_inj, equal, String.toList_append, String.toList_ofList]
  · rintro ⟨rest, rfl, later⟩
    exact ⟨rest.toList, String.toList_append, later⟩

theorem hasSlot_ofSegments_iff {segments : List Segment} {before name raw : String} :
    (ofSegments segments).HasSlot before name raw ↔ CutAt segments before.toList name raw := by
  induction segments generalizing before with
  | nil => simp [ofSegments, not_hasSlot_nil, not_cutAt_nil]
  | cons segment rest ih =>
      rw [cutAt_toList_cons_iff]
      cases segment with
      | literal text =>
          rw [ofSegments, hasSlot_append_iff]
          simp [ih, Segment.text]
      | placeholder otherName otherRaw =>
          rw [ofSegments, hasSlot_cons_iff]
          simp [ih, Segment.text]

/-! ## Replacing placeholders -/

/-- The placeholder, if it has no value. -/
def unboundSlot? (scope : Scope) (slot : Slot) : Option Unresolved :=
  match scope.get? slot.name with
  | none => some ⟨slot.name, slot.raw⟩
  | some _ => none

theorem unboundSlot?_eq (scope : Scope) (slot : Slot) :
    unboundSlot? scope slot = scope.unboundSegment? (.placeholder slot.name slot.raw) := by
  rw [unboundSlot?, Scope.unboundSegment?, Scope.contains_eq]
  cases scope.get? slot.name <;> rfl

theorem filterMap_ofSegments (scope : Scope) (segments : List Segment) :
    (ofSegments segments).slots.filterMap (unboundSlot? scope) =
      segments.filterMap scope.unboundSegment? := by
  induction segments with
  | nil => rfl
  | cons segment rest ih =>
      cases segment with
      | literal text => exact ih
      | placeholder name raw =>
          rw [ofSegments, List.filterMap_cons, List.filterMap_cons, ih, unboundSlot?_eq]

theorem fill_ofSegments (scope : Scope) (segments : List Segment) :
    (ofSegments segments).fill (fun slot => (scope.get? slot.name).getD slot.raw) =
      String.join (segments.map scope.fillSegment) := by
  induction segments with
  | nil => rfl
  | cons segment rest ih =>
      rw [List.map_cons, String.join_cons, ← ih]
      cases segment with
      | literal text => simp [ofSegments, fill, Scope.fillSegment, String.append_assoc]
      | placeholder name raw =>
          rw [ofSegments, fill_cons]
          simp [Scope.fillSegment]

end Factoring

open Factoring (ofSegments unboundSlot? filterMap_ofSegments fill_ofSegments text_ofSegments
  hasSlot_ofSegments_iff hasSlot_head hasSlot_cons_iff not_hasSlot_nil)

/-- What a text becomes depends only on its factoring and on the values of the names in it. -/
theorem Scope.substitute_eq_verdict (scope : Scope) (text : String) :
    scope.substitute text =
      verdict ((ofSegments (segments text)).slots.filterMap (unboundSlot? scope))
        ((ofSegments (segments text)).fill fun slot => (scope.get? slot.name).getD slot.raw) := by
  rw [substitute_eq, filterMap_ofSegments, fill_ofSegments]
  rfl

/-- The text is its factoring with the values of the placeholders in their places, if all of them
have one. Otherwise the first placeholder without a value is the failure. -/
structure Replaced (text : String) (factoring : Factoring) : Prop where
  filled : ∀ (scope : Scope) (value : Slot → String),
    (∀ slot ∈ factoring.slots, scope.get? slot.name = some (value slot)) →
      scope.substitute text = .ok (factoring.fill value)
  unresolved : ∀ (scope : Scope) (earlier : List Slot) (slot : Slot) (later : List Slot),
    factoring.slots = earlier ++ slot :: later →
      (∀ first ∈ earlier, scope.get? first.name ≠ none) → scope.get? slot.name = none →
        scope.substitute text = .error ⟨slot.name, slot.raw⟩
  agree : ∀ scope other : Scope,
    (∀ slot ∈ factoring.slots, scope.get? slot.name = other.get? slot.name) →
      scope.substitute text = other.substitute text

theorem unboundSlot?_of_bound {scope : Scope} {slot : Slot} (bound : scope.get? slot.name ≠ none) :
    unboundSlot? scope slot = none := by
  obtain ⟨value, found⟩ := Option.ne_none_iff_exists'.mp bound
  rw [unboundSlot?, found]

theorem Factoring.fill_congr {factoring : Factoring} {value other : Slot → String}
    (same : ∀ slot ∈ factoring.slots, value slot = other slot) :
    factoring.fill value = factoring.fill other := by
  have parts : factoring.slots.map (fun slot => value slot ++ slot.after) =
      factoring.slots.map fun slot => other slot ++ slot.after := by
    apply List.map_congr_left
    intro slot member
    rw [same slot member]
  rw [fill, fill, parts]

theorem replaced_ofSegments (text : String) : Replaced text (ofSegments (segments text)) := by
  constructor
  · intro scope value bound
    have none : (ofSegments (segments text)).slots.filterMap (unboundSlot? scope) = [] := by
      rw [List.filterMap_eq_nil_iff]
      intro slot member
      apply unboundSlot?_of_bound
      rw [bound slot member]
      exact Option.some_ne_none _
    have values : (ofSegments (segments text)).fill
        (fun slot => (scope.get? slot.name).getD slot.raw) =
          (ofSegments (segments text)).fill value := by
      apply Factoring.fill_congr
      intro slot member
      rw [bound slot member, Option.getD_some]
    rw [scope.substitute_eq_verdict, none, values]
    rfl
  · intro scope earlier slot later parts bound unbound
    have none : earlier.filterMap (unboundSlot? scope) = [] := by
      rw [List.filterMap_eq_nil_iff]
      intro first member
      exact unboundSlot?_of_bound (bound first member)
    have missing : unboundSlot? scope slot = some ⟨slot.name, slot.raw⟩ := by
      rw [unboundSlot?, unbound]
    rw [scope.substitute_eq_verdict, parts, List.filterMap_append, none, List.nil_append,
      List.filterMap_cons_some missing]
    rfl
  · intro scope other same
    have unbound : (ofSegments (segments text)).slots.filterMap (unboundSlot? scope) =
        (ofSegments (segments text)).slots.filterMap (unboundSlot? other) := by
      apply List.filterMap_congr
      intro slot member
      rw [unboundSlot?, unboundSlot?, same slot member]
    have values : (ofSegments (segments text)).fill
        (fun slot => (scope.get? slot.name).getD slot.raw) =
          (ofSegments (segments text)).fill fun slot => (other.get? slot.name).getD slot.raw := by
      apply Factoring.fill_congr
      intro slot member
      rw [same slot member]
    rw [scope.substitute_eq_verdict, other.substitute_eq_verdict, unbound, values]

/-! ## The factoring of a text -/

/-- A placeholder counts if the opening braces in front of it pair up. -/
def Counts (before : String) : Prop := Even (openingRun before.toList)

/-- The cutter finds the placeholders that count. -/
theorem cutAt_segments_iff {text before name raw : String} :
    CutAt (segments text) before.toList name raw ↔
      (∃ after, text = before ++ raw ++ after) ∧ IsWritten name.toList raw.toList ∧
        Counts before := by
  have cut : CutAt (segmentsFrom 0 [] text.toList) before.toList (String.ofList name.toList)
      (String.ofList raw.toList) ↔ _ := cutAt_segmentsFrom_iff (.inl (by simp))
  rw [String.ofList_toList, String.ofList_toList] at cut
  rw [segments, cut]
  constructor
  · rintro ⟨gap, equal, written, even, after, occurs⟩
    rw [List.reverse_nil, List.nil_append] at equal even
    subst equal
    refine ⟨⟨String.ofList after, ?_⟩, written, even⟩
    rw [← String.toList_inj]
    simpa using occurs
  · rintro ⟨⟨after, rfl⟩, written, even⟩
    exact ⟨before.toList, rfl, written, even, after.toList, by simp⟩

theorem of_ofSegments (text : String) : (ofSegments (segments text)).Of Counts text where
  text_eq := by rw [text_ofSegments, ← String.toList_inj, toList_join_text, segmentChars_segments]
  hasSlot_iff := by
    intro before name raw
    rw [hasSlot_ofSegments_iff, cutAt_segments_iff]

theorem IsWritten.ne_empty {name raw : String} (written : IsWritten name.toList raw.toList) :
    raw ≠ "" := by
  rintro rfl
  obtain ⟨inner, equal, -⟩ := written.exists_cons_cons
  cases equal

theorem Factoring.Of.eq {counts : String → Prop} {text : String} {first second : Factoring}
    (ofFirst : first.Of counts text) (ofSecond : second.Of counts text) : first = second := by
  apply eq_of_hasSlot_iff
  · rw [ofFirst.text_eq, ofSecond.text_eq]
  · intro before name raw
    rw [ofFirst.hasSlot_iff, ofSecond.hasSlot_iff]
  · intro before name raw there
    exact ((ofFirst.hasSlot_iff before name raw).mp there).2.1.ne_empty

/-- Without placeholders a factoring is one literal text. -/
theorem Factoring.Of.eq_of_free {counts : String → Prop} {text : String} {factoring : Factoring}
    (taken : factoring.Of counts text)
    (free : ∀ before name raw after : String, text = before ++ raw ++ after →
      ¬IsWritten name.toList raw.toList) : factoring = ⟨text, []⟩ := by
  have whole := taken.text_eq
  obtain ⟨head, slots⟩ := factoring
  cases slots with
  | nil => simpa [Factoring.text, fill] using whole
  | cons slot slots =>
      obtain ⟨⟨after, occurs⟩, written, -⟩ :=
        (taken.hasSlot_iff _ _ _).mp hasSlot_head
      exact absurd written (free _ _ _ after occurs)

/-- Every text has one factoring at the placeholders that count, and replacing its placeholders is
replacing those, all at once. A text without any placeholder stays as it is. -/
theorem exists_factoring_replaced (text : String) :
    ∃ factoring : Factoring, factoring.Of Counts text ∧
      (∀ other : Factoring, other.Of Counts text → other = factoring) ∧
      Replaced text factoring ∧
      ((∀ before name raw after : String, text = before ++ raw ++ after →
        ¬IsWritten name.toList raw.toList) →
          ∀ scope : Scope, scope.substitute text = .ok text) := by
  have taken := of_ofSegments text
  refine ⟨ofSegments (segments text), taken, fun other ofOther => ofOther.eq taken,
    replaced_ofSegments text, ?_⟩
  intro free scope
  have literal := taken.eq_of_free free
  have replaced := replaced_ofSegments text
  rw [literal] at replaced
  have filled := replaced.filled scope Slot.raw nofun
  rwa [show (Factoring.mk text []).fill Slot.raw = text by simp [Factoring.fill]] at filled

-- A value that forms a placeholder is not replaced again.
example : (Scope.ofPairs [("A", "\x7b\x7bB\x7d\x7d"), ("B", "never")]).substitute
    "x\x7b\x7bA\x7d\x7dy" = .ok "x\x7b\x7bB\x7d\x7dy" := by
  decide +kernel

/-- The one placeholder of a text that starts with a stray brace. -/
theorem eq_of_stray_brace {before name raw after : String}
    (occurs : "\x7b\x7b\x7bA\x7d\x7d" = before ++ raw ++ after)
    (written : IsWritten name.toList raw.toList) :
    before = "\x7b" ∧ name = "A" ∧ raw = "\x7b\x7bA\x7d\x7d" := by
  have only : IsWritten "A".toList "\x7b\x7bA\x7d\x7d".toList :=
    ⟨[], [], rfl, rfl, by decide, by decide⟩
  have parts : "\x7b\x7b\x7bA\x7d\x7d".toList = before.toList ++ (raw.toList ++ after.toList) := by
    rw [occurs]
    simp
  cases front : before.toList with
  | nil =>
      -- Three braces begin no placeholder.
      have matched := match?_append_of_isWritten written after.toList
      have unmatched : match? "\x7b\x7b\x7bA\x7d\x7d".toList = none := by
        decide +kernel
      rw [front, List.nil_append] at parts
      rw [← parts, unmatched] at matched
      cases matched
  | cons brace others =>
      rw [front] at parts
      obtain ⟨rfl, behind⟩ : '{' = brace ∧
          "\x7b\x7bA\x7d\x7d".toList ++ [] = others ++ raw.toList ++ after.toList := by
        simpa using parts
      rcases only.eq_nil_or_exists_append written behind with rfl | ⟨gap, -, rest⟩
      · obtain ⟨names, raws⟩ := only.eq_of_append_eq written behind
        refine ⟨?_, (String.toList_inj.mp names).symm, (String.toList_inj.mp raws).symm⟩
        rw [← String.toList_inj, front]
        rfl
      · have empty : raw.toList = [] := by simp_all
        exact absurd (String.toList_eq_nil_iff.mp empty) written.ne_empty

/-- Replacing does not reach a placeholder behind a stray brace. -/
theorem not_forall_replaced :
    ¬∀ (scope : Scope) (text : String) (factoring : Factoring) (value : Slot → String),
      factoring.Of (fun _ => True) text →
        (∀ slot ∈ factoring.slots, scope.get? slot.name = some (value slot)) →
          scope.substitute text = .ok (factoring.fill value) := by
  intro always
  have taken : (Factoring.mk "\x7b" [⟨"A", "\x7b\x7bA\x7d\x7d", ""⟩]).Of (fun _ => True)
      "\x7b\x7b\x7bA\x7d\x7d" := by
    constructor
    · decide
    · intro before name raw
      constructor
      · intro there
        rcases hasSlot_cons_iff.mp there with ⟨rfl, rfl, rfl⟩ | ⟨rest, -, behind⟩
        · exact ⟨⟨"", by decide⟩, ⟨[], [], rfl, rfl, by decide, by decide⟩, trivial⟩
        · exact absurd behind not_hasSlot_nil
      · rintro ⟨⟨after, occurs⟩, written, -⟩
        obtain ⟨rfl, rfl, rfl⟩ := eq_of_stray_brace occurs written
        exact hasSlot_head
  have replaced := always (.ofPairs [("A", "1")]) _ _ (fun _ => "1") taken (by simp; rfl)
  have literal : (Scope.ofPairs [("A", "1")]).substitute "\x7b\x7b\x7bA\x7d\x7d" =
      .ok "\x7b\x7b\x7bA\x7d\x7d" := by
    decide +kernel
  rw [literal] at replaced
  exact absurd replaced (by decide)

end FleetCompose.Template
