import FleetCompose.Proofs.BoundTexts

/-!
# Reported places

Where placeholders are replaced in fields that are passed on, a failure names a field, and the
fields may be nested as deep as one likes. The texts of the fields are listed here in the order in
which they are written, each with its place as messages have it. The place that is reported is that
of the first text with a placeholder without a value, and the placeholder is the leftmost one in
that text. Without such a text the fields keep their shape. Placeholders behind a stray brace do not
count in this, although the grammar has them.
-/

namespace FleetCompose

open Template

namespace Yaml.Value

/-! ## Texts with their places -/

/-- The place of an item of a sequence. -/
def itemPlace (place : String) (index : Nat) : String := place ++ "[" ++ Nat.repr index ++ "]"

/-- The place of a value of a mapping. A key that is no text is not shown. -/
def keyPlace (place : String) (key : Value) : String :=
  match key.innerString? with
  | some name => place ++ "." ++ name
  | none => place ++ ".?"

mutual

/-- The texts of a value at a place, in the order in which they are written. A tag does not show in
the place. -/
def leaves (place : String) : Value → List (String × String)
  | .string text => [(place, text)]
  | .sequence items => itemLeaves place 0 items
  | .mapping entries => entryLeaves place entries
  | .tagged _ value => leaves place value
  | .null => []
  | .bool _ => []
  | .number _ => []

def itemLeaves (place : String) (index : Nat) : List Value → List (String × String)
  | [] => []
  | item :: items => leaves (itemPlace place index) item ++ itemLeaves place (index + 1) items

def entryLeaves (place : String) : List (Value × Value) → List (String × String)
  | [] => []
  | (key, value) :: entries => leaves (keyPlace place key) value ++ entryLeaves place entries

end

/-! ## Values of one shape -/

mutual

/-- The second value is the first one with other texts: the same kinds of values, the same keys in
their order, the same tags, and the same scalars other than texts. -/
inductive Expands (fills : String → String → Prop) : Value → Value → Prop where
  | null : Expands fills .null .null
  | bool (value : Bool) : Expands fills (.bool value) (.bool value)
  | number (value : Number) : Expands fills (.number value) (.number value)
  | string {text image : String} (filled : fills text image) :
      Expands fills (.string text) (.string image)
  | sequence {items images : List Value} (each : ItemsExpand fills items images) :
      Expands fills (.sequence items) (.sequence images)
  | mapping {entries images : List (Value × Value)} (each : EntriesExpand fills entries images) :
      Expands fills (.mapping entries) (.mapping images)
  | tagged (tag : String) {value image : Value} (inner : Expands fills value image) :
      Expands fills (.tagged tag value) (.tagged tag image)

inductive ItemsExpand (fills : String → String → Prop) : List Value → List Value → Prop where
  | nil : ItemsExpand fills [] []
  | cons {item image : Value} {items images : List Value} (first : Expands fills item image)
      (rest : ItemsExpand fills items images) : ItemsExpand fills (item :: items) (image :: images)

inductive EntriesExpand (fills : String → String → Prop) :
    List (Value × Value) → List (Value × Value) → Prop where
  | nil : EntriesExpand fills [] []
  | cons (key : Value) {value image : Value} {entries images : List (Value × Value)}
      (first : Expands fills value image) (rest : EntriesExpand fills entries images) :
      EntriesExpand fills ((key, value) :: entries) ((key, image) :: images)

end

end Yaml.Value

namespace Fields

/-- The texts of fields, field by field. -/
def leaves (fields : Fields) : List (String × String) :=
  fields.entries.flatMap fun (field, value) => value.leaves field

/-- The second fields are the first ones with other texts. -/
def Expands (fills : String → String → Prop) (fields images : Fields) : Prop :=
  List.Forall₂ (fun entry image => image.1 = entry.1 ∧ entry.2.Expands fills image.2)
    fields.entries images.entries

/-- The failure names the first text that has a placeholder without a value, and of the
placeholders in it the leftmost one without. Those that do not count are passed over. -/
def Reports (scope : Scope) (counts : String → Prop) (fields : Fields) (error : MisfitAt) : Prop :=
  ∃ before text after, fields.leaves = before ++ (error.position.text, text) :: after ∧
    (∀ leaf ∈ before, scope.Binds counts leaf.2) ∧
    scope.FirstUnbound counts text error.unresolved

end Fields

namespace Template

/-! ## Places as steps -/

/-- The place that steps lead to from another one. -/
def placeBehind (place : String) (steps : List Step) : String :=
  place ++ String.join (steps.map Step.text)

theorem placeBehind_item (place : String) (index : Nat) (steps : List Step) :
    placeBehind place (.item index :: steps) =
      placeBehind (Yaml.Value.itemPlace place index) steps := by
  simp [placeBehind, Yaml.Value.itemPlace, Step.text, String.append_assoc]

theorem placeBehind_key (place : String) (key : Yaml.Value) (steps : List Step) :
    placeBehind place (Step.ofKey key :: steps) =
      placeBehind (Yaml.Value.keyPlace place key) steps := by
  rw [Step.ofKey, Yaml.Value.keyPlace]
  cases key.innerString? <;> simp [placeBehind, Step.text, String.append_assoc]

mutual

theorem map_valueTexts (place : String) : (value : Yaml.Value) →
    (valueTexts value).map (fun leaf => (placeBehind place leaf.1, leaf.2)) = value.leaves place
  | .string text => by simp [valueTexts, Yaml.Value.leaves, placeBehind]
  | .sequence items => by
      rw [valueTexts, Yaml.Value.leaves, map_itemTexts place 0 items]
  | .mapping entries => by
      rw [valueTexts, Yaml.Value.leaves, map_entryTexts place entries]
  | .tagged _ value => by
      rw [valueTexts, Yaml.Value.leaves, map_valueTexts place value]
  | .null => by rw [valueTexts, Yaml.Value.leaves, List.map_nil]
  | .bool _ => by rw [valueTexts, Yaml.Value.leaves, List.map_nil]
  | .number _ => by rw [valueTexts, Yaml.Value.leaves, List.map_nil]

theorem map_itemTexts (place : String) (index : Nat) : (items : List Yaml.Value) →
    (itemTexts index items).map (fun leaf => (placeBehind place leaf.1, leaf.2)) =
      Yaml.Value.itemLeaves place index items
  | [] => by rw [itemTexts, Yaml.Value.itemLeaves, List.map_nil]
  | item :: items => by
      rw [itemTexts, Yaml.Value.itemLeaves, List.map_append, List.map_map,
        map_itemTexts place (index + 1) items, ← map_valueTexts _ item]
      simp only [Function.comp_def, placeBehind_item]

theorem map_entryTexts (place : String) : (entries : List (Yaml.Value × Yaml.Value)) →
    (entryTexts entries).map (fun leaf => (placeBehind place leaf.1, leaf.2)) =
      Yaml.Value.entryLeaves place entries
  | [] => by rw [entryTexts, Yaml.Value.entryLeaves, List.map_nil]
  | (key, value) :: entries => by
      rw [entryTexts, Yaml.Value.entryLeaves, List.map_append, List.map_map,
        map_entryTexts place entries, ← map_valueTexts _ value]
      simp only [Function.comp_def, placeBehind_key]

end

/-- The texts that are visited stand at the places that are reported. -/
theorem map_passedTexts (fields : Fields) :
    (passedTexts fields).map (fun leaf => (leaf.1.text, leaf.2)) = fields.leaves := by
  rw [passedTexts, Fields.leaves, List.map_flatMap]
  apply List.flatMap_congr
  intro entry _
  change (inField entry.1 (valueTexts entry.2)).map _ = _
  rw [inField, List.map_map]
  exact map_valueTexts entry.1 entry.2

/-! ## The first text with an unbound placeholder -/

/-- The first element of lists one after the other is that of the first list that has any. -/
theorem head?_flatMap_eq_some_iff {α β : Type} {f : α → List β} {list : List α} {b : β} :
    (list.flatMap f).head? = some b ↔
      ∃ before a after, list = before ++ a :: after ∧ (∀ x ∈ before, f x = []) ∧
        (f a).head? = some b := by
  rw [List.head?_flatMap, List.findSome?_eq_some_iff]
  simp only [List.head?_eq_none_iff, and_comm]

section Unbound

variable {ε π : Type} {scope : Scope} {text : String}

theorem map_unbound_eq_nil_iff {make : Unresolved → ε} :
    (scope.unbound text).map make = [] ↔ scope.Binds Counts text := by
  rw [List.map_eq_nil_iff, Scope.unbound_eq_nil_iff]

theorem head?_map_unbound_eq_some_iff {make : Unresolved → ε} {error : ε} :
    ((scope.unbound text).map make).head? = some error ↔
      ∃ unresolved, scope.FirstUnbound Counts text unresolved ∧ make unresolved = error := by
  simp only [List.head?_map, Option.map_eq_some_iff, Scope.head?_unbound_eq_some_iff]

theorem misfits_eq_nil_iff {make : π → Unresolved → ε} {texts : List (π × String)} :
    misfits scope make texts = [] ↔ ∀ leaf ∈ texts, scope.Binds Counts leaf.2 := by
  simp only [misfits, List.flatMap_eq_nil_iff, map_unbound_eq_nil_iff]

end Unbound

/-- The first failure belongs to the first text that has one. -/
theorem head_misfits {scope : Scope} {texts : List (Position × String)} {error : MisfitAt}
    (head : (misfits scope MisfitAt.mk texts).head? = some error) :
    ∃ before text after, texts = before ++ (error.position, text) :: after ∧
      (∀ leaf ∈ before, scope.Binds Counts leaf.2) ∧
      scope.FirstUnbound Counts text error.unresolved := by
  obtain ⟨before, ⟨position, text⟩, after, parts, none, found⟩ := head?_flatMap_eq_some_iff.mp head
  obtain ⟨unresolved, first, rfl⟩ := head?_map_unbound_eq_some_iff.mp found
  exact ⟨before, text, after, parts,
    fun leaf member => map_unbound_eq_nil_iff.mp (none leaf member), first⟩

/-! ## The shape of the result -/

mutual

/-- Values keep their shape, by recursion on the value that is expanded. -/
theorem expands_mapValue {fills : String → String → Prop} {image : String → String} :
    (value : Yaml.Value) → (∀ leaf ∈ valueTexts value, fills leaf.2 (image leaf.2)) →
      value.Expands fills (mapValue image value)
  | .string text, filled => by
      rw [mapValue]
      exact .string (filled ([], text) (by simp [valueTexts]))
  | .sequence items, filled => by
      rw [mapValue]
      rw [valueTexts] at filled
      exact .sequence (expands_mapItems 0 items filled)
  | .mapping entries, filled => by
      rw [mapValue]
      rw [valueTexts] at filled
      exact .mapping (expands_mapEntries entries filled)
  | .tagged tag value, filled => by
      rw [mapValue]
      rw [valueTexts] at filled
      exact .tagged tag (expands_mapValue value filled)
  | .null, _ => by rw [mapValue]; exact .null
  | .bool value, _ => by rw [mapValue]; exact .bool value
  | .number value, _ => by rw [mapValue]; exact .number value

theorem expands_mapItems {fills : String → String → Prop} {image : String → String} (index : Nat) :
    (items : List Yaml.Value) → (∀ leaf ∈ itemTexts index items, fills leaf.2 (image leaf.2)) →
      Yaml.Value.ItemsExpand fills items (mapItems image items)
  | [], _ => by rw [mapItems]; exact .nil
  | item :: items, filled => by
      rw [mapItems]
      rw [itemTexts, List.forall_mem_append, List.forall_mem_map] at filled
      exact .cons (expands_mapValue item filled.1) (expands_mapItems _ items filled.2)

theorem expands_mapEntries {fills : String → String → Prop} {image : String → String} :
    (entries : List (Yaml.Value × Yaml.Value)) →
    (∀ leaf ∈ entryTexts entries, fills leaf.2 (image leaf.2)) →
      Yaml.Value.EntriesExpand fills entries (mapEntries image entries)
  | [], _ => by rw [mapEntries]; exact .nil
  | (key, value) :: entries, filled => by
      rw [mapEntries]
      rw [entryTexts, List.forall_mem_append, List.forall_mem_map] at filled
      exact .cons key (expands_mapValue value filled.1) (expands_mapEntries entries filled.2)

end

/-- Fields whose placeholders all have values are filled text by text. -/
theorem expands_fill {scope : Scope} {fields : Fields}
    (bound : ∀ leaf ∈ passedTexts fields, scope.Binds Counts leaf.2) :
    fields.Expands (scope.Fills Counts) (fields.map (mapValue scope.fill)) := by
  rw [Fields.Expands, OrderedMap.map, List.forall₂_map_right_iff, List.forall₂_same]
  intro entry member
  refine ⟨rfl, expands_mapValue entry.2 fun leaf inside => ?_⟩
  have passed : (⟨entry.1, leaf.1⟩, leaf.2) ∈ passedTexts fields :=
    List.mem_flatMap.mpr ⟨entry, member, List.mem_map.mpr ⟨leaf, inside, rfl⟩⟩
  exact (bound _ passed).fills_fill

/-! ## Fields -/

/-- When placeholders are replaced in fields that are passed on, a failure reports the first text
with a placeholder that has no value: all texts before it have values for all of theirs, the place
is the one of that text, and the placeholder is its leftmost one without a value. If there is no
such text, there is no failure, and the result is the fields with their texts filled: the fields,
the kinds of values, the lengths of sequences, the keys and their order, the tags and the other
scalars are the same. A key that is a text counts as one with or without a tag. Only placeholders
behind paired braces count. -/
theorem expandFields_reports (scope : Scope) (fields : Fields) :
    (∀ error, expandFields scope fields = .error error → fields.Reports scope Counts error) ∧
    ((∀ leaf ∈ fields.leaves, scope.Binds Counts leaf.2) →
      ∃ images, expandFields scope fields = .ok images ∧
        fields.Expands (scope.Fills Counts) images) := by
  constructor
  · intro error failed
    rw [expandFields_eq, verdict_eq_error_iff] at failed
    obtain ⟨before, text, after, parts, bound, first⟩ := head_misfits failed
    refine ⟨before.map fun leaf => (leaf.1.text, leaf.2), text,
      after.map fun leaf => (leaf.1.text, leaf.2), ?_, ?_, first⟩
    · rw [← map_passedTexts, parts, List.map_append, List.map_cons]
    · rw [List.forall_mem_map]
      exact bound
  · intro bound
    rw [← map_passedTexts, List.forall_mem_map] at bound
    refine ⟨fields.map (mapValue scope.fill), ?_, expands_fill bound⟩
    -- Without misfits the verdict is the mapped fields.
    rw [expandFields_eq, verdict_eq_ok_iff]
    exact ⟨misfits_eq_nil_iff.mpr bound, rfl⟩

/-- Labels that name a room, and under a tag a text of their own. -/
def roomLabels (first last : String) : Fields :=
  .ofList [("labels", .mapping [(.string "rooms", .sequence [.string first,
    .tagged "all" (.mapping [(.null, .string last)])])])]

/-- The labels of a room without a floor and a site are refused at their last text, for the floor,
and those that name the room only keep their shape. -/
theorem roomLabels_reported :
    let scope := Scope.ofPairs [("ROOM", "4")]
    let refused := roomLabels "\x7b\x7bROOM\x7d\x7d"
      "\x7b\x7bROOM\x7d\x7d on \x7b\x7bFLOOR\x7d\x7d in \x7b\x7bSITE\x7d\x7d"
    let kept := roomLabels "\x7b\x7bROOM\x7d\x7d" "door of \x7b\x7b ROOM \x7d\x7d"
    (∃ error, expandFields scope refused = .error error ∧
      error.position.text = "labels.rooms[1].?" ∧
      error.unresolved.raw = "\x7b\x7bFLOOR\x7d\x7d" ∧ refused.Reports scope Counts error) ∧
    expandFields scope kept = .ok (roomLabels "4" "door of 4") ∧
    kept.Expands (scope.Fills Counts) (roomLabels "4" "door of 4") := by
  intro scope refused kept
  constructor
  · have failed : expandFields scope refused =
        .error ⟨⟨"labels", [.key "rooms", .item 1, .otherKey]⟩,
          ⟨"FLOOR", "\x7b\x7bFLOOR\x7d\x7d"⟩⟩ := rfl
    exact ⟨_, failed, by decide, rfl, (expandFields_reports scope refused).1 _ failed⟩
  · have leaves : kept.leaves = [("labels.rooms[0]", "\x7b\x7bROOM\x7d\x7d"),
        ("labels.rooms[1].?", "door of \x7b\x7b ROOM \x7d\x7d")] := rfl
    have bound : ∀ leaf ∈ kept.leaves, scope.Binds Counts leaf.2 := by
      rw [leaves]
      simp only [List.forall_mem_cons, ← Scope.unbound_eq_nil_iff]
      exact ⟨by decide +kernel, by decide +kernel, by simp⟩
    have succeeded : expandFields scope kept = .ok (roomLabels "4" "door of 4") := rfl
    obtain ⟨images, succeeds, expands⟩ := (expandFields_reports scope kept).2 bound
    obtain rfl := Except.ok.inj (succeeded.symm.trans succeeds)
    exact ⟨succeeded, expands⟩

/-- Two notes, of which the first one has its placeholder behind a stray brace. -/
def strayNotes : Fields :=
  .ofList [("a", .string "\x7b\x7b\x7bA\x7d\x7d"), ("b", .string "\x7b\x7bB\x7d\x7d")]

/-- A placeholder behind a stray brace is passed over, and a later text is reported in its place. -/
theorem not_forall_reports :
    ¬∀ (scope : Scope) (fields : Fields) (error : MisfitAt),
      expandFields scope fields = .error error → fields.Reports scope (fun _ => True) error := by
  intro always
  have failed : expandFields (.ofPairs []) strayNotes =
      .error ⟨⟨"b", []⟩, ⟨"B", "\x7b\x7bB\x7d\x7d"⟩⟩ := rfl
  obtain ⟨before, text, after, parts, bound, -⟩ := always _ _ _ failed
  have leaves : strayNotes.leaves =
      [("a", "\x7b\x7b\x7bA\x7d\x7d"), ("b", "\x7b\x7bB\x7d\x7d")] := rfl
  have place : (Position.mk "b" []).text = "b" := rfl
  rw [leaves, place] at parts
  cases before with
  | nil => simp at parts
  | cons leaf others =>
      -- The stray text comes first, and its placeholder has no value.
      obtain ⟨rfl, -⟩ := List.cons.inj parts
      have stray : PlaceholderAt (fun _ => True) "\x7b\x7b\x7bA\x7d\x7d" "\x7b" "A"
          "\x7b\x7bA\x7d\x7d" :=
        ⟨⟨"", by decide⟩, ⟨[], [], rfl, rfl, by decide, by decide⟩, trivial⟩
      have missing : (Scope.ofPairs []).contains "A" = false := rfl
      rw [bound _ List.mem_cons_self _ _ _ stray] at missing
      cases missing

end Template

end FleetCompose
