import FleetCompose.Data.Traverse
import FleetCompose.Proofs.Checks
import FleetCompose.Template.Values

/-!
# Substitution as a map

Placeholders are replaced by a traversal that stops at the first placeholder without a
value. What it does is stated here in two parts that know nothing of each other: a list of
the texts that it visits, in its order, and a map that replaces every one of them. The
traversal fails with the first unbound placeholder of the list, or else it is the map. The
placeholders of a text are here those that it is cut at.
-/

namespace FleetCompose

variable {α β ε δ π : Type}

/-! ## Traversals that stop at the first failure -/

/-- The answer of a traversal, from all failures that lie on its way and the image that it
has if there are none. -/
def verdict : (failures : List ε) → (image : α) → Except ε α
  | [], image => .ok image
  | failure :: _, _ => .error failure

theorem verdict_eq_ok_iff {failures : List ε} {image answer : α} :
    verdict failures image = .ok answer ↔ failures = [] ∧ answer = image := by
  cases failures with
  | nil => simp [verdict, eq_comm]
  | cons failure later => simp [verdict]

theorem verdict_eq_error_iff {failures : List ε} {image : α} {failure : ε} :
    verdict failures image = .error failure ↔ failures.head? = some failure := by
  cases failures with
  | nil => simp [verdict]
  | cons first later => simp [verdict]

@[simp] theorem map_verdict (failures : List ε) (image : α) (f : α → β) :
    (verdict failures image).map f = verdict failures (f image) := by
  cases failures <;> rfl

@[simp] theorem mapError_verdict (failures : List ε) (image : α) (f : ε → δ) :
    (verdict failures image).mapError f = verdict (failures.map f) image := by
  cases failures <;> rfl

@[simp] theorem verdict_bind (failures : List ε) (image : α) (later : α → List ε)
    (answer : α → β) :
    (verdict failures image >>= fun value => verdict (later value) (answer value)) =
      verdict (failures ++ later image) (answer image) := by
  cases failures <;> rfl

theorem ok_eq_verdict (value : α) : (Except.ok value : Except ε α) = verdict [] value := rfl

theorem pure_eq_verdict (value : α) : (pure value : Except ε α) = verdict [] value := rfl

theorem except_bind (first : Except ε α) (next : α → Except ε β) :
    first.bind next = (first >>= next) := rfl

/-- A list is traversed element by element. -/
theorem traverse_eq_verdict {f : α → Except ε β} {failures : α → List ε} {image : α → β}
    (elements : List α) (each : ∀ a ∈ elements, f a = verdict (failures a) (image a)) :
    traverse f elements = verdict (elements.flatMap failures) (elements.map image) := by
  induction elements with
  | nil => rfl
  | cons a rest ih =>
      have later := ih fun other member => each other (by simp [member])
      rw [traverse, each a (by simp), later, List.flatMap_cons, List.map_cons]
      cases failures a with
      | nil => exact map_verdict _ _ _
      | cons failure others => rfl

/-- The values of a map are traversed entry by entry. -/
theorem OrderedMap.traverse_eq_verdict {f : α → β → Except ε δ} {failures : α × β → List ε}
    {image : β → δ} (fields : OrderedMap α β)
    (each : ∀ key value, f key value = verdict (failures (key, value)) (image value)) :
    fields.traverse f = verdict (fields.entries.flatMap failures) (fields.map image) := by
  have entries : ∀ list : List (α × β), traverseEntries f list =
      verdict (list.flatMap failures) (list.map fun entry => (entry.1, image entry.2)) := by
    intro list
    induction list with
    | nil => rfl
    | cons entry rest ih =>
        rw [traverseEntries, each, ih, List.flatMap_cons, List.map_cons]
        cases failures entry <;> cases rest.flatMap failures <;> rfl
  rw [OrderedMap.traverse]
  split
  · next failure failed =>
      rw [entries, verdict_eq_error_iff] at failed
      exact (verdict_eq_error_iff.mpr failed).symm
  · next images read =>
      have parts := read
      rw [entries, verdict_eq_ok_iff] at parts
      rcases parts with ⟨none, rfl⟩
      rw [none]
      rfl

namespace Template

/-! ## Texts -/

namespace Scope

/-- The text that stands for a segment. A placeholder without a value stays as it is. -/
def fillSegment (scope : Scope) : Segment → String
  | .literal text => text
  | .placeholder name raw => (scope.get? name).getD raw

/-- A text with the placeholders that it is cut at replaced. -/
def fill (scope : Scope) (text : String) : String :=
  String.join ((segments text).map scope.fillSegment)

/-- The segment, if it is a placeholder without a value. -/
def unboundSegment? (scope : Scope) : Segment → Option Unresolved
  | .literal _ => none
  | .placeholder name raw => if scope.contains name then none else some ⟨name, raw⟩

/-- The placeholders without a value that a text is cut at, from the left. -/
def unbound (scope : Scope) (text : String) : List Unresolved :=
  (segments text).filterMap scope.unboundSegment?

theorem unboundSegment?_eq_some_iff {scope : Scope} {segment : Segment} {unresolved : Unresolved} :
    scope.unboundSegment? segment = some unresolved ↔
      segment = .placeholder unresolved.name unresolved.raw ∧
        scope.contains unresolved.name = false := by
  cases segment with
  | literal text => simp [unboundSegment?]
  | placeholder name raw =>
      obtain ⟨other, written⟩ := unresolved
      simp only [unboundSegment?, Option.ite_none_left_eq_some, Option.some.injEq,
        Unresolved.mk.injEq, Segment.placeholder.injEq, Bool.not_eq_true]
      constructor
      · rintro ⟨missing, rfl, rfl⟩
        exact ⟨⟨rfl, rfl⟩, missing⟩
      · rintro ⟨⟨rfl, rfl⟩, missing⟩
        exact ⟨missing, rfl, rfl⟩

theorem substituteSegments_eq (scope : Scope) (segments : List Segment) :
    scope.substituteSegments segments =
      verdict (segments.filterMap scope.unboundSegment?)
        (String.join (segments.map scope.fillSegment)) := by
  induction segments with
  | nil => rfl
  | cons segment rest ih =>
      cases segment with
      | literal text =>
          simp [substituteSegments, ih, List.filterMap_cons, unboundSegment?, fillSegment]
      | placeholder name raw =>
          rw [substituteSegments, ih]
          cases bound : scope.get? name with
          | none =>
              have missing : scope.contains name = false := by rw [contains_eq, bound]; rfl
              simp [unboundSegment?, missing, verdict]
          | some value =>
              have there : scope.contains name = true := by rw [contains_eq, bound]; rfl
              simp [unboundSegment?, there, fillSegment, bound]

theorem substitute_eq (scope : Scope) (text : String) :
    scope.substitute text = verdict (scope.unbound text) (scope.fill text) :=
  scope.substituteSegments_eq (segments text)

end Scope

/-! ## Texts and their places -/

/-- The placeholders without a value that texts are cut at, each with the place of its text. -/
def misfits (scope : Scope) (make : π → Unresolved → ε) (texts : List (π × String)) : List ε :=
  texts.flatMap fun (place, text) => (scope.unbound text).map (make place)

theorem misfits_singleton (scope : Scope) (make : π → Unresolved → ε) (place : π)
    (text : String) :
    misfits scope make [(place, text)] = (scope.unbound text).map (make place) := by
  simp [misfits]

theorem misfits_append (scope : Scope) (make : π → Unresolved → ε)
    (first second : List (π × String)) :
    misfits scope make (first ++ second) =
      misfits scope make first ++ misfits scope make second :=
  List.flatMap_append

theorem misfits_flatMap (scope : Scope) (make : π → Unresolved → ε) (elements : List α)
    (texts : α → List (π × String)) :
    misfits scope make (elements.flatMap texts) =
      elements.flatMap fun a => misfits scope make (texts a) :=
  List.flatMap_assoc

/-- Texts seen from outside: their places change, and with them the misfits. -/
theorem misfits_map {ρ : Type} (scope : Scope) (make : π → Unresolved → ε)
    (outer : ρ → Unresolved → δ) (outside : ε → δ) (move : π → ρ)
    (moves : ∀ place unresolved, outside (make place unresolved) = outer (move place) unresolved)
    (texts : List (π × String)) :
    (misfits scope make texts).map outside =
      misfits scope outer (texts.map fun (place, text) => (move place, text)) := by
  rw [misfits, misfits, List.map_flatMap, List.flatMap_map]
  congr 1
  funext entry
  rw [List.map_map]
  congr 1
  funext unresolved
  exact moves entry.1 unresolved

/-! ## Values -/

mutual

/-- The texts of a value, in the order in which it is written, with the steps that lead to
them. Keys are no texts of a mapping. -/
def valueTexts : Yaml.Value → List (List Step × String)
  | .string text => [([], text)]
  | .sequence items => itemTexts 0 items
  | .mapping entries => entryTexts entries
  | .tagged _ value => valueTexts value
  | .null => []
  | .bool _ => []
  | .number _ => []

/-- The texts of the items of a sequence from the item at `index` on. -/
def itemTexts (index : Nat) : List Yaml.Value → List (List Step × String)
  | [] => []
  | item :: items =>
      (valueTexts item).map (fun (steps, text) => (.item index :: steps, text)) ++
        itemTexts (index + 1) items

/-- The texts of the values of a mapping. -/
def entryTexts : List (Yaml.Value × Yaml.Value) → List (List Step × String)
  | [] => []
  | (key, value) :: entries =>
      (valueTexts value).map (fun (steps, text) => (Step.ofKey key :: steps, text)) ++
        entryTexts entries

end

mutual

/-- Apply a function to all texts of a value. Everything else stays as it is: the kinds of
values, the keys and their order, the tags, and all scalars other than texts. -/
def mapValue (f : String → String) : Yaml.Value → Yaml.Value
  | .string text => .string (f text)
  | .sequence items => .sequence (mapItems f items)
  | .mapping entries => .mapping (mapEntries f entries)
  | .tagged tag value => .tagged tag (mapValue f value)
  | .null => .null
  | .bool value => .bool value
  | .number value => .number value

def mapItems (f : String → String) : List Yaml.Value → List Yaml.Value
  | [] => []
  | item :: items => mapValue f item :: mapItems f items

def mapEntries (f : String → String) :
    List (Yaml.Value × Yaml.Value) → List (Yaml.Value × Yaml.Value)
  | [] => []
  | (key, value) :: entries => (key, mapValue f value) :: mapEntries f entries

end

theorem expandText_eq (scope : Scope) (text : String) :
    expandText scope text = verdict (misfits scope Misfit.mk [([], text)]) (scope.fill text) := by
  rw [expandText, Scope.substitute_eq, mapError_verdict, misfits_singleton]

theorem under_misfits (scope : Scope) (step : Step) (texts : List (List Step × String)) :
    (misfits scope Misfit.mk texts).map (Misfit.under step) =
      misfits scope Misfit.mk (texts.map fun (steps, text) => (step :: steps, text)) :=
  misfits_map scope Misfit.mk Misfit.mk (Misfit.under step) (step :: ·) (fun _ _ => rfl) texts

theorem expandItems_cons (scope : Scope) (index : Nat) (item : Yaml.Value)
    (items : List Yaml.Value) :
    expandItems scope index (item :: items) =
      ((expandValue scope item).mapError (Misfit.under (.item index)) >>= fun image =>
        (expandItems scope (index + 1) items).map (image :: ·)) := by
  rw [expandItems]
  cases expandValue scope item <;> rfl

theorem expandEntries_cons (scope : Scope) (key value : Yaml.Value)
    (entries : List (Yaml.Value × Yaml.Value)) :
    expandEntries scope ((key, value) :: entries) =
      ((expandValue scope value).mapError (Misfit.under (Step.ofKey key)) >>= fun image =>
        (expandEntries scope entries).map ((key, image) :: ·)) := by
  rw [expandEntries]
  cases expandValue scope value <;> rfl

mutual

/-- Expanding a value: induction on its structure, with the items of sequences and the entries
of mappings. -/
theorem expandValue_eq (scope : Scope) : (value : Yaml.Value) →
    expandValue scope value =
      verdict (misfits scope Misfit.mk (valueTexts value)) (mapValue scope.fill value)
  | .string text => by rw [expandValue, expandText_eq, map_verdict, valueTexts, mapValue]
  | .sequence items => by
      rw [expandValue, expandItems_eq scope 0 items, map_verdict, valueTexts, mapValue]
  | .mapping entries => by
      rw [expandValue, expandEntries_eq scope entries, map_verdict, valueTexts, mapValue]
  | .tagged tag value => by
      rw [expandValue, expandValue_eq scope value, map_verdict, valueTexts, mapValue]
  | .null => by rw [expandValue, valueTexts, mapValue]; rfl
  | .bool _ => by rw [expandValue, valueTexts, mapValue]; rfl
  | .number _ => by rw [expandValue, valueTexts, mapValue]; rfl

theorem expandItems_eq (scope : Scope) (index : Nat) : (items : List Yaml.Value) →
    expandItems scope index items =
      verdict (misfits scope Misfit.mk (itemTexts index items)) (mapItems scope.fill items)
  | [] => by rw [expandItems, itemTexts, mapItems]; rfl
  | item :: items => by
      rw [expandItems_cons, expandValue_eq scope item, expandItems_eq scope (index + 1) items,
        mapError_verdict, under_misfits, itemTexts, mapItems, misfits_append]
      simp only [map_verdict, verdict_bind]

theorem expandEntries_eq (scope : Scope) : (entries : List (Yaml.Value × Yaml.Value)) →
    expandEntries scope entries =
      verdict (misfits scope Misfit.mk (entryTexts entries)) (mapEntries scope.fill entries)
  | [] => by rw [expandEntries, entryTexts, mapEntries]; rfl
  | (key, value) :: entries => by
      rw [expandEntries_cons, expandValue_eq scope value, expandEntries_eq scope entries,
        mapError_verdict, under_misfits, entryTexts, mapEntries, misfits_append]
      simp only [map_verdict, verdict_bind]

end

/-! ## Fields of entities -/

/-- A field that is one text. -/
def textField (field text : String) : List (Position × String) := [(⟨field, []⟩, text)]

/-- The texts of a list from the text at `index` on. -/
def listTexts (index : Nat) (texts : List String) : List (List Step × String) :=
  (texts.zipIdx index).map fun (text, index) => ([.item index], text)

/-- Texts of a field, seen from the entity. -/
def inField (field : String) (texts : List (List Step × String)) : List (Position × String) :=
  texts.map fun (steps, text) => (⟨field, steps⟩, text)

/-- A field that is a list of texts. -/
def listField (field : String) (texts : List String) : List (Position × String) :=
  inField field (listTexts 0 texts)

/-- The texts of pass-through fields, first fields first. -/
def passedTexts (fields : Fields) : List (Position × String) :=
  fields.entries.flatMap fun (field, value) => inField field (valueTexts value)

theorem inField_misfits (scope : Scope) (field : String) (texts : List (List Step × String)) :
    (misfits scope Misfit.mk texts).map (Misfit.inField field) =
      misfits scope MisfitAt.mk (inField field texts) :=
  misfits_map scope Misfit.mk MisfitAt.mk (Misfit.inField field) (Position.mk field)
    (fun _ _ => rfl) texts

theorem expandTextField_eq (scope : Scope) (field text : String) :
    expandTextField scope field text =
      verdict (misfits scope MisfitAt.mk (textField field text)) (scope.fill text) := by
  rw [expandTextField, expandText_eq, mapError_verdict, inField_misfits]
  rfl

theorem expandTexts_eq (scope : Scope) (index : Nat) (texts : List String) :
    expandTexts scope index texts =
      verdict (misfits scope Misfit.mk (listTexts index texts)) (texts.map scope.fill) := by
  induction texts generalizing index with
  | nil => rfl
  | cons text rest ih =>
      have step : expandTexts scope index (text :: rest) =
          ((expandText scope text).mapError (Misfit.under (.item index)) >>= fun image =>
            (expandTexts scope (index + 1) rest).map (image :: ·)) := by
        rw [expandTexts]
        cases expandText scope text <;> rfl
      rw [step, ih, expandText_eq, mapError_verdict, under_misfits]
      simp only [map_verdict, verdict_bind, ← misfits_append]
      rfl

theorem expandListField_eq (scope : Scope) (field : String) (texts : List String) :
    expandListField scope field texts =
      verdict (misfits scope MisfitAt.mk (listField field texts)) (texts.map scope.fill) := by
  rw [expandListField, expandTexts_eq, mapError_verdict, inField_misfits]
  rfl

theorem expandFields_eq (scope : Scope) (fields : Fields) :
    expandFields scope fields =
      verdict (misfits scope MisfitAt.mk (passedTexts fields))
        (fields.map (mapValue scope.fill)) := by
  rw [expandFields, passedTexts, misfits_flatMap]
  apply OrderedMap.traverse_eq_verdict
  intro field value
  rw [expandValue_eq, mapError_verdict, inField_misfits]

end Template

end FleetCompose
