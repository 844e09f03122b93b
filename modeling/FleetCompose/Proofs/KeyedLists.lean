import Mathlib.Data.List.Nodup
import Mathlib.Data.List.Perm.Basic

/-!
# Lists with keys

Declarations, robots and services are lists whose entries have a name. Where names are
distinct, looking a name up does not depend on the order of the entries, and filtering by a
name leaves at most the one entry that has it.
-/

namespace FleetCompose

variable {α β γ : Type}

/-- A filter that keeps no image leaves nothing. -/
theorem filter_map_eq_nil {keep : β → Bool} {image : α → β}
    (drops : ∀ item, keep (image item) = false) (items : List α) :
    (items.map image).filter keep = [] := by
  rw [List.filter_eq_nil_iff]
  intro entry member
  rcases List.mem_map.mp member with ⟨item, -, rfl⟩
  rw [drops]
  exact Bool.false_ne_true

variable [BEq β] [LawfulBEq β]

/-! ## Looking a key up -/

omit [LawfulBEq β] in
/-- Counting up to a key and reading what stands there is a search for the key. -/
theorem getElem?_idxOf_map (items : List α) (key : α → β) (name : β) :
    items[(items.map key).idxOf name]? = items.find? fun item => key item == name := by
  induction items with
  | nil => rfl
  | cons item rest ih =>
      cases found : key item == name with
      | true => simp [List.idxOf_cons, found]
      | false => simp [List.idxOf_cons, found, ih]

/-- Leaving out other keys does not change what a key leads to. -/
theorem find?_filter_key (keep : β → Bool) {items : List α} {key : α → β} {name : β}
    (kept : keep name = true) :
    ((items.filter fun item => keep (key item)).find? fun item => key item == name) =
      items.find? fun item => key item == name := by
  rw [List.find?_filter]
  congr 1
  funext item
  cases named : key item == name with
  | true =>
      have equal : key item = name := by simpa using named
      simp [equal, kept]
  | false => simp

/-- Among distinct keys every key leads to its entry. -/
theorem find?_key_eq_some_iff {items : List α} {key : α → β} (nodup : (items.map key).Nodup)
    {name : β} {item : α} :
    (items.find? fun other => key other == name) = some item ↔ item ∈ items ∧ key item = name := by
  constructor
  · intro found
    have named := List.find?_some found
    exact ⟨List.mem_of_find?_eq_some found, by simpa using named⟩
  · intro given
    rcases given with ⟨member, named⟩
    cases found : items.find? fun other => key other == name with
    | none =>
        have apart := List.find?_eq_none.mp found item member
        simp [named] at apart
    | some other =>
        have otherNamed := List.find?_some found
        have same : key other = key item := by simpa [named] using otherNamed
        rw [List.inj_on_of_nodup_map nodup (List.mem_of_find?_eq_some found) member same]

/-- Looking up a distinct key does not depend on the order of the entries. -/
theorem find?_key_eq_of_perm {items others : List α} {key : α → β} (perm : items.Perm others)
    (nodup : (items.map key).Nodup) (name : β) :
    (items.find? fun item => key item == name) = others.find? fun item => key item == name := by
  have nodupOthers : (others.map key).Nodup := (perm.map key).nodup_iff.mp nodup
  apply Option.ext
  intro item
  rw [find?_key_eq_some_iff nodup, find?_key_eq_some_iff nodupOthers, perm.mem_iff]

/-! ## Filtering by a key -/

/-- Among distinct keys a filter leaves what a search finds. -/
theorem filter_key_eq_toList {items : List α} {key : α → β} (nodup : (items.map key).Nodup)
    (name : β) :
    (items.filter fun item => key item == name) =
      (items.find? fun item => key item == name).toList := by
  induction items with
  | nil => rfl
  | cons head rest ih =>
      rw [List.map_cons, List.nodup_cons] at nodup
      cases named : key head == name with
      | true =>
          have equal : key head = name := by simpa using named
          have none : (rest.filter fun item => key item == name) = [] := by
            rw [List.filter_eq_nil_iff]
            intro item member itemNamed
            have same : key item = key head := by simpa [equal] using itemNamed
            exact nodup.1 (same ▸ List.mem_map_of_mem member)
          simp [named, none]
      | false => simp [named, ih nodup.2]

theorem filter_key_eq_singleton {items : List α} {key : α → β} (nodup : (items.map key).Nodup)
    {item : α} (member : item ∈ items) :
    (items.filter fun other => key other == key item) = [item] := by
  have found := (find?_key_eq_some_iff nodup).mpr ⟨member, rfl⟩
  rw [filter_key_eq_toList nodup, found, Option.toList_some]

omit [LawfulBEq β] in
/-- Parts that belong to the items they come from, filtered by owner. -/
theorem filter_flatMap_of_owned {items : List α} {parts : α → List γ} {key : α → β}
    {owner : γ → β} (owned : ∀ item ∈ items, ∀ part ∈ parts item, owner part = key item)
    (name : β) :
    ((items.flatMap parts).filter fun part => owner part == name) =
      (items.filter fun item => key item == name).flatMap parts := by
  induction items with
  | nil => rfl
  | cons head rest ih =>
      have later := ih fun item member => owned item (by simp [member])
      have first : ∀ part ∈ parts head, (owner part == name) = (key head == name) := by
        intro part member
        rw [owned head (by simp) part member]
      rw [List.flatMap_cons, List.filter_append, later, List.filter_congr first]
      cases named : key head == name with
      | true => simp [named]
      | false => simp [named]

/-! ## First occurrences -/

/-- The first occurrences in a list are distinct. -/
theorem nodup_eraseDups (items : List β) : items.eraseDups.Nodup := by
  match items with
  | [] => exact List.nodup_nil
  | head :: rest =>
      -- The head is removed from the rest before the rest is searched, so the length decreases.
      rw [List.eraseDups_cons, List.nodup_cons]
      refine ⟨?_, nodup_eraseDups _⟩
      rw [List.mem_eraseDups, List.mem_filter]
      simp
termination_by items.length
decreasing_by exact Nat.lt_succ_of_le (List.length_filter_le _ _)

theorem eraseDups_of_nodup {items : List β} (nodup : items.Nodup) : items.eraseDups = items := by
  induction items with
  | nil => rfl
  | cons head rest ih =>
      rw [List.nodup_cons] at nodup
      have others : (rest.filter fun item => !item == head) = rest := by
        rw [List.filter_eq_self]
        intro item member
        have apart : item ≠ head := fun equal => nodup.1 (equal ▸ member)
        simpa using apart
      rw [List.eraseDups_cons, others, ih nodup.2]

end FleetCompose
