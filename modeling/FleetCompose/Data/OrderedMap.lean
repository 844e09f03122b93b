/-!
# Maps that remember the order of their keys

An `OrderedMap` is a list of entries with distinct keys. A new key goes to the end;
inserting a key that is there already keeps its place and replaces its value.
-/

namespace FleetCompose

/-- Entries with distinct keys, in the order in which the keys were first inserted. -/
structure OrderedMap (α β : Type) where
  entries : List (α × β)
  nodup : (entries.map Prod.fst).Nodup

namespace OrderedMap

variable {α β γ ε : Type}

@[ext] theorem ext {m n : OrderedMap α β} (h : m.entries = n.entries) : m = n := by
  cases m
  cases n
  cases h
  rfl

/-- The map without entries. -/
def empty : OrderedMap α β := ⟨[], by simp⟩

instance : Inhabited (OrderedMap α β) := ⟨empty⟩

instance : EmptyCollection (OrderedMap α β) := ⟨empty⟩

instance [DecidableEq α] [DecidableEq β] : DecidableEq (OrderedMap α β) := fun m n =>
  if h : m.entries = n.entries then .isTrue (ext h)
  else .isFalse fun e => h (congrArg entries e)

/-- The keys in order. -/
def keys (m : OrderedMap α β) : List α := m.entries.map Prod.fst

/-- The number of entries. -/
def size (m : OrderedMap α β) : Nat := m.entries.length

theorem nodup_keys (m : OrderedMap α β) : m.keys.Nodup := m.nodup

/-- Apply a function to every value. -/
def map (f : β → γ) (m : OrderedMap α β) : OrderedMap α γ :=
  ⟨m.entries.map fun entry => (entry.1, f entry.2), by
    simpa [List.map_map, Function.comp_def] using m.nodup⟩

/-- Apply a function that may fail to every entry of a list, first entries first. -/
def traverseEntries (f : α → β → Except ε γ) : List (α × β) → Except ε (List (α × γ))
  | [] => .ok []
  | (key, value) :: rest =>
      match f key value with
      | .error e => .error e
      | .ok image =>
          match traverseEntries f rest with
          | .error e => .error e
          | .ok images => .ok ((key, image) :: images)

theorem keys_traverseEntries {f : α → β → Except ε γ} {entries : List (α × β)}
    {images : List (α × γ)} (h : traverseEntries f entries = .ok images) :
    images.map Prod.fst = entries.map Prod.fst := by
  induction entries generalizing images with
  | nil =>
      simp only [traverseEntries, Except.ok.injEq] at h
      simp [← h]
  | cons entry rest ih =>
      simp only [traverseEntries] at h
      split at h
      · cases h
      · split at h
        · cases h
        · next images' e =>
            cases h
            simp [ih e]

/-- Apply a function that may fail to every value, first entries first. -/
def traverse (f : α → β → Except ε γ) (m : OrderedMap α β) : Except ε (OrderedMap α γ) :=
  match h : traverseEntries f m.entries with
  | .error e => .error e
  | .ok images => .ok ⟨images, by rw [keys_traverseEntries h]; exact m.nodup⟩

section Lookup

variable [DecidableEq α]

/-- The value of a key in a list of entries. -/
def lookup (key : α) : List (α × β) → Option β
  | [] => none
  | (other, value) :: rest => if other = key then some value else lookup key rest

/-- Put an entry into a list: in the place of the entry with that key, or at the end. -/
def put (key : α) (value : β) : List (α × β) → List (α × β)
  | [] => [(key, value)]
  | (other, old) :: rest =>
      if other = key then (key, value) :: rest else (other, old) :: put key value rest

theorem keys_put (key : α) (value : β) (entries : List (α × β)) :
    (put key value entries).map Prod.fst =
      if key ∈ entries.map Prod.fst then entries.map Prod.fst
      else entries.map Prod.fst ++ [key] := by
  induction entries with
  | nil => simp [put]
  | cons entry rest ih =>
      obtain ⟨other, old⟩ := entry
      by_cases h : other = key
      · simp [put, h]
      · have h' : ¬ key = other := fun e => h e.symm
        simp only [put, h, ↓reduceIte, List.map_cons, ih, List.mem_cons, h', false_or]
        split <;> simp

theorem nodup_put (key : α) (value : β) {entries : List (α × β)}
    (h : (entries.map Prod.fst).Nodup) : ((put key value entries).map Prod.fst).Nodup := by
  rw [keys_put]
  split
  · exact h
  · next free =>
      rw [List.nodup_append]
      refine ⟨h, by simp, ?_⟩
      intro a ha b hb e
      simp only [List.mem_singleton] at hb
      exact free (hb ▸ e ▸ ha)

/-- The value of a key. -/
def get? (m : OrderedMap α β) (key : α) : Option β := lookup key m.entries

/-- Is the key there? -/
def contains (m : OrderedMap α β) (key : α) : Bool := (m.get? key).isSome

/-- Insert an entry: in the place of the entry with that key, or at the end. -/
def insert (m : OrderedMap α β) (key : α) (value : β) : OrderedMap α β :=
  ⟨put key value m.entries, nodup_put key value m.nodup⟩

/-- Insert entries one after the other. -/
def insertAll (m : OrderedMap α β) (entries : List (α × β)) : OrderedMap α β :=
  entries.foldl (fun m entry => m.insert entry.1 entry.2) m

/-- The map of a list of entries: a repeated key keeps its first place and takes its last
value. -/
def ofList (entries : List (α × β)) : OrderedMap α β :=
  empty.insertAll entries

@[simp] theorem lookup_put_self (key : α) (value : β) (entries : List (α × β)) :
    lookup key (put key value entries) = some value := by
  induction entries with
  | nil => simp [put, lookup]
  | cons entry rest ih =>
      by_cases h : entry.1 = key <;> simp [put, lookup, h, ih]

theorem lookup_put_of_ne {key other : α} (value : β) (entries : List (α × β))
    (h : other ≠ key) : lookup other (put key value entries) = lookup other entries := by
  have h' : ¬ key = other := fun e => h e.symm
  induction entries with
  | nil => simp [put, lookup, h']
  | cons entry rest ih =>
      by_cases e : entry.1 = key
      · simp [put, lookup, e, h']
      · simp [put, lookup, e, ih]

/-- Insertion changes the value of one key. -/
theorem get?_insert (m : OrderedMap α β) (key other : α) (value : β) :
    (m.insert key value).get? other = if other = key then some value else m.get? other := by
  by_cases h : other = key
  · simp [get?, insert, h]
  · simp [get?, insert, h, lookup_put_of_ne value m.entries h]

theorem lookup_isSome_iff {key : α} {entries : List (α × β)} :
    (lookup key entries).isSome = true ↔ key ∈ entries.map Prod.fst := by
  induction entries with
  | nil => simp [lookup]
  | cons entry rest ih =>
      by_cases h : entry.1 = key
      · simp [lookup, h]
      · have h' : ¬ key = entry.1 := fun e => h e.symm
        simp only [lookup, h, ↓reduceIte, ih, List.map_cons, List.mem_cons, h', false_or]

theorem contains_iff {m : OrderedMap α β} {key : α} :
    m.contains key = true ↔ key ∈ m.keys := lookup_isSome_iff

/-- Insertion keeps the keys in order and appends a new one. -/
theorem keys_insert (m : OrderedMap α β) (key : α) (value : β) :
    (m.insert key value).keys = if key ∈ m.keys then m.keys else m.keys ++ [key] :=
  keys_put key value m.entries

theorem insertAll_cons (m : OrderedMap α β) (entry : α × β) (entries : List (α × β)) :
    m.insertAll (entry :: entries) = (m.insert entry.1 entry.2).insertAll entries := rfl

@[simp] theorem get?_empty (key : α) : (empty : OrderedMap α β).get? key = none := rfl

omit [DecidableEq α] in
@[simp] theorem keys_empty : (empty : OrderedMap α β).keys = [] := rfl

end Lookup

end OrderedMap

end FleetCompose
