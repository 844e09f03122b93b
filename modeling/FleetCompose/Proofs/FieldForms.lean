import FleetCompose.Compose.Resources
import FleetCompose.Proofs.Texts

/-!
# Fields in two forms

Fields such as `networks`, `depends_on` and `environment` are lists or mappings. This module says
what a field names and what it assigns to a variable, in both forms, and what a requirement makes
of such a field: what was declared stays, and what is required is there. A field that has neither
form is not touched.
-/

namespace FleetCompose

/-- Nothing is declared, or a list or a mapping that can be extended. -/
inductive Extensible : Option Yaml.Value → Prop where
  | absent : Extensible none
  | null : Extensible (some .null)
  | list (items : List Yaml.Value) : Extensible (some (.sequence items))
  | mapping (entries : List (Yaml.Value × Yaml.Value)) : Extensible (some (.mapping entries))

/-- A field names something as a text of its list or as a key of its mapping. -/
inductive NamedIn : Option Yaml.Value → String → Prop where
  | item {items : List Yaml.Value} {item : Yaml.Value} {name : String} (member : item ∈ items)
      (text : item.innerString? = some name) : NamedIn (some (.sequence items)) name
  | key {entries : List (Yaml.Value × Yaml.Value)} {entry : Yaml.Value × Yaml.Value}
      {name : String} (member : entry ∈ entries) (text : entry.1.innerString? = some name) :
      NamedIn (some (.mapping entries)) name

/-- What a field assigns to variables. A text `NAME` of a list assigns nothing, it passes the
variable on from outside. -/
def assignments : Option Yaml.Value → List (String × Option Yaml.Value)
  | some (.sequence items) => items.filterMap fun item => item.innerString?.map fun text =>
      (Text.beforeFirst '=' text, (Text.splitFirst '=' text).map fun parts => .string parts.2)
  | some (.mapping entries) => entries.filterMap fun entry => entry.1.asString?.map fun name =>
      (name, some entry.2)
  | _ => []

/-- What a field assigns to one variable, nothing if it does not have the variable. -/
def valuesOf (name : String) (field : Option Yaml.Value) : List (Option Yaml.Value) :=
  ((assignments field).filter fun assignment => assignment.1 == name).map Prod.snd

theorem valuesOf_eq_nil_iff {name : String} {field : Option Yaml.Value} :
    valuesOf name field = [] ↔ name ∉ (assignments field).map Prod.fst := by
  rw [valuesOf, List.map_eq_nil_iff, List.filter_eq_nil_iff, List.mem_map]
  constructor
  · intro apart given
    rcases given with ⟨assignment, member, named⟩
    exact apart assignment member (beq_iff_eq.mpr named)
  · intro apart assignment member named
    exact apart ⟨assignment, member, beq_iff_eq.mp named⟩

/-- In the end a field has a variable: as it was declared, or with the given text where it was
not. -/
structure FilledIn (name text : String) (declared field : Option Yaml.Value) : Prop where
  present : valuesOf name field ≠ []
  filled : valuesOf name declared = [] → valuesOf name field = [some (.string text)]
  kept : valuesOf name declared ≠ [] → valuesOf name field = valuesOf name declared

/-- Only what the fields assign to the variable matters. -/
theorem FilledIn.congr {name text : String} {declared field other otherField : Option Yaml.Value}
    (filledIn : FilledIn name text declared field)
    (before : valuesOf name other = valuesOf name declared)
    (after : valuesOf name otherField = valuesOf name field) :
    FilledIn name text other otherField := by
  constructor
  · rw [after]
    exact filledIn.present
  · rw [before, after]
    exact filledIn.filled
  · rw [before, after]
    exact filledIn.kept

/-- The names of a field are what networks are collected from. -/
theorem namedIn_iff {field : Option Yaml.Value} {name : String} :
    NamedIn field name ↔ name ∈ Network.names field := by
  constructor
  · intro named
    cases named with
    | item member text => exact List.mem_filterMap.mpr ⟨_, member, text⟩
    | key member text => exact List.mem_filterMap.mpr ⟨_, member, text⟩
  · intro member
    unfold Network.names at member
    split at member
    · rcases List.mem_filterMap.mp member with ⟨item, itemMember, text⟩
      exact .item itemMember text
    · rcases List.mem_filterMap.mp member with ⟨entry, entryMember, text⟩
      exact .key entryMember text
    · cases member

/-! ## Requirements -/

namespace Requirement

variable {requirement : Requirement} {declared : Option Yaml.Value}

/-- After a requirement the field is a list or a mapping, if it could be extended. -/
theorem extensible_apply (requirement : Requirement) (extensible : Extensible declared) :
    Extensible (some (requirement.apply declared)) := by
  cases extensible with
  | absent => exact .list _
  | null => exact .list _
  | list items =>
      rw [apply]
      split
      · exact .list _
      · exact .list _
  | mapping entries =>
      rw [apply]
      split
      · exact .mapping _
      · exact .mapping _

/-- A field that cannot be extended is left alone. -/
theorem apply_of_not_extensible {value : Yaml.Value} (fixed : ¬Extensible (some value)) :
    requirement.apply (some value) = value := by
  cases value with
  | null => exact (fixed .null).elim
  | sequence items => exact (fixed (.list items)).elim
  | mapping entries => exact (fixed (.mapping entries)).elim
  | bool value => rfl
  | number value => rfl
  | string text => rfl
  | tagged tag value => rfl

/-! ### Members -/

/-- A required member is named, and nothing else is new. -/
theorem names_apply_member (field name : String) (value : Yaml.Value)
    (extensible : Extensible declared) :
    Network.names (some ((member field name value).apply declared)) = Network.names declared ∧
        name ∈ Network.names declared ∨
      Network.names (some ((member field name value).apply declared)) =
        Network.names declared ++ [name] := by
  cases extensible with
  | absent => exact .inr rfl
  | null => exact .inr rfl
  | list items =>
      rw [apply]
      split
      next declares =>
        rcases List.any_eq_true.mp declares with ⟨item, itemMember, declaredItem⟩
        refine .inl ⟨rfl, List.mem_filterMap.mpr ⟨item, itemMember, ?_⟩⟩
        cases text : item.innerString? with
        | none => simp [declaredBy, text] at declaredItem
        | some other => simpa [declaredBy, text] using declaredItem
      next => exact .inr List.filterMap_append
  | mapping entries =>
      rw [apply]
      split
      next declares =>
        -- A key with a tag is a name too, but only a plain text counts as the key itself.
        rcases List.any_eq_true.mp declares with ⟨entry, entryMember, keyed⟩
        refine .inl ⟨rfl, List.mem_filterMap.mpr ⟨entry, entryMember, ?_⟩⟩
        rcases entry with ⟨key, value⟩
        cases key <;> simp_all [Yaml.Value.asString?, Yaml.Value.innerString?, Requirement.key]
      next => exact .inr List.filterMap_append

theorem namedIn_apply_member_iff {field name : String} {value : Yaml.Value}
    (extensible : Extensible declared) {other : String} :
    NamedIn (some ((member field name value).apply declared)) other ↔
      NamedIn declared other ∨ other = name := by
  rw [namedIn_iff, namedIn_iff]
  rcases names_apply_member field name value extensible with ⟨same, named⟩ | added
  · rw [same]
    constructor
    · exact .inl
    · intro given
      rcases given with before | rfl
      · exact before
      · exact named
  · rw [added, List.mem_append, List.mem_singleton]

/-- Whatever form a field has, a required member is all that can be new. -/
theorem namedIn_of_apply_member {field name : String} {value : Yaml.Value} {other : String}
    (named : NamedIn (some ((member field name value).apply declared)) other) :
    NamedIn declared other ∨ other = name := by
  by_cases extensible : Extensible declared
  · exact (namedIn_apply_member_iff extensible).mp named
  · cases declared with
    | none => exact (extensible .absent).elim
    | some given =>
        rw [apply_of_not_extensible extensible] at named
        exact .inl named

/-! ### Variables -/

/-- A text `NAME=TEXT` assigns the text to the variable. -/
theorem assignments_item {name : String} (free : '=' ∉ name.toList) (text : String) :
    assignments (some (.sequence [.string (envVar name text).item])) =
      [(name, some (.string text))] := by
  have split : Text.splitFirst '=' (name ++ "=" ++ text) = some (name, text) :=
    Text.splitFirst_eq_some_iff.mpr ⟨by simp, free⟩
  simp [assignments, Yaml.Value.innerString?, item, split, Text.beforeFirst_of_splitFirst split]

/-- The items of a list that declare a variable are those that assign to it. -/
theorem any_declaredBy_envVar {name text : String} {items : List Yaml.Value} :
    items.any (envVar name text).declaredBy = true ↔
      name ∈ (assignments (some (.sequence items))).map Prod.fst := by
  rw [assignments, List.map_filterMap, List.mem_filterMap, List.any_eq_true]
  apply exists_congr
  intro item
  apply and_congr_right
  intro _
  cases text : item.innerString? with
  | none => simp [declaredBy, text]
  | some written => simp [declaredBy, text]

theorem hasTextKey_iff {name : String} {entries : List (Yaml.Value × Yaml.Value)} :
    Yaml.Value.hasTextKey name entries = true ↔
      name ∈ (assignments (some (.mapping entries))).map Prod.fst := by
  rw [assignments, List.map_filterMap, List.mem_filterMap, Yaml.Value.hasTextKey,
    List.any_eq_true]
  apply exists_congr
  intro entry
  apply and_congr_right
  intro _
  cases entry.1.asString? <;> simp

/-- A required variable is added, unless the field has it. -/
theorem assignments_apply_envVar {name : String} (free : '=' ∉ name.toList) (text : String)
    (extensible : Extensible declared) :
    assignments (some ((envVar name text).apply declared)) =
      if name ∈ (assignments declared).map Prod.fst then assignments declared
      else assignments declared ++ [(name, some (.string text))] := by
  cases extensible with
  | absent => exact assignments_item free text
  | null => exact assignments_item free text
  | list items =>
      rw [apply]
      simp only [any_declaredBy_envVar]
      split
      · rfl
      · rw [← assignments_item free text]
        exact List.filterMap_append
  | mapping entries =>
      rw [apply]
      simp only [hasTextKey_iff, key]
      split
      · rfl
      · exact List.filterMap_append

/-- Other variables are as they were. -/
theorem valuesOf_apply_of_ne {name other : String} (free : '=' ∉ name.toList) (text : String)
    (extensible : Extensible declared) (apart : name ≠ other) :
    valuesOf other (some ((envVar name text).apply declared)) = valuesOf other declared := by
  rw [valuesOf, assignments_apply_envVar free text extensible]
  split
  · rfl
  · have different : (name == other) = false := beq_eq_false_iff_ne.mpr apart
    rw [List.filter_append, List.filter_singleton, different]
    simp [valuesOf]

theorem filledIn_apply {name : String} (free : '=' ∉ name.toList) (text : String)
    (extensible : Extensible declared) :
    FilledIn name text declared (some ((envVar name text).apply declared)) := by
  have added := assignments_apply_envVar free text extensible
  by_cases member : name ∈ (assignments declared).map Prod.fst
  · have present : valuesOf name declared ≠ [] := mt valuesOf_eq_nil_iff.mp (not_not.mpr member)
    have same : valuesOf name (some ((envVar name text).apply declared)) =
        valuesOf name declared := by
      rw [valuesOf, added, if_pos member]
      rfl
    exact ⟨same ▸ present, fun absent => absurd absent present, fun _ => same⟩
  · have absent : valuesOf name declared = [] := valuesOf_eq_nil_iff.mpr member
    have only : valuesOf name (some ((envVar name text).apply declared)) =
        [some (.string text)] := by
      rw [valuesOf, List.map_eq_nil_iff] at absent
      rw [valuesOf, added, if_neg member, List.filter_append, absent]
      simp
    exact ⟨only ▸ List.cons_ne_nil _ _, fun _ => only, fun present => absurd absent present⟩

/-! ### Several requirements -/

/-- The value of a field after requirements on it, one after the other. -/
def settle (requirements : List Requirement) (declared : Option Yaml.Value) :
    Option Yaml.Value :=
  requirements.foldl (fun value requirement => some (requirement.apply value)) declared

/-- The requirements of environment variables with their texts. -/
def envVars (vars : List (String × String)) : List Requirement :=
  vars.map fun (name, text) => envVar name text

theorem valuesOf_settle_of_notMem {vars : List (String × String)} {name : String}
    (free : ∀ var ∈ vars, '=' ∉ var.1.toList) (extensible : Extensible declared)
    (absent : name ∉ vars.map Prod.fst) :
    valuesOf name (settle (envVars vars) declared) = valuesOf name declared := by
  induction vars generalizing declared with
  | nil => rfl
  | cons var rest ih =>
      rw [List.forall_mem_cons] at free
      rw [List.map_cons, List.mem_cons, not_or] at absent
      have first := valuesOf_apply_of_ne free.1 var.2 extensible (Ne.symm absent.1)
      have extended := extensible_apply (envVar var.1 var.2) extensible
      exact (ih free.2 extended absent.2).trans first

/-- Every one of the required variables is there in the end. -/
theorem filledIn_settle {vars : List (String × String)} {name text : String}
    (free : ∀ var ∈ vars, '=' ∉ var.1.toList) (nodup : (vars.map Prod.fst).Nodup)
    (extensible : Extensible declared) (member : (name, text) ∈ vars) :
    FilledIn name text declared (settle (envVars vars) declared) := by
  induction vars generalizing declared with
  | nil => cases member
  | cons var rest ih =>
      rw [List.forall_mem_cons] at free
      rw [List.map_cons, List.nodup_cons] at nodup
      have extended := extensible_apply (envVar var.1 var.2) extensible
      -- One requirement fills the variable in. Those before it and after it are of other
      -- variables, so they may be left out on either side.
      rcases List.mem_cons.mp member with rfl | inRest
      · have filledIn := filledIn_apply free.1 text extensible
        exact filledIn.congr rfl (valuesOf_settle_of_notMem free.2 extended nodup.1)
      · have apart : var.1 ≠ name := by
          intro equal
          exact nodup.1 (equal ▸ List.mem_map_of_mem inRest)
        have before := valuesOf_apply_of_ne free.1 var.2 extensible apart
        exact (ih free.2 nodup.2 extended inRest).congr before.symm rfl

end Requirement

end FleetCompose
