import FleetCompose.Proofs.NamedReferences

/-!
# The variables of a robot

A variable of a robot has the last value that the robot declares for its name, and otherwise the
value of the system. So every value in the scope of a robot is one of the two, and what a
placeholder stands for can be read off the declaration.
-/

namespace FleetCompose

/-! ## Maps of repeated keys -/

/-- The last value of a key in a list of entries. -/
def lastValue {α β : Type} [DecidableEq α] (key : α) (entries : List (α × β)) : Option β :=
  (entries.filter fun entry => entry.1 == key).getLast?.map Prod.snd

section LastValue

variable {α β : Type} [DecidableEq α] {key : α} {value : β}

theorem lastValue_append (first second : List (α × β)) :
    lastValue key (first ++ second) = (lastValue key second).or (lastValue key first) := by
  rw [lastValue, List.filter_append, List.getLast?_append, Option.map_or]
  rfl

theorem lastValue_singleton (entry : α × β) :
    lastValue key [entry] = if entry.1 = key then some entry.2 else none := by
  by_cases here : entry.1 = key
  · simp [lastValue, here]
  · simp [lastValue, here]

theorem mem_of_lastValue {entries : List (α × β)} (last : lastValue key entries = some value) :
    (key, value) ∈ entries := by
  obtain ⟨entry, found, rfl⟩ := Option.map_eq_some_iff.mp last
  have member := List.mem_filter.mp (List.mem_of_getLast? found)
  have named : entry.1 = key := beq_iff_eq.mp member.2
  subst named
  exact member.1

/-- Among distinct keys every entry is the last one of its key. -/
theorem lastValue_eq_some_iff_mem {entries : List (α × β)}
    (nodup : (entries.map Prod.fst).Nodup) :
    lastValue key entries = some value ↔ (key, value) ∈ entries := by
  constructor
  · exact mem_of_lastValue
  · intro member
    rw [lastValue, filter_key_eq_singleton nodup member]
    rfl

theorem lastValue_map {γ : Type} (f : β → γ) (entries : List (α × β)) :
    lastValue key (entries.map fun entry => (entry.1, f entry.2)) =
      (lastValue key entries).map f := by
  rw [lastValue, lastValue, List.filter_map, List.getLast?_map, Option.map_map, Option.map_map]
  rfl

/-- Entries that are inserted one after the other leave the last value of every key. -/
theorem OrderedMap.get?_insertAll (map : OrderedMap α β) (entries : List (α × β)) (key : α) :
    (map.insertAll entries).get? key = (lastValue key entries).or (map.get? key) := by
  induction entries generalizing map with
  | nil => rfl
  | cons entry rest ih =>
      rw [insertAll_cons, ih, get?_insert, ← List.singleton_append, lastValue_append,
        lastValue_singleton]
      by_cases here : entry.1 = key
      · subst here
        cases lastValue entry.1 rest <;> simp
      · simp [here, Ne.symm here]

theorem OrderedMap.get?_ofList (entries : List (α × β)) (key : α) :
    (ofList entries).get? key = lastValue key entries := by
  rw [ofList, get?_insertAll, get?_empty, Option.or_none]

end LastValue

/-! ## Scopes -/

namespace Template.Scope

/-- What the robot declares counts before what the system binds. -/
theorem get?_ofRobot (areaId : String) (robot : Robot) (name : String) :
    (ofRobot areaId robot).get? name =
      (lastValue name robot.vars).or (lastValue name (systemVars areaId robot)) := by
  rw [get?, ofRobot, ofPairs, OrderedMap.get?_ofList, lastValue_append]

/-- A value in the scope of a robot is declared by the robot or bound by the system. -/
theorem mem_of_get?_ofRobot {areaId : String} {robot : Robot} {name value : String}
    (bound : (ofRobot areaId robot).get? name = some value) :
    (name, value) ∈ robot.vars ∨ (name, value) ∈ systemVars areaId robot := by
  rw [get?_ofRobot] at bound
  cases declared : lastValue name robot.vars with
  | some other =>
      rw [declared] at bound
      cases bound
      exact .inl (mem_of_lastValue declared)
  | none =>
      rw [declared] at bound
      exact .inr (mem_of_lastValue bound)

end Template.Scope

/-! ## Robots of a document -/

namespace Document

variable {settings : Settings} {doc : Document}

/-- Every robot of an expanded fleet is the copy of a declared robot that an area lists. -/
theorem exists_decl_of_mem_robots_copy {robot : ExpandedRobot}
    (member : robot ∈ (doc.fleet settings).copy.robots) :
    ∃ area ∈ doc.areaDecls, ∃ decl ∈ doc.robots,
      robot = (doc.fleet settings).copyOf area.name (decl.placed settings doc) := by
  rw [robots_copy] at member
  obtain ⟨area, areaMember, inArea⟩ := List.mem_flatMap.mp member
  obtain ⟨decl, declMember, rfl⟩ := List.mem_map.mp inArea
  exact ⟨area, areaMember, decl, mem_robots_of_mem_robotDecls declMember, rfl⟩

end Document

end FleetCompose
