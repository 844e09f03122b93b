import FleetCompose.Proofs.DeclaredVariables
import FleetCompose.Proofs.PlaceholderExpression
import FleetCompose.Proofs.Placeholders
import Mathlib.Tactic.TFAE

/-!
# Names of variables

The name of a variable is recognized twice. Loading looks at its characters where a robot declares
it, and the cutter finds it between the braces of a placeholder. Both recognize the same names: what
is declared can be referred to, and what a placeholder refers to can be declared.
-/

namespace FleetCompose

/-! ## References -/

namespace Template

/-- A text in double braces. -/
def braced (inner : String) : String := "\x7b\x7b" ++ inner ++ "\x7d\x7d"

/-- Nothing but spaces and tabs. -/
def IsPadding (text : String) : Prop := ∀ c ∈ text.toList, isPad c = true

/-- The text is one placeholder, which has the name. -/
def RefersTo (text name : String) : Prop := ∃ raw, segments text = [.placeholder name raw]

theorem isPadding_empty : IsPadding "" := by
  intro c member
  cases member

/-- Nothing is left of a text that is skipped. -/
theorem segmentsFrom_length (reversed cs : List Char) :
    segmentsFrom cs.length reversed cs = literalSegment reversed := by
  induction cs with
  | nil => rw [segmentsFrom]
  | cons c cs ih => rw [List.length_cons, segmentsFrom, ih]

theorem segments_of_isWritten {name text : String} (written : IsWritten name.toList text.toList) :
    segments text = [.placeholder name text] := by
  have matched := match?_append_of_isWritten written []
  obtain ⟨inner, opened, -⟩ := written.exists_cons_cons
  rw [List.append_nil, opened] at matched
  have rest : ('{' :: '{' :: inner).length - 2 = inner.length := rfl
  rw [segments, opened]
  simp only [segmentsFrom, matched]
  rw [rest, segmentsFrom_length, ← opened, String.ofList_toList, String.ofList_toList]
  rfl

/-- A text refers to a name exactly if the whole of it is written as a placeholder with the name. -/
theorem refersTo_iff {text name : String} :
    RefersTo text name ↔ IsWritten name.toList text.toList := by
  constructor
  · rintro ⟨raw, cut⟩
    have member : .placeholder name raw ∈ segmentsFrom 0 [] text.toList := by
      rw [← segments, cut]
      exact List.mem_singleton.mpr rfl
    have written := isWritten_of_mem_segmentsFrom member
    have whole := segmentChars_segments text
    rw [cut, segmentChars_cons, Segment.text] at whole
    rw [← whole]
    simpa [segmentChars] using written
  · intro written
    exact ⟨text, segments_of_isWritten written⟩

/-- A text in braces refers to the identifier in it, if there is nothing else but padding. -/
theorem refersTo_braced_iff {inner name : String} :
    RefersTo (braced inner) name ↔
      Text.isIdentifier name = true ∧
        ∃ before after, IsPadding before ∧ IsPadding after ∧ inner = before ++ name ++ after := by
  rw [refersTo_iff, braced]
  constructor
  · rintro ⟨before, after, beforePad, afterPad, identifier, whole⟩
    refine ⟨identifier, String.ofList before, String.ofList after, ?_, ?_, ?_⟩
    · simpa [IsPadding] using beforePad
    · simpa [IsPadding] using afterPad
    · have cut : inner.toList ++ ['}', '}'] = before ++ name.toList ++ after ++ ['}', '}'] := by
        simpa using whole
      rw [← String.toList_inj]
      simpa using List.append_cancel_right cut
  · rintro ⟨identifier, before, after, beforePad, afterPad, rfl⟩
    refine ⟨before.toList, after.toList, ?_, ?_, identifier, by simp⟩
    · exact List.all_eq_true.mpr beforePad
    · exact List.all_eq_true.mpr afterPad

theorem refersTo_of_isIdentifier {name before after : String}
    (identifier : Text.isIdentifier name = true) (beforePad : IsPadding before)
    (afterPad : IsPadding after) : RefersTo (braced (before ++ name ++ after)) name :=
  refersTo_braced_iff.mpr ⟨identifier, before, after, beforePad, afterPad, rfl⟩

theorem refersTo_braced_self_iff {name : String} :
    RefersTo (braced name) name ↔ Text.isIdentifier name = true := by
  constructor
  · exact fun refers => (refersTo_braced_iff.mp refers).1
  · intro identifier
    have alone := refersTo_of_isIdentifier identifier isPadding_empty isPadding_empty
    rwa [String.empty_append, String.append_empty] at alone

theorem isIdentifier_of_mem_segments {text name raw : String}
    (member : .placeholder name raw ∈ segments text) : Text.isIdentifier name = true := by
  obtain ⟨-, -, -, -, identifier, -⟩ := isWritten_of_mem_segmentsFrom member
  exact identifier

end Template

/-! ## Documents with other variables -/

namespace RobotDecl

/-- The robot with other variables. -/
def withVars (vars : RobotDecl → Option VarsDecl) (decl : RobotDecl) : RobotDecl :=
  { decl with vars := vars decl }

/-- Variables that loading accepts, as far as names and values go. -/
def VarsWellFormed (decl : RobotDecl) : Prop :=
  ∀ entry ∈ decl.varEntries,
    Text.isIdentifier entry.1 = true ∧ ∃ text, entry.2.scalarText = some text

theorem WellFormed.varsWellFormed {settings : Settings} {doc : Document} {decl : RobotDecl}
    (wellFormed : decl.WellFormed settings doc) : decl.VarsWellFormed :=
  fun entry declared =>
    ⟨wellFormed.variable_name entry declared, wellFormed.variable_scalar entry declared⟩

end RobotDecl

namespace Document

/-- The document with other variables of its robots. -/
def withVars (doc : Document) (vars : RobotDecl → Option VarsDecl) : Document :=
  { doc with robots := doc.robots.map (RobotDecl.withVars vars) }

variable {settings : Settings} {doc : Document} {vars : RobotDecl → Option VarsDecl}

theorem robotNames_withVars : (doc.withVars vars).robotNames = doc.robotNames := by
  rw [robotNames, withVars, List.map_map]
  rfl

theorem listedRobots_withVars :
    (doc.withVars vars).listedRobots = doc.listedRobots.map (RobotDecl.withVars vars) := by
  rw [listedRobots, withVars, List.filter_map]
  rfl

theorem serviceNames_withVars :
    (doc.withVars vars).serviceNames settings = doc.serviceNames settings := by
  rw [serviceNames, listedRobots_withVars, List.flatMap_map]
  rfl

/-- No condition on the sections but those on variables themselves is about variables. -/
theorem SectionsWellFormed.withVars (wellFormed : doc.SectionsWellFormed settings)
    (accepted : ∀ decl ∈ doc.robots, (decl.withVars vars).VarsWellFormed) :
    (doc.withVars vars).SectionsWellFormed settings where
  areas_ne := wellFormed.areas_ne
  images := wellFormed.images
  images_nodup := wellFormed.images_nodup
  packages := wellFormed.packages
  packages_nodup := wellFormed.packages_nodup
  globals := by
    intro decl member
    exact (wellFormed.globals decl member).of_subset (List.Subset.refl _) (List.Subset.refl _)
  globals_nodup := wellFormed.globals_nodup
  robots := by
    intro changed member
    obtain ⟨decl, declared, rfl⟩ := List.mem_map.mp member
    have robot := wellFormed.robots decl declared
    exact {
      name_ne := robot.name_ne
      ros_ne := robot.ros_ne
      ros := robot.ros
      images := robot.images
      packages := robot.packages
      runs := robot.runs
      variable_name := fun entry listed => (accepted decl declared entry listed).1
      variable_scalar := fun entry listed => (accepted decl declared entry listed).2 }
  robots_nodup := by
    rw [robotNames_withVars]
    exact wellFormed.robots_nodup
  areas := by
    intro decl member
    apply (wellFormed.areas decl member).of_known
    intro robot _ known
    rwa [robotNames_withVars]
  areas_nodup := wellFormed.areas_nodup
  listed_nodup := wellFormed.listed_nodup

/-- An accepted document stays accepted with other variables exactly if all of their names are
identifiers and all of their values are scalars. -/
theorem WellFormed.withVars_iff (wellFormed : doc.WellFormed settings) :
    (doc.withVars vars).WellFormed settings ↔
      ∀ decl ∈ doc.robots, (decl.withVars vars).VarsWellFormed := by
  constructor
  · intro changed decl member
    exact (changed.robots _ (List.mem_map_of_mem member)).varsWellFormed
  · intro accepted
    refine ⟨wellFormed.toSectionsWellFormed.withVars accepted, ?_, ?_⟩
    · rw [listedRobots_withVars, List.map_map]
      exact wellFormed.endpoints_nodup
    · rw [serviceNames_withVars]
      exact wellFormed.services_nodup

/-! ## What is declared and what is referred to -/

open Template

/-- Any identifier is the name of a variable in some document that is accepted. -/
theorem exists_declared_of_isIdentifier {name : String}
    (identifier : Text.isIdentifier name = true) :
    ∃ settings doc fleet decl value, (loadFleet settings doc).outcome = .ok fleet ∧
      decl ∈ doc.robots ∧ (name, value) ∈ decl.varEntries := by
  obtain ⟨fleet, loaded⟩ := exists_loadFleet_sample
  have wellFormed := (loadFleet_eq_ok_iff.mp loaded).1
  let vars : RobotDecl → Option VarsDecl := fun _ => some (.map (.ofList [(name, .string "")]))
  have accepted : (sample.withVars vars).WellFormed .standard := by
    rw [wellFormed.withVars_iff]
    intro decl _ entry declared
    obtain rfl : entry = (name, .string "") := List.mem_singleton.mp declared
    exact ⟨identifier, "", rfl⟩
  refine ⟨.standard, sample.withVars vars, _, _, .string "",
    loadFleet_eq_ok_iff.mpr ⟨accepted, rfl⟩, List.mem_cons_self, ?_⟩
  exact List.mem_singleton.mpr rfl

theorem isIdentifier_of_declared {fleet : Fleet} {decl : RobotDecl} {name : String}
    {value : Yaml.Value} (loaded : (loadFleet settings doc).outcome = .ok fleet)
    (member : decl ∈ doc.robots) (declared : (name, value) ∈ decl.varEntries) :
    Text.isIdentifier name = true :=
  ((loadFleet_eq_ok_iff.mp loaded).1.robots decl member).variable_name _ declared

/-- A variable is refused for its name exactly if the name is no identifier. -/
theorem checkVariable_ne_refused_iff {name : String} :
    (∀ robot accepted value, Declarations.checkVariable robot accepted (name, value) ≠
      .error (.conflicting .robot robot (.variableName name))) ↔
        Text.isIdentifier name = true := by
  constructor
  · intro never
    by_contra refused
    exact never "" [] .null (by simp [Declarations.checkVariable, refused])
  · intro identifier robot accepted value
    cases written : value.scalarText with
    | none => simp [Declarations.checkVariable, identifier, written]
    | some text => simp [Declarations.checkVariable, identifier, written]

/-- For a name it is the same to be an identifier, to be what stands between the braces of a word of
the expression once it is trimmed, to be what a text refers to that has the name in braces, and with
any padding around it, to be the name of a placeholder in some text, to be declared in some document
that is accepted, and never to be refused where it is declared. -/
theorem isIdentifier_tfae (name : String) :
    List.TFAE [
      Text.isIdentifier name = true,
      ∃ raw ∈ placeholderExpression.matches', Text.trimChars (inside raw) = name.toList,
      RefersTo (braced name) name,
      ∀ before after, IsPadding before → IsPadding after →
        RefersTo (braced (before ++ name ++ after)) name,
      ∃ text raw, .placeholder name raw ∈ segments text,
      ∃ settings doc fleet decl value, (loadFleet settings doc).outcome = .ok fleet ∧
        decl ∈ doc.robots ∧ (name, value) ∈ decl.varEntries,
      ∀ robot accepted value, Declarations.checkVariable robot accepted (name, value) ≠
        .error (.conflicting .robot robot (.variableName name))] := by
  tfae_have 2 → 1 := by
    rintro ⟨raw, word, trimmed⟩
    obtain ⟨-, -, -, -, identifier, -⟩ := isWritten_iff_expression.mpr ⟨word, trimmed⟩
    exact identifier
  tfae_have 3 → 2 := fun refers => ⟨_, isWritten_iff_expression.mp (refersTo_iff.mp refers)⟩
  tfae_have 3 ↔ 1 := refersTo_braced_self_iff
  tfae_have 1 → 4 := fun identifier _ _ => refersTo_of_isIdentifier identifier
  tfae_have 4 → 5 := by
    intro refers
    obtain ⟨raw, cut⟩ := refers "" "" isPadding_empty isPadding_empty
    have member : .placeholder name raw ∈ segments (braced ("" ++ name ++ "")) := by
      rw [cut]
      exact List.mem_singleton.mpr rfl
    exact ⟨_, raw, member⟩
  tfae_have 5 → 1 := fun ⟨_, _, member⟩ => isIdentifier_of_mem_segments member
  tfae_have 1 → 6 := exists_declared_of_isIdentifier
  tfae_have 6 → 1 := fun ⟨_, _, _, _, _, loaded, member, declared⟩ =>
    isIdentifier_of_declared loaded member declared
  tfae_have 7 ↔ 1 := checkVariable_ne_refused_iff
  tfae_finish

/-! ## Values of references -/

/-- The variables of a loaded robot, those of the system with them, have names that can be referred
to. -/
theorem isIdentifier_of_get?_ofRobot {fleet : Fleet} {robot : Robot} {areaId name value : String}
    (loaded : (loadFleet settings doc).outcome = .ok fleet) (member : robot ∈ fleet.robots)
    (bound : (Scope.ofRobot areaId robot).get? name = some value) :
    Text.isIdentifier name = true := by
  obtain ⟨wellFormed, rfl⟩ := loadFleet_eq_ok_iff.mp loaded
  obtain ⟨decl, listed, rfl⟩ := List.mem_map.mp member
  rcases Scope.mem_of_get?_ofRobot bound with declared | system
  · obtain ⟨entry, entryMember, same⟩ := List.mem_map.mp declared
    obtain ⟨rfl, -⟩ := Prod.mk.inj same
    exact (wellFormed.robots decl (mem_listedRobots.mp listed).1).variable_name entry entryMember
  · have named := List.mem_map_of_mem (f := Prod.fst) system
    rw [Scope.map_fst_systemVars] at named
    have identifiers : ∀ family, (Scope.systemNames family).all Text.isIdentifier = true := by
      intro family
      cases family <;> decide +kernel
    exact List.all_eq_true.mp (identifiers _) name named

/-- A robot of an accepted document can refer to each of its variables, with any padding, and gets
the value. -/
theorem substitute_braced_of_loadFleet {fleet : Fleet} {robot : Robot}
    {areaId name value before after : String}
    (loaded : (loadFleet settings doc).outcome = .ok fleet) (member : robot ∈ fleet.robots)
    (bound : (Scope.ofRobot areaId robot).get? name = some value) (beforePad : IsPadding before)
    (afterPad : IsPadding after) :
    (Scope.ofRobot areaId robot).substitute (braced (before ++ name ++ after)) = .ok value := by
  have identifier := isIdentifier_of_get?_ofRobot loaded member bound
  obtain ⟨raw, cut⟩ := refersTo_of_isIdentifier identifier beforePad afterPad
  rw [Scope.substitute, cut]
  simp [Scope.substituteSegments, bound]

end Document

/-! ## Missing variables -/

namespace RobotDecl

/-- The variables that the robot declares, and one behind them. -/
def declaring (name text : String) (decl : RobotDecl) : VarsDecl :=
  let items :=
    match decl.vars with
    | none => []
    | some (.list items) => items
    | some (.map fields) => [fields]
  .list (items ++ [.ofList [(name, .string text)]])

theorem entries_declaring (name text : String) (decl : RobotDecl) :
    (decl.declaring name text).entries = decl.varEntries ++ [(name, .string text)] := by
  have last : (OrderedMap.ofList [(name, Yaml.Value.string text)]).entries =
      [(name, .string text)] := rfl
  rw [declaring, VarsDecl.entries, List.flatMap_append, List.flatMap_singleton, last, varEntries]
  cases decl.vars with
  | none => rfl
  | some vars =>
      cases vars with
      | list items => rfl
      | map fields =>
          rw [List.flatMap_singleton, Option.map_some, Option.getD_some, VarsDecl.entries]

/-- The variables of a robot, with one more if it is the given one. -/
def varsDeclaring (robot name text : String) (decl : RobotDecl) : Option VarsDecl :=
  if decl.name = robot then some (decl.declaring name text) else decl.vars

theorem varEntries_varsDeclaring (robot name text : String) (decl : RobotDecl) :
    (decl.withVars (varsDeclaring robot name text)).varEntries =
      decl.varEntries ++ if decl.name = robot then [(name, .string text)] else [] := by
  rw [varEntries, withVars, varsDeclaring]
  split
  next => rw [Option.map_some, Option.getD_some, entries_declaring]
  next => rw [List.append_nil, varEntries]

theorem VarsWellFormed.varsDeclaring {decl : RobotDecl} (wellFormed : decl.VarsWellFormed)
    {name : String} (identifier : Text.isIdentifier name = true) (robot text : String) :
    (decl.withVars (varsDeclaring robot name text)).VarsWellFormed := by
  intro entry declared
  rw [varEntries_varsDeclaring, List.mem_append] at declared
  rcases declared with earlier | last
  · exact wellFormed entry earlier
  · split at last
    · rw [List.mem_singleton.mp last]
      exact ⟨identifier, text, rfl⟩
    · cases last

end RobotDecl

/-- The name of a placeholder without a value is an identifier. -/
theorem Fleet.isIdentifier_of_expand_error {fleet : Fleet} {error : ExpansionError}
    (failed : fleet.expand.outcome = .error error) :
    Text.isIdentifier error.misfit.unresolved.name = true := by
  rw [outcome_expand, verdict_eq_error_iff] at failed
  obtain ⟨text, -, inText⟩ := List.mem_flatMap.mp (List.mem_of_head? failed)
  obtain ⟨unresolved, missing, rfl⟩ := List.mem_map.mp inText
  obtain ⟨segment, member, unbound⟩ := List.mem_filterMap.mp missing
  obtain ⟨rfl, -⟩ := Template.Scope.unboundSegment?_eq_some_iff.mp unbound
  exact Template.isIdentifier_of_mem_segments member

namespace Document

open Template

variable {settings : Settings} {doc : Document}

/-- The document with one more variable of a robot. -/
def declare (doc : Document) (robot name text : String) : Document :=
  doc.withVars (RobotDecl.varsDeclaring robot name text)

theorem get?_ofRobot_declare {robot : Robot} {name text : String}
    (member : robot ∈ ((doc.declare robot.id name text).fleet settings).robots) (areaId : String) :
    (Scope.ofRobot areaId robot).get? name = some text := by
  obtain ⟨changed, listed, same⟩ := List.mem_map.mp member
  rw [declare, listedRobots_withVars] at listed
  obtain ⟨decl, -, rfl⟩ := List.mem_map.mp listed
  have here : decl.name = robot.id := by
    rw [← same]
    rfl
  have last := RobotDecl.lastValue_varTexts
    (decl.withVars (RobotDecl.varsDeclaring robot.id name text)) name
  rw [RobotDecl.varEntries_varsDeclaring, if_pos here, lastValue_append, lastValue_singleton,
    if_pos rfl] at last
  rw [← same, Scope.get?_ofRobot, RobotDecl.placed, last]
  rfl

/-- When an accepted document cannot be expanded for want of a variable, the robot can declare it:
the document is still accepted, and the variable has the declared value. -/
theorem exists_loadFleet_declare_of_expand_error {fleet : Fleet} {error : ExpansionError}
    (loaded : (loadFleet settings doc).outcome = .ok fleet)
    (failed : fleet.expand.outcome = .error error) (text : String) :
    ∃ other,
      (loadFleet settings (doc.declare error.robot error.misfit.unresolved.name text)).outcome =
        .ok other ∧
      ∀ robot ∈ other.robots, robot.id = error.robot → ∀ areaId,
        (Scope.ofRobot areaId robot).get? error.misfit.unresolved.name = some text := by
  have wellFormed := (loadFleet_eq_ok_iff.mp loaded).1
  have identifier := Fleet.isIdentifier_of_expand_error failed
  have accepted : (doc.declare error.robot error.misfit.unresolved.name text).WellFormed settings :=
    wellFormed.withVars_iff.mpr fun decl member =>
      (wellFormed.robots decl member).varsWellFormed.varsDeclaring identifier error.robot text
  refine ⟨_, loadFleet_eq_ok_iff.mpr ⟨accepted, rfl⟩, ?_⟩
  intro robot member same areaId
  rw [← same] at member
  exact get?_ofRobot_declare member areaId

end Document

end FleetCompose
