import FleetCompose.Proofs.LexedValues
import FleetCompose.Yaml.Node.Grammar

/-!
# Reading written values

From the tokens of a written value the grammar reads a node, and the node stands for the value.
-/

namespace FleetCompose.Yaml

open Value (Place nodeKinds itemKinds entryKinds isLegible itemsLegible entriesLegible textForm
  shortKey?)

/-! ## Nodes that stand for values -/

/-- The node is read as the value, if its collections may be nested so deep. -/
def Node.Denotes (depth : Nat) (node : Node) (value : Value) : Prop :=
  ∀ (path : DocumentPath) (tree : Tree) (followed : Nat),
    Read.value depth path node tree followed = .ok (value, followed)

namespace Node

variable {depth : Nat}

theorem denotes_scalar {text : String} {form : ScalarForm} {value : Value} (mark : Mark)
    (stands : Read.scalarValue text (if form = .plain then Plain.resolve text else .text) =
      .ok value) : Denotes depth (.scalar text form none mark) value := by
  intro path tree followed
  have read : Read.scalar text form none tree followed = .ok (value, followed) := by
    simp only [Read.scalar, Read.namesVariant, Read.meaning, Except.bind, stands]
    rfl
  cases depth with
  | zero =>
      simp only [Read.value, Read.frame, Read.located, read]
      rfl
  | succ depth =>
      simp only [Read.value, Read.frame, Read.located, read]
      rfl

theorem items_of_denotes {nodes : List Node} {items : List Value}
    (same : List.Forall₂ (Denotes depth) nodes items) (path : DocumentPath) (index : Nat)
    (tree : Tree) (followed : Nat) :
    Read.items path (Read.value depth) index nodes tree followed = .ok (items, followed) := by
  induction same generalizing index with
  | nil => rfl
  | cons first _ ih =>
      simp only [Read.items, bind, ReaderT.bind, StateT.bind, Except.bind, first _ _ _, ih]
      rfl

theorem denotes_sequence {nodes : List Node} {items : List Value} (mark : Mark)
    (same : List.Forall₂ (Denotes depth) nodes items) :
    Denotes (depth + 1) (.sequence nodes none mark) (.sequence items) := by
  intro path tree followed
  have read := items_of_denotes same path 0 tree followed
  simp only [Read.value, Read.frame, Read.located, Read.namesVariant, Bool.false_eq_true,
    ↓reduceIte, bind, ReaderT.bind, StateT.bind, Except.bind, read]
  rfl

/-- The two nodes of an entry stand for its key and its value. -/
def DenotesEntry (depth : Nat) (nodes : Node × Node) (entry : Value × Value) : Prop :=
  nodes.1.Denotes depth entry.1 ∧ nodes.2.Denotes depth entry.2

theorem valueEntries_of_denotes {nodes : List (Node × Node)} {entries : List (Value × Value)}
    (same : List.Forall₂ (DenotesEntry depth) nodes entries) (path : DocumentPath) (tree : Tree)
    (followed : Nat) :
    Read.valueEntries path (Read.value depth) nodes tree followed = .ok (entries, followed) := by
  induction same with
  | nil => rfl
  | cons first _ ih =>
      simp only [Read.valueEntries, bind, ReaderT.bind, StateT.bind, Except.bind, first.1 _ _ _,
        first.2 _ _ _, ih]
      rfl

theorem denotes_mapping {nodes : List (Node × Node)} {entries : List (Value × Value)} (mark : Mark)
    (same : List.Forall₂ (DenotesEntry depth) nodes entries) :
    Denotes (depth + 1) (.mapping nodes none mark) (.mapping entries) := by
  intro path tree followed
  have read := valueEntries_of_denotes same path tree followed
  simp only [Read.value, Read.frame, Read.located, Read.namesVariant, Bool.false_eq_true,
    ↓reduceIte, bind, ReaderT.bind, StateT.bind, Except.bind, read]
  rfl

end Node

namespace Reading

/-! ## Single tokens -/

/-- The reading with other tokens left. -/
def withTokens (reading : Reading) (tokens : List Token) : Reading := { reading with tokens }

variable {reading : Reading} {token : Token} {tokens front behind : List Token} {fuel : Nat}
variable {indentless : Bool}

theorem peek?_withTokens_cons : (reading.withTokens (token :: tokens)).peek? = some token := rfl

theorem skip_withTokens_cons :
    (reading.withTokens (token :: tokens)).skip = reading.withTokens tokens := rfl

theorem failed_withTokens (sound : reading.failure = none) :
    (reading.withTokens tokens).failed = false := by
  rw [failed, withTokens, sound]
  rfl

/-- Is a token of the kind the first one of a node without properties? -/
def startsNode : TokenKind → Bool
  | .scalar _ _ | .flowSequenceStart | .flowMappingStart | .blockSequenceStart
  | .blockMappingStart | .blockEntry => true
  | _ => false

/-- The properties of a node that has none. -/
def plainProperties (token : Token) : Properties := ⟨none, none, token.first⟩

theorem node_eq_content (starts : startsNode token.kind = true) :
    node (fuel + 1) true indentless (reading.withTokens (token :: tokens)) =
      content fuel true indentless (plainProperties token)
        (reading.withTokens (token :: tokens)) := by
  obtain ⟨kind, first, last⟩ := token
  cases kind <;> first | rfl | cases starts

theorem nodeUnless_eq_node {kinds : List TokenKind} {mark : Option Mark}
    (other : kinds.contains token.kind = false) :
    nodeUnless (fuel + 1) true indentless kinds mark (reading.withTokens (token :: tokens)) =
      node fuel true indentless (reading.withTokens (token :: tokens)) := by
  simp only [nodeUnless, peek?_withTokens_cons, other, Bool.false_eq_true, ↓reduceIte]

/-! ## Nodes -/

/-- Behind the last item of a sequence that is not indented there is something else. -/
def EndsItems (behind : List Token) : Prop :=
  ∃ token tokens, behind = token :: tokens ∧ token.kind ≠ .blockEntry

/-- From tokens of the kinds a node is read that stands for the value. They do not start with a
token that would stand for a node that is left out. -/
structure KindsRead (depth : Nat) (place : Place) (kinds : List TokenKind) (value : Value) :
    Prop where
  head : ∃ kind more, kinds = kind :: more ∧
    [TokenKind.key, .value, .blockEnd].contains kind = false ∧
    (place.fresh = true → kind ≠ .blockEntry)
  reads : ∀ (fuel : Nat) (indentless : Bool) (reading : Reading) (front behind : List Token),
    reading.failure = none → front.map Token.kind = kinds → 4 * front.length ≤ fuel →
    ((place.inEntry && !place.fresh) = true → indentless = true ∧ EndsItems behind) →
    ∃ read, node fuel true indentless (reading.withTokens (front ++ behind)) =
      (read, reading.withTokens behind) ∧ read.Denotes depth value

/-- From the tokens of a value a node is read that stands for the value. -/
def NodeReads (value : Value) : Prop :=
  ∀ (depth : Nat) (place : Place), value.isLegible depth = true →
    KindsRead depth place (nodeKinds place value) value

theorem kindsRead_scalar {depth : Nat} {text : String} {form : ScalarForm} {value : Value}
    (place : Place)
    (stands : Read.scalarValue text (if form = .plain then Plain.resolve text else .text) =
      .ok value) : KindsRead depth place [.scalar text form] value where
  head := ⟨_, _, rfl, rfl, fun _ => by simp⟩
  reads := by
    intro fuel indentless reading front behind _ kinds_eq enough _
    obtain ⟨token, rest, rfl, kind_eq, rest_eq⟩ := List.map_eq_cons_iff.mp kinds_eq
    cases List.map_eq_nil_iff.mp rest_eq
    obtain ⟨fuel, rfl⟩ := Nat.exists_eq_add_of_le' (show 2 ≤ fuel by simp at enough; omega)
    refine ⟨_, ?_, Node.denotes_scalar token.first stands⟩
    rw [List.cons_append, node_eq_content (by rw [kind_eq]; rfl)]
    simp only [content, peek?_withTokens_cons, kind_eq]
    rfl

theorem node_emptySequence {depth : Nat}
    (kinds_eq : front.map Token.kind = [.flowSequenceStart, .flowSequenceEnd])
    (enough : 4 * front.length ≤ fuel) :
    ∃ read, node fuel true indentless (reading.withTokens (front ++ behind)) =
      (read, reading.withTokens behind) ∧ read.Denotes (depth + 1) (.sequence []) := by
  obtain ⟨opening, rest, rfl, opening_eq, rest_eq⟩ := List.map_eq_cons_iff.mp kinds_eq
  obtain ⟨closing, rest, rfl, closing_eq, rest_eq⟩ := List.map_eq_cons_iff.mp rest_eq
  cases List.map_eq_nil_iff.mp rest_eq
  obtain ⟨fuel, rfl⟩ := Nat.exists_eq_add_of_le' (show 3 ≤ fuel by simp at enough; omega)
  refine ⟨_, ?_, Node.denotes_sequence opening.first .nil⟩
  rw [List.cons_append, node_eq_content (by rw [opening_eq]; rfl)]
  simp only [content, peek?_withTokens_cons, opening_eq, flowItems, claim, plainProperties,
    skip_withTokens_cons, List.cons_append, closing_eq, List.nil_append, ↓reduceIte]
  rfl

theorem node_emptyMapping {depth : Nat}
    (kinds_eq : front.map Token.kind = [.flowMappingStart, .flowMappingEnd])
    (enough : 4 * front.length ≤ fuel) :
    ∃ read, node fuel true indentless (reading.withTokens (front ++ behind)) =
      (read, reading.withTokens behind) ∧ read.Denotes (depth + 1) (.mapping []) := by
  obtain ⟨opening, rest, rfl, opening_eq, rest_eq⟩ := List.map_eq_cons_iff.mp kinds_eq
  obtain ⟨closing, rest, rfl, closing_eq, rest_eq⟩ := List.map_eq_cons_iff.mp rest_eq
  cases List.map_eq_nil_iff.mp rest_eq
  obtain ⟨fuel, rfl⟩ := Nat.exists_eq_add_of_le' (show 3 ≤ fuel by simp at enough; omega)
  refine ⟨_, ?_, Node.denotes_mapping opening.first .nil⟩
  rw [List.cons_append, node_eq_content (by rw [opening_eq]; rfl)]
  simp only [content, peek?_withTokens_cons, opening_eq, flowEntries, claim, plainProperties,
    skip_withTokens_cons, List.cons_append, closing_eq, List.nil_append, ↓reduceIte]
  rfl

/-! ## Collections -/

theorem exists_nodeKinds {depth : Nat} {value : Value} (legible : value.isLegible depth = true)
    (place : Place) :
    ∃ kind kinds, nodeKinds place value = kind :: kinds ∧
      [TokenKind.key, .value, .blockEnd].contains kind = false ∧
      (place.fresh = true → kind ≠ .blockEntry) := by
  cases value with
  | sequence items =>
      cases items with
      | nil => exact ⟨_, _, rfl, rfl, fun _ => by simp⟩
      | cons item items =>
          rw [nodeKinds]
          · split
            next indentless =>
              obtain ⟨-, stale⟩ : place.inEntry = true ∧ place.fresh = false := by
                simpa using indentless
              rw [itemKinds]
              exact ⟨_, _, rfl, rfl, fun fresh => by rw [stale] at fresh; cases fresh⟩
            next => exact ⟨_, _, rfl, rfl, fun _ => by simp⟩
          · exact List.cons_ne_nil _ _
  | mapping entries =>
      cases entries with
      | nil => exact ⟨_, _, rfl, rfl, fun _ => by simp⟩
      | cons entry entries =>
          rw [nodeKinds]
          · exact ⟨_, _, rfl, rfl, fun _ => by simp⟩
          · exact List.cons_ne_nil _ _
  | tagged tag value => cases legible
  | _ => exact ⟨_, _, rfl, rfl, fun _ => by simp⟩

/-- A node is read where it stands for an item, a key or a value, unless there is none. -/
theorem KindsRead.exists_nodeUnless {depth : Nat} {value : Value} {place : Place} {mark : Mark}
    {kinds ends : List TokenKind} (kindsRead : KindsRead depth place kinds value)
    (sound : reading.failure = none) (kinds_eq : front.map Token.kind = kinds)
    (enough : 4 * front.length + 1 ≤ fuel)
    (known : ∀ kind ∈ ends, kind ∈ [TokenKind.key, .value, .blockEnd] ∨
      (kind = .blockEntry ∧ place.fresh = true))
    (follows : (place.inEntry && !place.fresh) = true → indentless = true ∧ EndsItems behind) :
    ∃ read, nodeUnless fuel true indentless ends (some mark)
        (reading.withTokens (front ++ behind)) = (read, reading.withTokens behind) ∧
      read.Denotes depth value := by
  obtain ⟨fuel, rfl⟩ := Nat.exists_eq_add_of_le' (show 1 ≤ fuel by omega)
  obtain ⟨read, read_eq, denotes⟩ := kindsRead.reads fuel indentless reading front behind sound
    kinds_eq (by omega) follows
  obtain ⟨kind, more, rfl, noEnd, noDash⟩ := kindsRead.head
  obtain ⟨token, rest, rfl, rfl, -⟩ := List.map_eq_cons_iff.mp kinds_eq
  have other : ends.contains token.kind = false := by
    rw [← Bool.not_eq_true, List.contains_iff_mem]
    intro member
    rcases known _ member with isEnd | ⟨isDash, fresh⟩
    · rw [← List.contains_iff_mem, noEnd] at isEnd
      cases isEnd
    · exact noDash fresh isDash
  refine ⟨read, ?_, denotes⟩
  rw [List.cons_append, nodeUnless_eq_node other]
  exact read_eq

/-- From the tokens of the items of a sequence nodes are read that stand for the items. -/
def ItemsRead (items : List Value) : Prop :=
  ∀ (depth fuel : Nat) (since : Mark) (reading : Reading) (front behind : List Token),
    itemsLegible depth items = true → reading.failure = none →
    front.map Token.kind = itemKinds items ++ [.blockEnd] → 4 * front.length ≤ fuel + 2 →
    ∃ nodes, blockItems fuel since (reading.withTokens (front ++ behind)) =
      (nodes, reading.withTokens behind) ∧ List.Forall₂ (Node.Denotes depth) nodes items

/-- The same for a sequence that is not indented. -/
def IndentlessRead (items : List Value) : Prop :=
  ∀ (depth fuel : Nat) (reading : Reading) (front behind : List Token),
    itemsLegible depth items = true → reading.failure = none →
    front.map Token.kind = itemKinds items → EndsItems behind → 1 ≤ fuel →
    4 * front.length ≤ fuel + 2 →
    ∃ nodes, indentlessItems fuel (reading.withTokens (front ++ behind)) =
      (nodes, reading.withTokens behind) ∧ List.Forall₂ (Node.Denotes depth) nodes items

/-- From tokens of the kinds nodes are read that stand for the entries of a mapping. -/
def EntryKindsRead (depth : Nat) (kinds : List TokenKind) (entries : List (Value × Value)) : Prop :=
  ∀ (fuel : Nat) (since : Mark) (reading : Reading) (front behind : List Token),
    reading.failure = none → front.map Token.kind = kinds ++ [.blockEnd] →
    4 * front.length ≤ fuel + 2 →
    ∃ nodes, blockEntries fuel since (reading.withTokens (front ++ behind)) =
      (nodes, reading.withTokens behind) ∧ List.Forall₂ (Node.DenotesEntry depth) nodes entries

/-- From the tokens of the entries of a mapping nodes are read that stand for the entries. -/
def EntriesRead (entries : List (Value × Value)) : Prop :=
  ∀ depth : Nat, entriesLegible depth entries = true →
    EntryKindsRead depth (entryKinds entries) entries

theorem itemsRead_nil : ItemsRead [] := by
  intro depth fuel since reading front behind _ _ kinds_eq enough
  obtain ⟨token, rest, rfl, kind_eq, rest_eq⟩ := List.map_eq_cons_iff.mp kinds_eq
  cases List.map_eq_nil_iff.mp rest_eq
  obtain ⟨fuel, rfl⟩ := Nat.exists_eq_add_of_le' (show 1 ≤ fuel by simp at enough; omega)
  refine ⟨[], ?_, .nil⟩
  simp only [blockItems, List.cons_append, peek?_withTokens_cons, kind_eq]
  rfl

/-- The first item of a sequence is a dash and a node, in a sequence that is indented and in one
that is not. -/
theorem exists_item {depth : Nat} {item : Value} {items : List Value} {ends kinds : List TokenKind}
    (reads : NodeReads item) (legible : item.isLegible depth = true)
    (sound : reading.failure = none)
    (kinds_eq : front.map Token.kind = itemKinds (item :: items) ++ kinds)
    (enough : 4 * front.length ≤ fuel + 3)
    (known : ∀ kind ∈ ends, kind ∈ [TokenKind.blockEntry, .key, .value, .blockEnd])
    (behind : List Token) :
    ∃ dash itemTokens others read, front = dash :: (itemTokens ++ others) ∧
      dash.kind = .blockEntry ∧ others.map Token.kind = itemKinds items ++ kinds ∧
      nodeUnless fuel true false ends (some dash.last)
        (reading.withTokens (itemTokens ++ (others ++ behind))) =
          (read, reading.withTokens (others ++ behind)) ∧ read.Denotes depth item := by
  rw [itemKinds, List.cons_append, List.cons_append] at kinds_eq
  obtain ⟨dash, rest, rfl, dash_eq, rest_eq⟩ := List.map_eq_cons_iff.mp kinds_eq
  rw [List.append_assoc] at rest_eq
  obtain ⟨itemTokens, others, rfl, item_eq, others_eq⟩ := List.map_eq_append_iff.mp rest_eq
  simp only [List.length_cons, List.length_append] at enough
  have isEnd : ∀ kind ∈ ends, kind ∈ [TokenKind.key, .value, .blockEnd] ∨
      (kind = .blockEntry ∧ Place.afterDash.fresh = true) := by
    intro kind member
    rcases List.mem_cons.mp (known kind member) with isDash | other
    · exact .inr ⟨isDash, rfl⟩
    · exact .inl other
  obtain ⟨read, read_eq, denotes⟩ := (reads depth .afterDash legible).exists_nodeUnless sound
    item_eq (show 4 * itemTokens.length + 1 ≤ fuel by omega) isEnd
    fun indentless => by cases indentless
  exact ⟨dash, itemTokens, others, read, rfl, dash_eq, others_eq, read_eq, denotes⟩

theorem itemsRead_cons {item : Value} {items : List Value} (reads : NodeReads item)
    (more : ItemsRead items) : ItemsRead (item :: items) := by
  intro depth fuel since reading front behind legible sound kinds_eq enough
  rw [itemsLegible, Bool.and_eq_true] at legible
  have positive : 1 ≤ fuel := by
    have length := congrArg List.length kinds_eq
    simp [itemKinds] at length
    omega
  obtain ⟨fuel, rfl⟩ := Nat.exists_eq_add_of_le' positive
  obtain ⟨dash, itemTokens, others, read, rfl, dash_eq, others_eq, read_eq, denotes⟩ :=
    exists_item reads legible.1 sound kinds_eq enough
      (show ∀ kind ∈ [TokenKind.blockEntry, .blockEnd], _ by decide) behind
  simp only [List.length_cons, List.length_append] at enough
  obtain ⟨nodes, nodes_eq, same⟩ := more depth fuel since reading others behind legible.2 sound
    others_eq (by omega)
  refine ⟨read :: nodes, ?_, .cons denotes same⟩
  simp only [blockItems, List.cons_append, List.append_assoc, peek?_withTokens_cons, dash_eq,
    skip_withTokens_cons, read_eq, failed_withTokens sound, nodes_eq, Bool.false_eq_true,
    ↓reduceIte]

theorem indentlessRead_nil : IndentlessRead [] := by
  intro depth fuel reading front behind _ _ kinds_eq ends positive _
  cases List.map_eq_nil_iff.mp kinds_eq
  obtain ⟨token, tokens, rfl, other⟩ := ends
  obtain ⟨fuel, rfl⟩ := Nat.exists_eq_add_of_le' positive
  refine ⟨[], ?_, .nil⟩
  simp only [indentlessItems, List.nil_append, peek?_withTokens_cons, other, ↓reduceIte]

theorem indentlessRead_cons {item : Value} {items : List Value} (reads : NodeReads item)
    (more : IndentlessRead items) : IndentlessRead (item :: items) := by
  intro depth fuel reading front behind legible sound kinds_eq ends positive enough
  rw [itemsLegible, Bool.and_eq_true] at legible
  rw [← List.append_nil (itemKinds _)] at kinds_eq
  obtain ⟨fuel, rfl⟩ := Nat.exists_eq_add_of_le' positive
  obtain ⟨dash, itemTokens, others, read, rfl, dash_eq, others_eq, read_eq, denotes⟩ :=
    exists_item reads legible.1 sound kinds_eq enough (fun kind member => member) behind
  rw [List.append_nil] at others_eq
  simp only [List.length_cons, List.length_append] at enough
  obtain ⟨nodes, nodes_eq, same⟩ := more depth fuel reading others behind legible.2 sound others_eq
    ends (by omega) (by omega)
  refine ⟨read :: nodes, ?_, .cons denotes same⟩
  simp only [indentlessItems, List.cons_append, List.append_assoc, peek?_withTokens_cons, dash_eq,
    skip_withTokens_cons, read_eq, failed_withTokens sound, nodes_eq, Bool.false_eq_true,
    ↓reduceIte]

theorem entryKindsRead_nil {depth : Nat} : EntryKindsRead depth [] [] := by
  intro fuel since reading front behind _ kinds_eq enough
  obtain ⟨token, rest, rfl, kind_eq, rest_eq⟩ := List.map_eq_cons_iff.mp kinds_eq
  cases List.map_eq_nil_iff.mp rest_eq
  obtain ⟨fuel, rfl⟩ := Nat.exists_eq_add_of_le' (show 1 ≤ fuel by simp at enough; omega)
  refine ⟨[], ?_, .nil⟩
  simp only [blockEntries, List.cons_append, peek?_withTokens_cons, kind_eq]
  rfl

theorem entryKindsRead_cons {depth : Nat} {place : Place} {key value : Value}
    {entries : List (Value × Value)} {keyKinds valueKinds kinds : List TokenKind}
    (keyReads : KindsRead depth .afterMark keyKinds key)
    (valueReads : KindsRead depth place valueKinds value)
    (more : EntryKindsRead depth kinds entries) (ends : kinds.head? ≠ some .blockEntry) :
    EntryKindsRead depth (.key :: (keyKinds ++ .value :: (valueKinds ++ kinds)))
      ((key, value) :: entries) := by
  intro fuel since reading front behind sound kinds_eq enough
  simp only [List.cons_append, List.append_assoc] at kinds_eq
  obtain ⟨mark, rest, rfl, mark_eq, rest_eq⟩ := List.map_eq_cons_iff.mp kinds_eq
  obtain ⟨keyTokens, rest, rfl, key_eq, rest_eq⟩ := List.map_eq_append_iff.mp rest_eq
  obtain ⟨colon, rest, rfl, colon_eq, rest_eq⟩ := List.map_eq_cons_iff.mp rest_eq
  obtain ⟨valueTokens, others, rfl, value_eq, others_eq⟩ := List.map_eq_append_iff.mp rest_eq
  -- The value may be a sequence that is not indented: it ends at the next key.
  have endsItems : EndsItems (others ++ behind) := by
    cases others with
    | nil => simp at others_eq
    | cons token others =>
        refine ⟨token, others ++ behind, rfl, fun isDash => ?_⟩
        cases kinds with
        | nil =>
            rw [List.nil_append, List.map_cons, isDash] at others_eq
            cases others_eq
        | cons kind kinds =>
            rw [List.cons_append, List.map_cons, isDash] at others_eq
            exact ends (congrArg some (List.cons.inj others_eq).1.symm)
  simp only [List.length_cons, List.length_append] at enough
  obtain ⟨fuel, rfl⟩ := Nat.exists_eq_add_of_le' (show 2 ≤ fuel by omega)
  obtain ⟨keyNode, keyNode_eq, keyDenotes⟩ := @KindsRead.exists_nodeUnless reading keyTokens
    (colon :: (valueTokens ++ (others ++ behind))) (fuel + 1) true depth key .afterMark mark.last _
    [.key, .value, .blockEnd] keyReads sound key_eq (by omega) (by decide)
    fun indentless => by cases indentless
  obtain ⟨valueNode, valueNode_eq, valueDenotes⟩ := @KindsRead.exists_nodeUnless reading
    valueTokens (others ++ behind) fuel true depth value place colon.last _
    [.key, .value, .blockEnd] valueReads sound value_eq (by omega) (fun kind member => .inl member)
    fun _ => ⟨rfl, endsItems⟩
  have blockValue_eq : blockValue (fuel + 1) (reading.withTokens
      (colon :: (valueTokens ++ (others ++ behind)))) =
        (valueNode, reading.withTokens (others ++ behind)) := by
    simp only [blockValue, peek?_withTokens_cons, colon_eq, skip_withTokens_cons, ↓reduceIte,
      valueNode_eq]
  obtain ⟨nodes, nodes_eq, same⟩ := more (fuel + 1) since reading others behind sound others_eq
    (by omega)
  refine ⟨(keyNode, valueNode) :: nodes, ?_, .cons ⟨keyDenotes, valueDenotes⟩ same⟩
  rw [List.cons_append, List.append_assoc, List.cons_append, List.append_assoc, blockEntries]
  simp only [peek?_withTokens_cons, mark_eq, skip_withTokens_cons, keyNode_eq,
    failed_withTokens sound, blockValue_eq, nodes_eq, Bool.false_eq_true, ↓reduceIte]

theorem entriesRead_cons {key value : Value} {entries : List (Value × Value)}
    (keyReads : NodeReads key) (valueReads : NodeReads value) (more : EntriesRead entries) :
    EntriesRead ((key, value) :: entries) := by
  intro depth legible
  rw [entriesLegible, Bool.and_eq_true, Bool.and_eq_true] at legible
  obtain ⟨⟨keyLegible, valueLegible⟩, moreLegible⟩ := legible
  have ends : (entryKinds entries).head? ≠ some .blockEntry := by
    cases entries with
    | nil => simp [entryKinds]
    | cons entry entries => simp [entryKinds]
  have reads := entryKindsRead_cons (keyReads depth .afterMark keyLegible)
    (valueReads depth (if (shortKey? key).isSome then .afterKey else .afterMark) valueLegible)
    (more depth moreLegible) ends
  rw [entryKinds]
  simpa only [List.cons_append, List.append_assoc] using reads

/-- A sequence that is indented, from the tokens of its items. -/
theorem ItemsRead.exists_node {depth : Nat} {items : List Value} (reads : ItemsRead items)
    (legible : itemsLegible depth items = true) (sound : reading.failure = none)
    (kinds_eq : front.map Token.kind = .blockSequenceStart :: (itemKinds items ++ [.blockEnd]))
    (enough : 4 * front.length ≤ fuel) :
    ∃ read, node fuel true indentless (reading.withTokens (front ++ behind)) =
      (read, reading.withTokens behind) ∧ read.Denotes (depth + 1) (.sequence items) := by
  obtain ⟨start, rest, rfl, start_eq, rest_eq⟩ := List.map_eq_cons_iff.mp kinds_eq
  rw [List.length_cons] at enough
  obtain ⟨fuel, rfl⟩ := Nat.exists_eq_add_of_le' (show 2 ≤ fuel by omega)
  obtain ⟨nodes, nodes_eq, same⟩ := reads depth fuel start.first reading rest behind legible sound
    rest_eq (by omega)
  refine ⟨_, ?_, Node.denotes_sequence start.first same⟩
  rw [List.cons_append, node_eq_content (by rw [start_eq]; rfl)]
  simp only [content, peek?_withTokens_cons, start_eq, claim, plainProperties, ↓reduceIte,
    skip_withTokens_cons, nodes_eq]
  rfl

/-- A sequence that is not indented starts with the dash of its first item. -/
theorem IndentlessRead.exists_node {depth : Nat} {item : Value} {items : List Value}
    (reads : IndentlessRead (item :: items)) (legible : itemsLegible depth (item :: items) = true)
    (sound : reading.failure = none) (kinds_eq : front.map Token.kind = itemKinds (item :: items))
    (ends : EndsItems behind) (enough : 4 * front.length ≤ fuel) :
    ∃ read, node fuel true true (reading.withTokens (front ++ behind)) =
      (read, reading.withTokens behind) ∧
        read.Denotes (depth + 1) (.sequence (item :: items)) := by
  have whole := kinds_eq
  rw [itemKinds] at kinds_eq
  obtain ⟨dash, rest, rfl, dash_eq, -⟩ := List.map_eq_cons_iff.mp kinds_eq
  rw [List.length_cons] at enough
  obtain ⟨fuel, rfl⟩ := Nat.exists_eq_add_of_le' (show 3 ≤ fuel by omega)
  obtain ⟨nodes, nodes_eq, same⟩ := reads depth (fuel + 1) reading (dash :: rest) behind legible
    sound whole ends (by omega) (by simp; omega)
  refine ⟨_, ?_, Node.denotes_sequence dash.first same⟩
  rw [List.cons_append, node_eq_content (by rw [dash_eq]; rfl)]
  simp only [content, peek?_withTokens_cons, dash_eq, claim, plainProperties, ↓reduceIte]
  rw [← List.cons_append, nodes_eq]
  rfl

theorem nodeReads_sequence {items : List Value} (indented : ItemsRead items)
    (flat : IndentlessRead items) : NodeReads (.sequence items) := by
  intro depth place legible
  refine ⟨exists_nodeKinds legible place, ?_⟩
  intro fuel indentless reading front behind sound kinds_eq enough follows
  rw [isLegible, Bool.and_eq_true, decide_eq_true_eq] at legible
  obtain ⟨positive, legible⟩ := legible
  obtain ⟨depth, rfl⟩ := Nat.exists_eq_add_of_le' positive
  cases items with
  | nil => exact node_emptySequence kinds_eq enough
  | cons item items =>
      rw [nodeKinds] at kinds_eq
      · split at kinds_eq
        next isFlat =>
          obtain ⟨rfl, ends⟩ := follows isFlat
          exact flat.exists_node legible sound kinds_eq ends enough
        next => exact indented.exists_node legible sound kinds_eq enough
      · exact List.cons_ne_nil _ _

/-- A mapping, from the tokens of its entries. -/
theorem EntryKindsRead.exists_node {depth : Nat} {kinds : List TokenKind}
    {entries : List (Value × Value)} (reads : EntryKindsRead depth kinds entries)
    (sound : reading.failure = none)
    (kinds_eq : front.map Token.kind = .blockMappingStart :: (kinds ++ [.blockEnd]))
    (enough : 4 * front.length ≤ fuel) :
    ∃ read, node fuel true indentless (reading.withTokens (front ++ behind)) =
      (read, reading.withTokens behind) ∧ read.Denotes (depth + 1) (.mapping entries) := by
  obtain ⟨start, rest, rfl, start_eq, rest_eq⟩ := List.map_eq_cons_iff.mp kinds_eq
  rw [List.length_cons] at enough
  obtain ⟨fuel, rfl⟩ := Nat.exists_eq_add_of_le' (show 2 ≤ fuel by omega)
  obtain ⟨nodes, nodes_eq, same⟩ := reads fuel start.first reading rest behind sound rest_eq
    (by omega)
  refine ⟨_, ?_, Node.denotes_mapping start.first same⟩
  rw [List.cons_append, node_eq_content (by rw [start_eq]; rfl)]
  simp only [content, peek?_withTokens_cons, start_eq, claim, plainProperties, ↓reduceIte,
    skip_withTokens_cons, nodes_eq]
  rfl

theorem nodeReads_mapping {entries : List (Value × Value)} (reads : EntriesRead entries) :
    NodeReads (.mapping entries) := by
  intro depth place legible
  refine ⟨exists_nodeKinds legible place, ?_⟩
  intro fuel indentless reading front behind sound kinds_eq enough _
  rw [isLegible, Bool.and_eq_true, decide_eq_true_eq] at legible
  obtain ⟨positive, legible⟩ := legible
  obtain ⟨depth, rfl⟩ := Nat.exists_eq_add_of_le' positive
  cases entries with
  | nil => exact node_emptyMapping kinds_eq enough
  | cons entry entries =>
      rw [nodeKinds] at kinds_eq
      · exact (reads depth legible).exists_node sound kinds_eq enough
      · exact List.cons_ne_nil _ _

theorem scalarValue_text (text : String) :
    Read.scalarValue text (if textForm text = .plain then Plain.resolve text else .text) =
      .ok (.string text) := by
  have clear (style : Style.ofText text = .plain) : Plain.resolve text = .text := by
    obtain ⟨-, clear⟩ : Style.Allows text .plain := style ▸ Style.allows_ofText text
    simpa [Plain.isAmbiguous] using (Bool.or_eq_false_iff.mp clear).1
  rw [textForm]
  by_cases style : Style.ofText text = .plain
  · rw [if_pos style, if_pos rfl, clear style]
    rfl
  · rw [if_neg style]
    rfl

theorem scalarValue_number {number : Number} (legible : number.isLegible = true) :
    Read.scalarValue number.text (Plain.resolve number.text) = .ok (.number number) := by
  cases number with
  | int value =>
      simp only [Number.isLegible, Bool.and_eq_true, beq_iff_eq] at legible
      rw [legible.2, Read.scalarValue, if_pos legible.1]
  | float value =>
      simp only [Number.isLegible, beq_iff_eq] at legible
      rw [legible]
      rfl

mutual

/-- From the tokens of a value a node is read that stands for the value. -/
theorem nodeReads : ∀ value : Value, NodeReads value
  | .null => fun _ place _ => kindsRead_scalar place rfl
  | .bool true => fun _ place _ => kindsRead_scalar place rfl
  | .bool false => fun _ place _ => kindsRead_scalar place rfl
  | .number n => fun depth place legible => by
      rw [isLegible] at legible
      exact kindsRead_scalar place (scalarValue_number legible)
  | .string text => fun _ place _ => kindsRead_scalar place (scalarValue_text text)
  | .sequence items => nodeReads_sequence (itemsRead items) (indentlessRead items)
  | .mapping entries => nodeReads_mapping (entriesRead entries)
  | .tagged tag value => fun _ _ legible => by cases legible

theorem itemsRead : ∀ items : List Value, ItemsRead items
  | [] => itemsRead_nil
  | item :: items => itemsRead_cons (nodeReads item) (itemsRead items)

theorem indentlessRead : ∀ items : List Value, IndentlessRead items
  | [] => indentlessRead_nil
  | item :: items => indentlessRead_cons (nodeReads item) (indentlessRead items)

theorem entriesRead : ∀ entries : List (Value × Value), EntriesRead entries
  | [] => fun _ _ => entryKindsRead_nil
  | (key, value) :: entries =>
      entriesRead_cons (nodeReads key) (nodeReads value) (entriesRead entries)

end

end Reading

end FleetCompose.Yaml
