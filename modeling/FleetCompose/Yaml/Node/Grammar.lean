import FleetCompose.Yaml.Node
import FleetCompose.Yaml.Token.Lexer

/-!
# From tokens to trees

The functions of this module follow the grammar of YAML: a node is an alias, or properties
and a content, and a content is a scalar, a collection or nothing. They read from the tokens
of a document as far as these are there; the first error, or the end of the tokens that are
there, cuts the tree.
-/

namespace FleetCompose.Yaml

/-- What is known about a document while its tokens are read. -/
structure Reading where
  /-- The tokens that are left. -/
  tokens : List Token
  /-- What comes behind the tokens when they run out. -/
  behind : BreakOff
  /-- Why the document has broken off. -/
  failure : Option BreakOff
  /-- What the handles of tags stand for. -/
  handles : List (String × String)
  /-- The number that an anchor stands for, latest names first. -/
  names : List (String × Nat)
  /-- The start of the latest node for every number: how many anchors there were before it. -/
  latest : List (Nat × Nat)
  /-- The anchored nodes, by how many anchors there were before them. -/
  nodes : List (Nat × Node)

namespace Reading

/-- Handles that need no directive. -/
def standardHandles : List (String × String) := [("!", "!"), ("!!", "tag:yaml.org,2002:")]

/-- Break off. -/
def fail (reading : Reading) (failure : BreakOff) : Reading :=
  { reading with failure := some failure }

/-- Break off because of a syntax error. -/
def refuse (reading : Reading) (error : SyntaxError) : Reading :=
  reading.fail (.syntaxError error)

/-- Break off because the tokens have run out. -/
def runOut (reading : Reading) : Reading := reading.fail reading.behind

/-- Has the document broken off? -/
def failed (reading : Reading) : Bool := reading.failure.isSome

/-- The next token. -/
def peek? (reading : Reading) : Option Token := reading.tokens.head?

/-- Go over a token. -/
def skip (reading : Reading) : Reading := { reading with tokens := reading.tokens.drop 1 }

/-! ## Properties -/

/-- The properties of a node, and where it starts. -/
structure Properties where
  anchor : Option String
  tag : Option String
  mark : Mark

/-- The full form of a tag. -/
def fullTag? (reading : Reading) (handle suffix : String) : Option String :=
  if handle.isEmpty then some suffix
  else (reading.handles.find? fun entry => entry.1 == handle).map fun entry => entry.2 ++ suffix

/-- Read an anchor, if there is one. -/
def readAnchor (reading : Reading) : Option String × Reading :=
  match reading.peek? with
  | some ⟨.anchor name, _, _⟩ => (some name, reading.skip)
  | _ => (none, reading)

/-- A tag as written: its handle, its suffix and its mark. -/
structure WrittenTag where
  handle : String
  suffix : String
  mark : Mark

/-- Read a tag, if there is one. -/
def readTag (reading : Reading) : Option WrittenTag × Reading :=
  match reading.peek? with
  | some ⟨.tag handle suffix, first, _⟩ => (some ⟨handle, suffix, first⟩, reading.skip)
  | _ => (none, reading)

/-- Read the properties of a node that starts at a mark: an anchor and a tag, in either
order. The handle of the tag is resolved behind both. -/
def readProperties (reading : Reading) (mark : Mark) :
    Except BreakOff (Properties × Reading) :=
  let (early, reading) := reading.readAnchor
  let (tag, reading) := reading.readTag
  let (late, reading) := if early.isSome then (none, reading) else reading.readAnchor
  let anchor := early.or late
  if reading.tokens.isEmpty then .error reading.behind
  else
    match tag with
    | none => .ok (⟨anchor, none, mark⟩, reading)
    | some tag =>
        match reading.fullTag? tag.handle tag.suffix with
        | some full => .ok (⟨anchor, some full, mark⟩, reading)
        | none =>
            .error (.syntaxError (.during .readingNode mark .undefinedTagHandle tag.mark))

/-- Take note of the anchor of a node that starts here. The anchor stands for the number of
distinct names so far, and the latest node with a number counts. -/
def claim (reading : Reading) (anchor : Option String) : Option Nat × Reading :=
  match anchor with
  | none => (none, reading)
  | some name =>
      let number := reading.names.length
      let order := reading.latest.length
      (some order,
        { reading with
          names := (name, number) :: reading.names.filter fun entry => entry.1 != name
          latest := (number, order) :: reading.latest })

/-- Take note of a node whose anchor was claimed. -/
def store (order : Option Nat) (result : Node × Reading) : Node × Reading :=
  match order with
  | none => result
  | some order =>
      (result.1, { result.2 with nodes := (order, result.1) :: result.2.nodes })

/-! ## Nodes -/

/-- The value of a key that has none: blank, at the next token. -/
def noValue (reading : Reading) : Node × Reading :=
  match reading.peek? with
  | none => (.cut, reading.runOut)
  | some token => (.blank token.first, reading)

mutual

/-- Read a node. Block collections may start only where `block` says so, and a block sequence
without indentation only where `indentless` says so. -/
def node : (fuel : Nat) → (block indentless : Bool) → Reading → Node × Reading
  | 0, _, _, reading => (.cut, reading.runOut)
  | fuel + 1, block, indentless, reading =>
      match reading.peek? with
      | none => (.cut, reading.runOut)
      | some token =>
          match token.kind with
          | .alias name =>
              match reading.names.find? fun entry => entry.1 == name with
              | some (_, number) => (.alias number token.first, reading.skip)
              | none => (.cut, reading.fail (.unknownAnchor token.first))
          | _ =>
              match reading.readProperties token.first with
              | .error failure => (.cut, reading.fail failure)
              | .ok (properties, reading) =>
                  content fuel block indentless properties reading

/-- Read the content of a node behind its properties. -/
def content : (fuel : Nat) → (block indentless : Bool) → Properties → Reading →
    Node × Reading
  | 0, _, _, _, reading => (.cut, reading.runOut)
  | fuel + 1, block, indentless, properties, reading =>
      match reading.peek? with
      | none => (.cut, reading.runOut)
      | some token =>
          let mark := properties.mark
          let (order, claimed) := reading.claim properties.anchor
          let sequence (items : List Node × Reading) : Node × Reading :=
            store order (.sequence items.1 properties.tag mark, items.2)
          let mapping (entries : List (Node × Node) × Reading) : Node × Reading :=
            store order (.mapping entries.1 properties.tag mark, entries.2)
          let empty : Node × Reading :=
            if properties.anchor.isSome || properties.tag.isSome then
              store order (.scalar "" .plain properties.tag mark, claimed)
            else
              let activity := if block then .readingBlockNode else .readingFlowNode
              (.cut, reading.refuse (.during activity mark .nodeContent token.first))
          match token.kind with
          | .blockEntry =>
              if indentless then sequence (indentlessItems fuel claimed) else empty
          | .scalar text form =>
              let tag := properties.tag.filter (· != "!")
              store order (.scalar text form tag mark, claimed.skip)
          | .flowSequenceStart => sequence (flowItems fuel token.first true claimed.skip)
          | .flowMappingStart => mapping (flowEntries fuel token.first true claimed.skip)
          | .blockSequenceStart =>
              if block then sequence (blockItems fuel token.first claimed.skip) else empty
          | .blockMappingStart =>
              if block then mapping (blockEntries fuel token.first claimed.skip) else empty
          | _ => empty

/-- Read a node unless one of the kinds comes, which stands for a blank node at the mark; a
blank node without a mark is where the next token is. -/
def nodeUnless : (fuel : Nat) → (block indentless : Bool) → List TokenKind → Option Mark →
    Reading → Node × Reading
  | 0, _, _, _, _, reading => (.cut, reading.runOut)
  | fuel + 1, block, indentless, kinds, blankMark, reading =>
      match reading.peek? with
      | none => (.cut, reading.runOut)
      | some token =>
          if kinds.contains token.kind then (.blank (blankMark.getD token.first), reading)
          else node fuel block indentless reading

/-- Read the items of a block sequence that started at a mark. -/
def blockItems : (fuel : Nat) → Mark → Reading → List Node × Reading
  | 0, _, reading => ([.cut], reading.runOut)
  | fuel + 1, since, reading =>
      match reading.peek? with
      | none => ([.cut], reading.runOut)
      | some token =>
          match token.kind with
          | .blockEntry =>
              let (item, reading) :=
                nodeUnless fuel true false [.blockEntry, .blockEnd] token.last reading.skip
              if reading.failed then ([item, .cut], reading)
              else
                let (items, reading) := blockItems fuel since reading
                (item :: items, reading)
          | .blockEnd => ([], reading.skip)
          | _ =>
              ([.cut], reading.refuse
                (.during .readingBlockSequence since .blockSequenceEntry token.first))

/-- Read the items of a block sequence that is not indented. -/
def indentlessItems : (fuel : Nat) → Reading → List Node × Reading
  | 0, reading => ([.cut], reading.runOut)
  | fuel + 1, reading =>
      match reading.peek? with
      | none => ([.cut], reading.runOut)
      | some token =>
          if token.kind = .blockEntry then
            let (item, reading) :=
              nodeUnless fuel true false [.blockEntry, .key, .value, .blockEnd] token.last
                reading.skip
            if reading.failed then ([item, .cut], reading)
            else
              let (items, reading) := indentlessItems fuel reading
              (item :: items, reading)
          else ([], reading)

/-- Read the entries of a block mapping that started at a mark. -/
def blockEntries : (fuel : Nat) → Mark → Reading → List (Node × Node) × Reading
  | 0, _, reading => ([(.cut, .cut)], reading.runOut)
  | fuel + 1, since, reading =>
      match reading.peek? with
      | none => ([(.cut, .cut)], reading.runOut)
      | some token =>
          match token.kind with
          | .key =>
              let (key, reading) :=
                nodeUnless fuel true true [.key, .value, .blockEnd] token.last reading.skip
              if reading.failed then ([(key, .cut)], reading)
              else
                let (value, reading) := blockValue fuel reading
                if reading.failed then ([(key, value), (.cut, .cut)], reading)
                else
                  let (entries, reading) := blockEntries fuel since reading
                  ((key, value) :: entries, reading)
          | .blockEnd => ([], reading.skip)
          | _ =>
              ([(.cut, .cut)], reading.refuse
                (.during .readingBlockMapping since .blockMappingKey token.first))

/-- Read the value of an entry of a block mapping. -/
def blockValue : (fuel : Nat) → Reading → Node × Reading
  | 0, reading => (.cut, reading.runOut)
  | fuel + 1, reading =>
      match reading.peek? with
      | none => (.cut, reading.runOut)
      | some token =>
          if token.kind = .value then
            nodeUnless fuel true true [.key, .value, .blockEnd] token.last reading.skip
          else (.blank token.first, reading)

/-- Read the items of a flow sequence that started at a mark. -/
def flowItems : (fuel : Nat) → Mark → (isFirst : Bool) → Reading → List Node × Reading
  | 0, _, _, reading => ([.cut], reading.runOut)
  | fuel + 1, since, isFirst, reading =>
      match reading.peek? with
      | none => ([.cut], reading.runOut)
      | some token =>
          if token.kind = .flowSequenceEnd then ([], reading.skip)
          else if isFirst then flowItem fuel since reading
          else if token.kind = .flowEntry then flowItem fuel since reading.skip
          else
            ([.cut], reading.refuse
              (.during .readingFlowSequence since .flowSequenceEntry token.first))

/-- Read an item of a flow sequence, unless it ends, and the items behind it. -/
def flowItem : (fuel : Nat) → Mark → Reading → List Node × Reading
  | 0, _, reading => ([.cut], reading.runOut)
  | fuel + 1, since, reading =>
      match reading.peek? with
      | none => ([.cut], reading.runOut)
      | some token =>
          if token.kind = .flowSequenceEnd then ([], reading.skip)
          else
            let (item, reading) :=
              if token.kind = .key then flowPair fuel token.first reading.skip
              else node fuel false false reading
            if reading.failed then ([item, .cut], reading)
            else
              let (items, reading) := flowItems fuel since false reading
              (item :: items, reading)

/-- Read an entry of a flow sequence that is a mapping of one entry, behind the token for its
key. A key that is left out takes the token at its place with it. -/
def flowPair : (fuel : Nat) → Mark → Reading → Node × Reading
  | 0, _, reading => (.cut, reading.runOut)
  | fuel + 1, mark, reading =>
      let pair (entries : List (Node × Node)) : Node := .mapping entries none mark
      match reading.peek? with
      | none => (pair [(.cut, .cut)], reading.runOut)
      | some token =>
          let (key, reading) :=
            if [.value, .flowEntry, .flowSequenceEnd].contains token.kind then
              (.blank token.last, reading.skip)
            else node fuel false false reading
          if reading.failed then (pair [(key, .cut)], reading)
          else
            let (value, reading) := flowValue fuel [.flowEntry, .flowSequenceEnd] reading
            (pair ((key, value) :: if reading.failed then [(.cut, .cut)] else []), reading)

/-- Read the entries of a flow mapping that started at a mark. -/
def flowEntries : (fuel : Nat) → Mark → (isFirst : Bool) → Reading →
    List (Node × Node) × Reading
  | 0, _, _, reading => ([(.cut, .cut)], reading.runOut)
  | fuel + 1, since, isFirst, reading =>
      match reading.peek? with
      | none => ([(.cut, .cut)], reading.runOut)
      | some token =>
          if token.kind = .flowMappingEnd then ([], reading.skip)
          else if isFirst then flowEntry fuel since reading
          else if token.kind = .flowEntry then flowEntry fuel since reading.skip
          else
            ([(.cut, .cut)], reading.refuse
              (.during .readingFlowMapping since .flowMappingEntry token.first))

/-- Read an entry of a flow mapping, unless it ends, and the entries behind it. A key without
a question mark or a colon has no value. -/
def flowEntry : (fuel : Nat) → Mark → Reading → List (Node × Node) × Reading
  | 0, _, reading => ([(.cut, .cut)], reading.runOut)
  | fuel + 1, since, reading =>
      match reading.peek? with
      | none => ([(.cut, .cut)], reading.runOut)
      | some token =>
          if token.kind = .flowMappingEnd then ([], reading.skip)
          else
            let ends : List TokenKind := [.flowEntry, .flowMappingEnd]
            let (key, reading) :=
              if token.kind = .key then
                nodeUnless fuel false false (.value :: ends) none reading.skip
              else node fuel false false reading
            if reading.failed then ([(key, .cut)], reading)
            else
              let (value, reading) :=
                if token.kind = .key then flowValue fuel ends reading else noValue reading
              if reading.failed then ([(key, value), (.cut, .cut)], reading)
              else
                let (entries, reading) := flowEntries fuel since false reading
                ((key, value) :: entries, reading)

/-- Read the value of an entry in a flow collection. -/
def flowValue : (fuel : Nat) → List TokenKind → Reading → Node × Reading
  | 0, _, reading => (.cut, reading.runOut)
  | fuel + 1, ends, reading =>
      match reading.peek? with
      | none => (.cut, reading.runOut)
      | some token =>
          if token.kind = .value then nodeUnless fuel false false ends none reading.skip
          else (.blank token.first, reading)

end

/-! ## Documents -/

/-- Is a version one that can be read? -/
def isSupported (major minor : Nat) : Bool := major == 1 && (minor == 1 || minor == 2)

/-- Read the directives in front of a document. -/
def directives : (fuel : Nat) → (hasVersion : Bool) → Reading → Except SyntaxError Reading
  | 0, _, reading => .ok reading
  | fuel + 1, hasVersion, reading =>
      match reading.peek? with
      | some ⟨.version major minor, first, _⟩ =>
          if hasVersion then .error (.bare .duplicateVersion first)
          else if !isSupported major minor then .error (.bare .versionUnsupported first)
          else directives fuel true reading.skip
      | some ⟨.tagHandle handle expansion, first, _⟩ =>
          if reading.handles.any fun entry => entry.1 == handle then
            .error (.bare .duplicateTagHandle first)
          else
            directives fuel hasVersion
              { reading.skip with handles := reading.handles ++ [(handle, expansion)] }
      | _ => .ok reading

/-- Tokens that cannot start the content of a document. -/
def endsContent : TokenKind → Bool
  | .version _ _ | .tagHandle _ _ | .documentStart | .documentEnd | .streamEnd => true
  | _ => false

/-- Read a document behind its start. -/
def documentContent (fuel : Nat) (reading : Reading) : Node × Reading :=
  match reading.peek? with
  | none => (.cut, reading.runOut)
  | some token =>
      if endsContent token.kind then (.blank token.first, reading)
      else node fuel true false reading

/-- Read the first document. -/
def document (fuel : Nat) (reading : Reading) : Node × Reading :=
  match reading.peek? with
  | none => (.cut, reading.runOut)
  | some token =>
      match token.kind with
      | .streamEnd => (.void token.first, reading)
      | .version _ _ | .tagHandle _ _ | .documentStart =>
          match reading.directives fuel false with
          | .error error => (.cut, reading.refuse error)
          | .ok reading =>
              match reading.peek? with
              | none => (.cut, reading.runOut)
              | some next =>
                  if next.kind = .documentStart then
                    let added := standardHandles.filter fun entry =>
                      !reading.handles.any fun other => other.1 == entry.1
                    documentContent fuel
                      { reading.skip with handles := reading.handles ++ added }
                  else (.cut, reading.refuse (.bare .documentStart next.first))
      | _ => node fuel true false { reading with handles := standardHandles }

/-- Go over the ends of documents. -/
def skipEnds (reading : Reading) : Reading :=
  { reading with tokens := reading.tokens.dropWhile fun token => token.kind = .documentEnd }

/-- The tree of a document that has been read up to the end of its root. The token behind the
root must be there; what comes behind the document must be the end. -/
def finish (root : Node) (reading : Reading) : Tree :=
  let reading := if reading.peek?.isSome || reading.failed then reading else reading.runOut
  { root
    anchored := reading.latest.filterMap fun (number, order) =>
      (reading.nodes.find? fun entry => entry.1 == order).map fun entry => (number, entry.2)
    failure := reading.failure
    followed := (reading.skipEnds.peek?.map Token.kind) != some .streamEnd }

end Reading

/-- Read the tree of the first document of a source. -/
def Tree.ofSource (source : String) : Tree :=
  let lexed := lex source
  let behind : BreakOff :=
    .syntaxError (lexed.failure.getD (.bare .quotedEnd .start))
  let reading : Reading :=
    { tokens := lexed.tokens.drop 1
      behind
      failure := none
      handles := []
      names := []
      latest := []
      nodes := [] }
  let fuel := 4 * lexed.tokens.length + 4
  let (root, reading) := reading.document fuel
  reading.finish root

end FleetCompose.Yaml
