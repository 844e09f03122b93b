import FleetCompose.Document.ReadError
import FleetCompose.Yaml.Plain

/-!
# Reading values from a tree

`Read` is a computation that reads from the tree of a document. It fails where the tree is
cut, and it counts how often an alias was followed. Collections may be nested 128 deep; the
depth that is left is an argument of the functions that read them.
-/

namespace FleetCompose

/-- A computation that reads from a tree. Its state is the number of aliases followed. -/
abbrev Read (α : Type) : Type := ReaderT Yaml.Tree (StateT Nat (Except ReadError)) α

namespace Read

open Yaml (Node Plain Mark)

variable {α β : Type}

/-- How deep collections may be nested. -/
def depthLimit : Nat := 128

/-- How many aliases may be followed, for every node of the tree. -/
def aliasesPerNode : Nat := 100

/-- Fail. -/
def fail (error : ReadError) : Read α := throw error

/-- Fail because of a wrong value. -/
def wrong (problem : TypeProblem) : Read α := fail (.wrongType problem none)

/-- Fail because the tree is cut here. A tree with a cut knows the cause. -/
def cut : Read α := do
  fail (.brokenOff ((← read).failure.getD (.unknownAnchor .start)))

/-- Place an error that comes up in a computation. -/
def located (mark : Mark) (path : DocumentPath) (body : Read α) : Read α :=
  fun tree followed => (body tree followed).mapError (ReadError.locate mark path)

/-- Follow an alias. -/
def follow (number : Nat) : Read Node := do
  let followed := (← get) + 1
  set followed
  let tree ← read
  if tree.root.size * aliasesPerNode < followed then fail .tooManyAliases
  else return (tree.anchoredNode? number).getD .cut

/-- Read a node that is neither an alias nor cut. Errors are placed at the node, and behind
an alias at the node that it refers to. -/
def frame (path : DocumentPath) (node : Node) (body : Node → Read α) : Read α :=
  match node with
  | .cut => cut
  | .alias number mark =>
      located mark path do
        let target ← follow number
        located target.mark path (if target.isCut then cut else body target)
  | node => located node.mark path (body node)

/-! ## Scalars -/

/-- The names of the tags for scalars. -/
def standardTag (name : String) : String := "tag:yaml.org,2002:" ++ name

/-- Does a tag name a variant rather than a type of scalars? -/
def namesVariant (tag : Option String) : Bool :=
  match tag with
  | some name => name.toList.head? == some '!'
  | none => false

/-- What a scalar stands for: a tag for a type of scalars decides, then the quotes do. -/
def meaning (text : String) (form : Yaml.ScalarForm) (tag : Option String) :
    Except TypeProblem Plain :=
  let plain := if form = .plain then Plain.resolve text else .text
  let typed (expected : String) (value : Option Plain) : Except TypeProblem Plain :=
    match value with
    | some value => .ok value
    | none => .error (.invalidValue text expected)
  match tag with
  | none => .ok plain
  | some name =>
      if name = standardTag "bool" then typed "a boolean" (Plain.bool? text)
      else if name = standardTag "int" then
        typed "an integer" ((Plain.integer? text.toList).map .integer)
      else if name = standardTag "float" then typed "a float" ((Plain.float? text).map .float)
      else if name = standardTag "null" then
        typed "null" (if Plain.isNull text then some .null else none)
      else if namesVariant tag then .ok plain
      else .ok .text

/-- Does an integer fit into 64 bits, signed or unsigned? -/
def fits (value : Int) : Bool := Yaml.minInteger ≤ value && value ≤ Yaml.maxInteger

/-- What was found where a scalar stands for something else. -/
def foundScalar (text : String) : Plain → Found
  | .null => .unit
  | .bool value => .bool value
  | .integer value => if fits value then .integer value else .wide value
  | .float value => .float value
  | .text => .string text

/-- The problem with a node in the place of something else. -/
def misplaced (expected : String) : Node → TypeProblem
  | .scalar text form tag _ =>
      match meaning text form tag with
      | .ok value => .invalidType (foundScalar text value) expected
      | .error problem => problem
  | .sequence _ _ _ => .invalidType .sequence expected
  | .mapping _ _ _ => .invalidType .mapping expected
  | .alias _ _ | .void _ | .cut => .invalidType .unit expected

/-- Read the text of a scalar, whatever it stands for. -/
def text (path : DocumentPath) (node : Node) : Read String :=
  frame path node fun
    | .scalar text _ _ _ => return text
    | node => wrong (misplaced "a string" node)

/-! ## Collections -/

/-- A plain scalar without text, or no document at all, stands for an empty collection. -/
def isBlank : Node → Bool
  | .scalar text form _ _ => text.isEmpty && form == .plain
  | .void _ => true
  | _ => false

/-- Is something there? A plain null is nothing. -/
def isThere (node : Node) : Read Bool :=
  match node with
  | .scalar text form tag _ =>
      if form != .plain then return true
      else if tag = some (standardTag "null") then
        if Plain.isNull text then return false else wrong (.invalidValue text "null")
      else if tag.isSome then return true
      else return !(text.isEmpty || Plain.isNull text)
  | .void _ => return false
  | .cut => cut
  | _ => return true

/-- Read something that may be absent. -/
def optional (read : Node → Read α) (node : Node) : Read (Option α) := do
  let node ← match node with | .alias number _ => follow number | node => pure node
  if ← isThere node then return some (← read node) else return none

/-- Read items from the item at `index` on. -/
def items (path : DocumentPath) (read : DocumentPath → Node → Read α) (index : Nat) :
    List Node → Read (List α)
  | [] => return []
  | node :: nodes => do
      let image ← read (path ++ [.item index]) node
      let images ← items path read (index + 1) nodes
      return image :: images

/-- Read a sequence; `read` gets the depth that is left for its items. -/
def sequence (depth : Nat) (path : DocumentPath)
    (read : Nat → DocumentPath → Node → Read α) (node : Node) : Read (List α) :=
  frame path node fun node =>
    match node, depth with
    | .sequence nodes _ _, depth + 1 => items path (read depth) 0 nodes
    | .sequence _ _ mark, 0 => fail (.tooDeep mark)
    | node, _ => if isBlank node then return [] else wrong (misplaced "a sequence" node)

/-- Read the entries of a mapping; `read` gets the depth that is left for them. -/
def entries (depth : Nat) (path : DocumentPath) (expected : String)
    (read : Nat → List (Node × Node) → Read α) (node : Node) : Read α :=
  frame path node fun node =>
    match node, depth with
    | .mapping entries _ _, depth + 1 => read depth entries
    | .mapping _ _ mark, 0 => fail (.tooDeep mark)
    | node, depth => if isBlank node then read depth [] else wrong (misplaced expected node)

/-- The step to the value of a key. -/
def stepOf : Node → PathStep
  | .scalar text _ _ _ => .key text
  | _ => .otherKey

/-! ## Values of any type -/

/-- The value of a scalar. An integer has to fit into 64 bits. -/
def scalarValue (text : String) : Plain → Except TypeProblem Yaml.Value
  | .null => .ok .null
  | .bool value => .ok (.bool value)
  | .integer value =>
      if fits value then .ok (.number (.int value))
      else .error (.invalidType (.wide value) "any value")
  | .float value => .ok (.number (.float value))
  | .text => .ok (.string text)

/-- Read entries of any type. -/
def valueEntries (path : DocumentPath) (read : DocumentPath → Node → Read Yaml.Value) :
    List (Node × Node) → Read (List (Yaml.Value × Yaml.Value))
  | [] => return []
  | (key, value) :: rest => do
      let name ← read path key
      let image ← read (path ++ [stepOf key]) value
      let images ← valueEntries path read rest
      return (name, image) :: images

/-- Read a scalar of any type. -/
def scalar (text : String) (form : Yaml.ScalarForm) (tag : Option String) : Read Yaml.Value :=
  if namesVariant tag then wrong .tagged
  else
    match (meaning text form tag).bind (scalarValue text) with
    | .ok value => return value
    | .error problem => wrong problem

/-- Read a value of any type. Keys may be repeated here. A tag that names a variant is
refused. -/
def value : (depth : Nat) → DocumentPath → Node → Read Yaml.Value
  | 0, path, node =>
      frame path node fun
        | .scalar text form tag _ => scalar text form tag
        | .sequence _ tag mark | .mapping _ tag mark =>
            if namesVariant tag then wrong .tagged else fail (.tooDeep mark)
        | _ => return .null
  | depth + 1, path, node =>
      frame path node fun
        | .scalar text form tag _ => scalar text form tag
        | .sequence nodes tag _ =>
            if namesVariant tag then wrong .tagged
            else return .sequence (← items path (value depth) 0 nodes)
        | .mapping entries tag _ =>
            if namesVariant tag then wrong .tagged
            else return .mapping (← valueEntries path (value depth) entries)
        | _ => return .null

end Read

end FleetCompose
