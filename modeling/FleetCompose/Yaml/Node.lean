import FleetCompose.Yaml.Token

/-!
# Trees of nodes

The structure of a document before it is known what its scalars stand for. Every node knows
where it starts. A document with a syntax error still has a tree: up to the error it is as
written, and `cut` stands where it breaks off.
-/

namespace FleetCompose.Yaml

/-- A node. An alias refers to an anchored node by number. -/
inductive Node where
  | scalar (text : String) (form : ScalarForm) (tag : Option String) (mark : Mark)
  | sequence (items : List Node) (tag : Option String) (mark : Mark)
  | mapping (entries : List (Node × Node)) (tag : Option String) (mark : Mark)
  | alias (number : Nat) (mark : Mark)
  | void (mark : Mark)
  | cut
  deriving Inhabited

namespace Node

/-- The scalar that stands where nothing is written. -/
def blank (mark : Mark) : Node := .scalar "" .plain none mark

/-- Where a node starts. -/
def mark : Node → Mark
  | .scalar _ _ _ mark | .sequence _ _ mark | .mapping _ _ mark | .alias _ mark | .void mark =>
      mark
  | .cut => .start

/-- Has the document broken off? -/
def isCut : Node → Bool
  | .cut => true
  | _ => false

mutual

/-- The size of a tree: the number of its scalars and aliases, and of the starts and ends of
its collections. -/
def size : Node → Nat
  | .scalar _ _ _ _ | .alias _ _ | .void _ => 1
  | .sequence items _ _ => 1 + itemsSize items
  | .mapping entries _ _ => 1 + entriesSize entries
  | .cut => 0

def itemsSize : List Node → Nat
  | [] => 1
  | item :: items => if item.isCut then 0 else size item + itemsSize items

def entriesSize : List (Node × Node) → Nat
  | [] => 1
  | (key, value) :: entries =>
      if key.isCut then 0
      else size key + if value.isCut then 0 else size value + entriesSize entries

end

end Node

/-- Why a document breaks off. -/
inductive BreakOff where
  | syntaxError (error : SyntaxError)
  | unknownAnchor (mark : Mark)
  deriving DecidableEq, Repr

/-- The tree of a document. -/
structure Tree where
  root : Node
  /-- The nodes that aliases refer to, by number. -/
  anchored : List (Nat × Node)
  /-- Why the document breaks off, if it does. -/
  failure : Option BreakOff
  /-- Is there anything behind the document? -/
  followed : Bool

namespace Tree

/-- The node that an alias refers to. -/
def anchoredNode? (tree : Tree) (number : Nat) : Option Node :=
  (tree.anchored.find? fun entry => entry.1 == number).map Prod.snd

end Tree

end FleetCompose.Yaml
