import FleetCompose.Yaml.SyntaxError

/-!
# Tokens

The smallest pieces of a document: indicators, scalars, anchors and tags, and the starts and
ends of block collections, which are found from the indentation.
-/

namespace FleetCompose.Yaml

/-- How a scalar is written in a document: without quotes, or in any other way. -/
inductive ScalarForm where
  | plain
  | quoted
  deriving DecidableEq, Repr

/-- The kinds of tokens. -/
inductive TokenKind where
  | streamStart
  | streamEnd
  | version (major minor : Nat)
  | tagHandle (handle expansion : String)
  | documentStart
  | documentEnd
  | blockSequenceStart
  | blockMappingStart
  | blockEnd
  | flowSequenceStart
  | flowSequenceEnd
  | flowMappingStart
  | flowMappingEnd
  | blockEntry
  | flowEntry
  | key
  | value
  | alias (name : String)
  | anchor (name : String)
  | tag (handle suffix : String)
  | scalar (text : String) (form : ScalarForm)
  deriving DecidableEq, Repr

/-- A token and the marks of its two ends. -/
structure Token where
  kind : TokenKind
  first : Mark
  last : Mark
  deriving DecidableEq, Repr

end FleetCompose.Yaml
