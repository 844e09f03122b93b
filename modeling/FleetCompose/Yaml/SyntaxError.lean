import FleetCompose.Yaml.Mark

/-!
# Syntax errors

A syntax error says what is wrong and where, and mostly what was being read and where that
started.
-/

namespace FleetCompose.Yaml

/-- What is being read when a problem comes up. -/
inductive Activity where
  | scanningToken
  | scanningSimpleKey
  | scanningDirective
  | scanningVersionDirective
  | scanningTagDirective
  | scanningTagHandle
  | readingTagHandle
  | readingTagDirective
  | scanningAnchor
  | scanningAlias
  | scanningTag
  | readingTag
  | scanningBlockScalar
  | scanningQuotedScalar
  | readingQuotedScalar
  | scanningPlainScalar
  | readingNode
  | readingBlockNode
  | readingFlowNode
  | readingBlockSequence
  | readingBlockMapping
  | readingFlowSequence
  | readingFlowMapping
  deriving DecidableEq, Repr

/-- The wording of an activity. -/
def Activity.text : Activity → String
  | .scanningToken => "while scanning for the next token"
  | .scanningSimpleKey => "while scanning a simple key"
  | .scanningDirective => "while scanning a directive"
  | .scanningVersionDirective => "while scanning a %YAML directive"
  | .scanningTagDirective => "while scanning a %TAG directive"
  | .scanningTagHandle => "while scanning a tag directive"
  | .readingTagHandle => "while parsing a tag directive"
  | .readingTagDirective => "while parsing a %TAG directive"
  | .scanningAnchor => "while scanning an anchor"
  | .scanningAlias => "while scanning an alias"
  | .scanningTag => "while scanning a tag"
  | .readingTag => "while parsing a tag"
  | .scanningBlockScalar => "while scanning a block scalar"
  | .scanningQuotedScalar => "while scanning a quoted scalar"
  | .readingQuotedScalar => "while parsing a quoted scalar"
  | .scanningPlainScalar => "while scanning a plain scalar"
  | .readingNode => "while parsing a node"
  | .readingBlockNode => "while parsing a block node"
  | .readingFlowNode => "while parsing a flow node"
  | .readingBlockSequence => "while parsing a block collection"
  | .readingBlockMapping => "while parsing a block mapping"
  | .readingFlowSequence => "while parsing a flow sequence"
  | .readingFlowMapping => "while parsing a flow mapping"

/-- What is wrong. -/
inductive Problem where
  | controlCharacter
  | tokenStart
  | keyWithoutColon
  | blockEntryNotAllowed
  | keyNotAllowed
  | valueNotAllowed
  | directiveName
  | directiveNameEnd
  | unknownDirective
  | directiveEnd
  | versionNumber
  | versionTooLong
  | versionPoint
  | tagDirectiveSpace
  | tagDirectiveEnd
  | anchorName
  | tagMark
  | tagClosing
  | tagText
  | tagEnd
  | octetDigits
  | leadingOctet
  | trailingOctet
  | blockIndentZero
  | blockHeaderEnd
  | blockTab
  | quotedIndicator
  | quotedEnd
  | escapeName
  | escapeDigits
  | escapeValue
  | plainTab
  | plainColon
  | documentStart
  | duplicateVersion
  | versionUnsupported
  | duplicateTagHandle
  | undefinedTagHandle
  | nodeContent
  | blockSequenceEntry
  | blockMappingKey
  | flowSequenceEntry
  | flowMappingEntry
  deriving DecidableEq, Repr

/-- The wording of a problem. -/
def Problem.text : Problem → String
  | .controlCharacter => "control characters are not allowed"
  | .tokenStart => "found character that cannot start any token"
  | .keyWithoutColon => "could not find expected ':'"
  | .blockEntryNotAllowed => "block sequence entries are not allowed in this context"
  | .keyNotAllowed => "mapping keys are not allowed in this context"
  | .valueNotAllowed => "mapping values are not allowed in this context"
  | .directiveName => "could not find expected directive name"
  | .directiveNameEnd => "found unexpected non-alphabetical character"
  | .unknownDirective => "found unknown directive name"
  | .directiveEnd => "did not find expected comment or line break"
  | .versionNumber => "did not find expected version number"
  | .versionTooLong => "found extremely long version number"
  | .versionPoint => "did not find expected digit or '.' character"
  | .tagDirectiveSpace => "did not find expected whitespace"
  | .tagDirectiveEnd => "did not find expected whitespace or line break"
  | .anchorName => "did not find expected alphabetic or numeric character"
  | .tagMark => "did not find expected '!'"
  | .tagClosing => "did not find the expected '>'"
  | .tagText => "did not find expected tag URI"
  | .tagEnd => "did not find expected whitespace or line break"
  | .octetDigits => "did not find URI escaped octet"
  | .leadingOctet => "found an incorrect leading UTF-8 octet"
  | .trailingOctet => "found an incorrect trailing UTF-8 octet"
  | .blockIndentZero => "found an indentation indicator equal to 0"
  | .blockHeaderEnd => "did not find expected comment or line break"
  | .blockTab => "found a tab character where an indentation space is expected"
  | .quotedIndicator => "found unexpected document indicator"
  | .quotedEnd => "found unexpected end of stream"
  | .escapeName => "found unknown escape character"
  | .escapeDigits => "did not find expected hexadecimal number"
  | .escapeValue => "found invalid Unicode character escape code"
  | .plainTab => "found a tab character that violates indentation"
  | .plainColon => "found unexpected ':'"
  | .documentStart => "did not find expected <document start>"
  | .duplicateVersion => "found duplicate %YAML directive"
  | .versionUnsupported => "found incompatible YAML document"
  | .duplicateTagHandle => "found duplicate %TAG directive"
  | .undefinedTagHandle => "found undefined tag handle"
  | .nodeContent => "did not find expected node content"
  | .blockSequenceEntry => "did not find expected '-' indicator"
  | .blockMappingKey => "did not find expected key"
  | .flowSequenceEntry => "did not find expected ',' or ']'"
  | .flowMappingEntry => "did not find expected ',' or '\x7d'"

/-- A syntax error. A character that is not allowed is given by its position in bytes;
everything else has a mark. -/
structure SyntaxError where
  problem : Problem
  mark : Mark
  position : Nat
  context : Option (Activity × Mark)
  deriving DecidableEq, Repr

namespace SyntaxError

/-- A problem without context. -/
def bare (problem : Problem) (mark : Mark) : SyntaxError := ⟨problem, mark, 0, none⟩

/-- A problem that came up during an activity. -/
def during (activity : Activity) (since : Mark) (problem : Problem) (mark : Mark) :
    SyntaxError :=
  ⟨problem, mark, 0, some (activity, since)⟩

/-- The wording of the context. Its mark is left out at the start of the document and where
the problem is. -/
def contextText (error : SyntaxError) : String :=
  match error.context with
  | none => ""
  | some (activity, since) =>
      ", " ++ activity.text ++
        if since.isStart || (since.line == error.mark.line && since.column == error.mark.column)
        then ""
        else " at " ++ since.text

/-- The wording of a syntax error. -/
def message (error : SyntaxError) : String :=
  error.problem.text ++
    (if !error.mark.isStart then " at " ++ error.mark.text
      else if error.position != 0 then " at position " ++ Nat.repr error.position
      else "") ++
    error.contextText

end SyntaxError

end FleetCompose.Yaml
