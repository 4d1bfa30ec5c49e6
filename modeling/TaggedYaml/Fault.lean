import TaggedYaml.Text.Cursor

/-!
# Fault — what can be wrong with a text, and where

`Defect` lists the reasons for which a text is not accepted and `Defect.message` words them.  A
`Fault` is a defect at a mark.
-/

namespace TaggedYaml

/-- A reason not to accept a text. -/
inductive Defect where
  -- Separation and indentation
  | keyExpected
  | keyWithoutColon
  | indentation
  | tabIndentation
  | tabAfterKeyMark
  | blankExpected
  | commentTouches
  | strayChar (c : Char)
  | afterDocumentEnd
  -- Directives
  | directiveName
  | directiveNameChar
  | directiveEnd
  | versionDigit
  | versionMark
  | versionLong
  | tagDirectiveHandle
  | tagDirectiveEnd
  -- Tags, anchors and aliases
  | tagBang
  | tagLead
  | tagEmpty
  | tagEnd
  | verbatimTagOpen
  | octetMissing
  | octetLeading
  | octetTrailing
  | octetCode
  | anchorName
  | anchorIndentation
  -- Indicators
  | dashInFlow
  | dashHere
  | dashTab
  | keyMarkHere
  | colonHere
  | colonTab
  | colonPlace
  | flowTooDeep
  -- Scalars
  | quotedDocumentMark
  | quotedOpen
  | quotedIndentation
  | quotedEscape
  | quotedHex
  | quotedCode
  | quotedTab
  | afterQuoted
  | flowIndentation
  | plainDash
  | plainTab
  | blockZero
  | blockHeader
  | blockTab
  | blockIndentation
  -- Documents and nodes
  | documentStart
  | secondVersion
  | documentEndMissing
  | unknownAnchor
  | unknownHandle
  | blockMappingKey
  | blockSequenceDash
  | flowSequenceComma
  | flowMappingComma
  | nodeContent
  | textEnd
deriving DecidableEq, Repr

/-- The wording of a defect. -/
def Defect.message : Defect → String
  | keyExpected => "simple key expected"
  | keyWithoutColon => "simple key expect ':'"
  | indentation => "invalid indentation"
  | tabIndentation => "tabs disallowed within this context (block indentation)"
  | tabAfterKeyMark => "tabs disallowed in this context"
  | blankExpected => "expected whitespace"
  | commentTouches => "comments must be separated from other tokens by whitespace"
  | strayChar c => "unexpected character: \x60" ++ c.toString ++ "'"
  | afterDocumentEnd => "invalid content after document end marker"
  | directiveName => "while scanning a directive, could not find expected directive name"
  | directiveNameChar =>
    "while scanning a directive, found unexpected non-alphabetical character"
  | directiveEnd => "while scanning a directive, did not find expected comment or line break"
  | versionDigit => "while scanning a YAML directive, did not find expected version number"
  | versionMark => "while scanning a YAML directive, did not find expected digit or '.' character"
  | versionLong => "while scanning a YAML directive, found extremely long version number"
  | tagDirectiveHandle => "while parsing a tag directive, did not find expected '!'"
  | tagDirectiveEnd => "while scanning TAG, did not find expected whitespace or line break"
  | tagBang => "while scanning a tag, did not find expected '!'"
  | tagLead => "invalid global tag character"
  | tagEmpty => "while parsing a tag, did not find expected tag URI"
  | tagEnd => "while scanning a tag, did not find expected whitespace or line break"
  | verbatimTagOpen => "while scanning a verbatim tag, did not find the expected '>'"
  | octetMissing => "while parsing a tag, did not find URI escaped octet"
  | octetLeading => "while parsing a tag, found an incorrect leading UTF-8 octet"
  | octetTrailing => "while parsing a tag, found an incorrect trailing UTF-8 octet"
  | octetCode => "while parsing a tag, found an invalid UTF-8 codepoint"
  | anchorName =>
    "while scanning an anchor or alias, did not find expected alphabetic or numeric character"
  | anchorIndentation => "invalid indentation for anchor"
  | dashInFlow => "\"-\" is only valid inside a block"
  | dashHere => "block sequence entries are not allowed in this context"
  | dashTab => "'-' must be followed by a valid YAML whitespace"
  | keyMarkHere => "mapping keys are not allowed in this context"
  | colonHere => "mapping values are not allowed in this context"
  | colonTab => "':' must be followed by a valid YAML whitespace"
  | colonPlace => "illegal placement of ':' indicator"
  | flowTooDeep => "recursion limit exceeded"
  | quotedDocumentMark => "while scanning a quoted scalar, found unexpected document indicator"
  | quotedOpen => "while scanning a quoted scalar, found unexpected end of stream"
  | quotedIndentation => "invalid indentation in quoted scalar"
  | quotedEscape => "while parsing a quoted scalar, found unknown escape character"
  | quotedHex => "while parsing a quoted scalar, did not find expected hexadecimal number"
  | quotedCode => "while parsing a quoted scalar, found invalid Unicode character escape code"
  | quotedTab => "tab cannot be used as indentation"
  | afterQuoted => "invalid trailing content after double-quoted scalar"
  | flowIndentation => "invalid indentation in flow construct"
  | plainDash => "plain scalar cannot start with '-' followed by ,[]\x7b\x7d"
  | plainTab => "while scanning a plain scalar, found a tab"
  | blockZero => "while scanning a block scalar, found an indentation indicator equal to 0"
  | blockHeader => "while scanning a block scalar, did not find expected comment or line break"
  | blockTab => "a block scalar content cannot start with a tab"
  | blockIndentation => "wrongly indented line in block scalar"
  | documentStart => "did not find expected <document start>"
  | secondVersion => "duplicate version directive"
  | documentEndMissing => "missing explicit document end marker before directive"
  | unknownAnchor => "while parsing node, found unknown anchor"
  | unknownHandle => "the handle wasn't declared"
  | blockMappingKey => "while parsing a block mapping, did not find expected key"
  | blockSequenceDash =>
    "while parsing a block collection, did not find expected '-' indicator"
  | flowSequenceComma => "while parsing a flow sequence, expected ',' or ']'"
  | flowMappingComma => "while parsing a flow mapping, did not find expected ',' or '\x7d'"
  | nodeContent => "while parsing a node, did not find expected node content"
  | textEnd => "unexpected eof"

/-- A defect and its place. -/
structure Fault where
  mark : Mark
  defect : Defect
deriving DecidableEq, Repr

end TaggedYaml
