import RiscAssembly.Yaml.Mark

/-!
What can be wrong with a YAML text. An error says what was found where, and within what,
unless that is clear.
-/

namespace RiscAssembly.Yaml

open Text

inductive Problem where
  | noColon
  | noToken
  | entryNotAllowed
  | keyNotAllowed
  | valueNotAllowed
  | noDirectiveName
  | badDirectiveName
  | unknownDirective
  | noVersionDigit
  | noVersionNumber
  | longVersionNumber
  | noBlank
  | noBlankOrBreak
  | noCommentOrBreak
  | noAnchorName
  | noTagMark
  | noTagEnd
  | noTagUri
  | badUriEscape
  | badUriFirst
  | badUriNext
  | zeroIndentation
  | tabIndentation
  | tabInPlain
  | colonInPlain
  | documentMark
  | endOfText
  | unknownEscape
  | noHexadecimal
  | badCodePoint
  | noDocumentStart
  | repeatedVersion
  | otherVersion
  | repeatedTagHandle
  | undefinedTagHandle
  | noContent
  | noBlockEntry
  | noBlockKey
  | noFlowEntry
  | noFlowKey
  deriving DecidableEq

def Problem.message : Problem → String
  | .noColon => "could not find expected ':'"
  | .noToken => "found character that cannot start any token"
  | .entryNotAllowed => "block sequence entries are not allowed in this context"
  | .keyNotAllowed => "mapping keys are not allowed in this context"
  | .valueNotAllowed => "mapping values are not allowed in this context"
  | .noDirectiveName => "could not find expected directive name"
  | .badDirectiveName => "found unexpected non-alphabetical character"
  | .unknownDirective => "found unknown directive name"
  | .noVersionDigit => "did not find expected digit or '.' character"
  | .noVersionNumber => "did not find expected version number"
  | .longVersionNumber => "found extremely long version number"
  | .noBlank => "did not find expected whitespace"
  | .noBlankOrBreak => "did not find expected whitespace or line break"
  | .noCommentOrBreak => "did not find expected comment or line break"
  | .noAnchorName => "did not find expected alphabetic or numeric character"
  | .noTagMark => "did not find expected '!'"
  | .noTagEnd => "did not find the expected '>'"
  | .noTagUri => "did not find expected tag URI"
  | .badUriEscape => "did not find URI escaped octet"
  | .badUriFirst => "found an incorrect leading UTF-8 octet"
  | .badUriNext => "found an incorrect trailing UTF-8 octet"
  | .zeroIndentation => "found an indentation indicator equal to 0"
  | .tabIndentation => "found a tab character where an indentation space is expected"
  | .tabInPlain => "found a tab character that violates indentation"
  | .colonInPlain => "found unexpected ':'"
  | .documentMark => "found unexpected document indicator"
  | .endOfText => "found unexpected end of stream"
  | .unknownEscape => "found unknown escape character"
  | .noHexadecimal => "did not find expected hexdecimal number"
  | .badCodePoint => "found invalid Unicode character escape code"
  | .noDocumentStart => "did not find expected <document start>"
  | .repeatedVersion => "found duplicate %YAML directive"
  | .otherVersion => "found incompatible YAML document"
  | .repeatedTagHandle => "found duplicate %TAG directive"
  | .undefinedTagHandle => "found undefined tag handle"
  | .noContent => "did not find expected node content"
  | .noBlockEntry => "did not find expected '-' indicator"
  | .noBlockKey => "did not find expected key"
  | .noFlowEntry => "did not find expected ',' or ']'"
  | .noFlowKey => "did not find expected ',' or '\x7d'"

/-- What was being read when a problem was found. -/
inductive Context where
  | token
  | simpleKey
  | directive
  | versionDirective
  | tagDirective
  | tagDirectiveStart
  | tagDirectiveHandle
  | tagDirectiveUri
  | anchor
  | alias
  | tag
  | tagUri
  | blockScalar
  | quotedScalar
  | quotedEscape
  | plainScalar
  | node
  | blockNode
  | flowNode
  | blockSequence
  | blockMapping
  | flowSequence
  | flowMapping
  deriving DecidableEq

def Context.message : Context → String
  | .token => "while scanning for the next token"
  | .simpleKey => "while scanning a simple key"
  | .directive => "while scanning a directive"
  | .versionDirective => "while scanning a %YAML directive"
  | .tagDirective => "while scanning a %TAG directive"
  | .tagDirectiveStart => "while scanning a tag directive"
  | .tagDirectiveHandle => "while parsing a tag directive"
  | .tagDirectiveUri => "while parsing a %TAG directive"
  | .anchor => "while scanning an anchor"
  | .alias => "while scanning an alias"
  | .tag => "while scanning a tag"
  | .tagUri => "while parsing a tag"
  | .blockScalar => "while scanning a block scalar"
  | .quotedScalar => "while scanning a quoted scalar"
  | .quotedEscape => "while parsing a quoted scalar"
  | .plainScalar => "while scanning a plain scalar"
  | .node => "while parsing a node"
  | .blockNode => "while parsing a block node"
  | .flowNode => "while parsing a flow node"
  | .blockSequence => "while parsing a block collection"
  | .blockMapping => "while parsing a block mapping"
  | .flowSequence => "while parsing a flow sequence"
  | .flowMapping => "while parsing a flow mapping"

inductive Error where
  /-- Bytes lie before a character that YAML does not allow. -/
  | unreadable (bytes : Nat)
  | malformed (problem : Problem) (mark : Mark) (within : Option (Context × Mark))
  | unknownAnchor (mark : Mark)
  deriving DecidableEq

/-- The place of the whole is named only if it is another one. -/
def withinText (mark : Mark) (whole : Context × Mark) : Text :=
  ", ".toList ++ whole.1.message.toList ++ if mark.isBeside whole.2 then [] else whole.2.suffix

def Error.message : Error → Text
  | .unreadable bytes =>
      "control characters are not allowed".toList
        ++ if bytes = 0 then [] else " at position ".toList ++ decimal bytes
  | .malformed problem mark within =>
      problem.message.toList ++ mark.suffix ++ (within.map (withinText mark)).getD []
  | .unknownAnchor mark => "unknown anchor".toList ++ mark.suffix

/-- A problem at the cursor, within something that starts at a mark. -/
def Cursor.fail {α : Type} (cursor : Cursor) (problem : Problem) (context : Context)
    (start : Mark) : Except Error α :=
  .error (.malformed problem cursor.mark (some (context, start)))

end RiscAssembly.Yaml
