import StateTables.Yaml.Cursor

/-! # Problems of documents

A text that is no document has a problem: it holds a forbidden character, a
token that cannot be read, or tokens that do not follow each other as they
should. Messages tell the line of what was being read, or else the line where the
problem shows; the first line of the text is not told. For tokens lines count
from one. For their order they count from zero.
-/

namespace StateTables.Yaml

def depthLimit : Nat := 10000

inductive TokenFault where
  | unknownToken
  | sequenceEntryPlace
  | mappingKeyPlace
  | mappingValuePlace
  | keyWithoutColon
  | documentMark
  | unexpectedEnd
  | unknownEscape
  | missingHexadecimal
  | invalidCode
  | tabIndentation
  | zeroIndentation
  | lineGoesOn
  | tabInBlock
  | nameCharacter
  | tagClosing
  | tagEnding
  | tagOpening
  | tagAddress
  | octet
  | leadingOctet
  | trailingOctet
  | directiveUnknown
  | directiveName
  | directiveCharacter
  | directiveBlank
  | versionPoint
  | versionLength
  | versionNumber
  | tooDeep
deriving DecidableEq, Repr

def TokenFault.message : TokenFault → String
  | .unknownToken => "found character that cannot start any token"
  | .sequenceEntryPlace => "block sequence entries are not allowed in this context"
  | .mappingKeyPlace => "mapping keys are not allowed in this context"
  | .mappingValuePlace => "mapping values are not allowed in this context"
  | .keyWithoutColon => "could not find expected ':'"
  | .documentMark => "found unexpected document indicator"
  | .unexpectedEnd => "found unexpected end of stream"
  | .unknownEscape => "found unknown escape character"
  | .missingHexadecimal => "did not find expected hexdecimal number"
  | .invalidCode => "found invalid Unicode character escape code"
  | .tabIndentation => "found a tab character that violates indentation"
  | .zeroIndentation => "found an indentation indicator equal to 0"
  | .lineGoesOn => "did not find expected comment or line break"
  | .tabInBlock => "found a tab character where an indentation space is expected"
  | .nameCharacter => "did not find expected alphabetic or numeric character"
  | .tagClosing => "did not find the expected '>'"
  | .tagEnding => "did not find expected whitespace or line break"
  | .tagOpening => "did not find expected '!'"
  | .tagAddress => "did not find expected tag URI"
  | .octet => "did not find URI escaped octet"
  | .leadingOctet => "found an incorrect leading UTF-8 octet"
  | .trailingOctet => "found an incorrect trailing UTF-8 octet"
  | .directiveUnknown => "found unknown directive name"
  | .directiveName => "could not find expected directive name"
  | .directiveCharacter => "found unexpected non-alphabetical character"
  | .directiveBlank => "did not find expected whitespace"
  | .versionPoint => "did not find expected digit or '.' character"
  | .versionLength => "found extremely long version number"
  | .versionNumber => "did not find expected version number"
  | .tooDeep => "exceeded max depth of " ++ toString depthLimit

inductive OrderFault where
  | nodeContent
  | mappingKey
  | sequenceDash
  | sequenceComma
  | mappingComma
  | documentStart
  | incompatibleVersion
  | repeatedVersion
  | repeatedHandle
  | unknownHandle
deriving DecidableEq, Repr

def OrderFault.message : OrderFault → String
  | .nodeContent => "did not find expected node content"
  | .mappingKey => "did not find expected key"
  | .sequenceDash => "did not find expected '-' indicator"
  | .sequenceComma => "did not find expected ',' or ']'"
  | .mappingComma => "did not find expected ',' or '\x7d'"
  | .documentStart => "did not find expected <document start>"
  | .incompatibleVersion => "found incompatible YAML document"
  | .repeatedVersion => "found duplicate %YAML directive"
  | .repeatedHandle => "found duplicate %TAG directive"
  | .unknownHandle => "found undefined tag handle"

inductive Problem where
  | forbiddenCharacter
  /-- What was being read starts at `context`; it stops making sense at `place`. -/
  | token (fault : TokenFault) (context place : Mark)
  /-- The structure that was being read starts at `context`, if there is one. -/
  | order (fault : OrderFault) (context : Option Mark) (place : Mark)
  | unknownAnchor (name : String)
deriving DecidableEq, Repr

namespace Problem

def lineNote (number : Nat) : String :=
  "line " ++ toString number ++ ": "

def message : Problem → String
  | .forbiddenCharacter => "control characters are not allowed"
  | .token fault context place =>
    let line := if context.line = 0 then place.line else context.line
    (if line = 0 then "" else lineNote (line + 1)) ++ fault.message
  | .order fault context place =>
    let known := (context.map Mark.line).getD 0
    let line := if known = 0 then place.line else known
    (if line = 0 then "" else lineNote line) ++ fault.message
  | .unknownAnchor name => "unknown anchor '" ++ name ++ "' referenced"

end Problem

def refuse {α : Type} (fault : TokenFault) (context : Mark) (cursor : Cursor) :
    Except Problem α :=
  .error (.token fault context cursor.mark)

end StateTables.Yaml
