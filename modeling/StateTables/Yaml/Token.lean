import StateTables.Yaml.Cursor

/-! # Tokens of documents

Tokens are the indicators, scalars and names of a document. Indentation gives
tokens too: those that start and end block collections. A key of a mapping is
announced by a token before it, whether an indicator stands there or not.
-/

namespace StateTables.Yaml

inductive TokenKind where
  | streamStart
  | streamEnd
  | versionDirective (major minor : Nat)
  | tagDirective (handle address : String)
  | documentStart
  | documentEnd
  | blockSequenceStart
  | blockMappingStart
  | blockEnd
  | flowSequenceStart
  | flowSequenceEnd
  | flowMappingStart
  | flowMappingEnd
  | blockEntry
  | flowEntry
  | key
  | value
  | alias (name : String)
  | anchor (name : String)
  | tag (handle suffix : String)
  /-- A scalar is plain if it is neither quoted nor a block of lines. -/
  | scalar (plain : Bool) (text : String)
deriving DecidableEq, Repr

structure Token where
  kind : TokenKind
  start : Mark
deriving DecidableEq, Repr

end StateTables.Yaml
