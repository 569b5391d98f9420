import StateTables.KeyExpression.Pattern
import StateTables.Text.Extent
import StateTables.Text.Quoted

/-! # Tokens of key expressions

The text of a key expression is cut into segments: at every place the longest
prefix that a rule matches, the earliest rule winning a tie. Where no rule
matches, all bytes read until no rule could go on form an unmatched segment.
-/

namespace StateTables

inductive TokenKind where
  | endOfText
  | character
  | number
  | dots
  | comma
  | any
deriving DecidableEq, Repr

namespace TokenKind

def all : List TokenKind :=
  [.endOfText, .character, .number, .dots, .comma, .any]

def code : TokenKind → Int
  | .endOfText => -1
  | .character => 1
  | .number => 2
  | .dots => 3
  | .comma => 4
  | .any => 5

def name : TokenKind → String
  | .endOfText => "EOF"
  | .character => "char"
  | .number => "number"
  | .dots => "'..'"
  | .comma => "','"
  | .any => "any"

def nameOfCode (code : Int) : String :=
  match all.find? fun kind => kind.code == code with
  | some kind => kind.name
  | none => "token(" ++ toString code ++ ")"

def isKey : TokenKind → Bool
  | .character => true
  | .number => true
  | _ => false

end TokenKind

structure Token where
  kind : TokenKind
  lexeme : String
  start : Nat
  stop : Nat
deriving DecidableEq, Repr

def Token.extent (token : Token) : Text.Extent :=
  ⟨token.start.toUInt64, token.stop.toUInt64⟩

def Token.text (token : Token) : String :=
  token.kind.name ++ " " ++ Text.Quoted.text token.lexeme ++ " " ++
    token.extent.text

inductive SegmentKind where
  | token (kind : TokenKind)
  | blank
  | unmatched
deriving DecidableEq, Repr

structure Segment where
  kind : SegmentKind
  start : Nat
  bytes : List UInt8
deriving DecidableEq, Repr

def Segment.stop (segment : Segment) : Nat :=
  segment.start + segment.bytes.length

/-- A pattern and the kind of segment it makes. -/
structure LexicalRule where
  kind : SegmentKind
  pattern : Pattern

namespace LexicalRule

open Pattern in
/-- The rules of key expressions, earlier ones first. -/
def keyExpression : List LexicalRule :=
  let quote := exactly '\''
  let digits := "0123456789".toList
  [ ⟨.token .character,
      .sequence quote (.sequence
        (.choice (noneOf ['\'', '\\'])
          (.sequence (exactly '\\') (.repeated (noneOf ['\'']))))
        quote)⟩,
    ⟨.token .number,
      .sequence (.choice .empty (exactly '-'))
        (.choice (.sequence (word "0x") (.repeated (oneOf (digits ++ "abcdefABCDEF".toList))))
          (.choice (.sequence (word "0b") (.repeated (oneOf ['0', '1'])))
            (.repeated (oneOf digits))))⟩,
    ⟨.blank, .repeated (oneOf [' ', '\t', '\n', '\r'])⟩,
    ⟨.token .dots, word ".."⟩,
    ⟨.token .comma, word ","⟩,
    ⟨.token .any, word "any"⟩ ]

/-- The rules that can go on after a byte. -/
def advance (value : UInt8) (rules : List LexicalRule) : List LexicalRule :=
  (rules.map fun rule => ⟨rule.kind, rule.pattern.derivative value⟩).filter
    fun rule => rule.pattern.alive

def accepted? (rules : List LexicalRule) : Option SegmentKind :=
  (rules.find? fun rule => rule.pattern.nullable).map LexicalRule.kind

end LexicalRule

/-- How far the rules got at a place: the number of bytes read, and the longest
match with its kind. -/
structure Munch where
  read : Nat
  best : Option (Nat × SegmentKind)
deriving DecidableEq, Repr

namespace Munch

/-- Read bytes until no rule can go on. The byte that stops the rules counts as
read. -/
def run (rules : List LexicalRule) (read : Nat) (best : Option (Nat × SegmentKind)) :
    List UInt8 → Munch
  | [] => ⟨read, best⟩
  | value :: rest =>
    match LexicalRule.advance value rules with
    | [] => ⟨read + 1, best⟩
    | going =>
      let best := match LexicalRule.accepted? going with
        | some kind => some (read + 1, kind)
        | none => best
      run going (read + 1) best rest

def outcome (munch : Munch) : Nat × SegmentKind :=
  munch.best.getD (munch.read, .unmatched)

end Munch

namespace Segment

def cut (rules : List LexicalRule) (offset : Nat) : List UInt8 → List Segment
  | [] => []
  | first :: rest =>
    let (length, kind) := (Munch.run rules 0 none (first :: rest)).outcome
    let more := rest.take (length - 1)
    ⟨kind, offset, first :: more⟩ :: cut rules (offset + 1 + more.length) (rest.drop (length - 1))
termination_by bytes => bytes.length
decreasing_by simp only [List.length_drop, List.length_cons]; omega

end Segment

/-- A place in a text: line and column, both counted from one. A line break
stands in column zero of the line it opens. -/
structure Place where
  line : Nat
  column : Nat
deriving DecidableEq, Repr

namespace Place

def next (place : Place) (value : UInt8) : Place :=
  if value = 10 then ⟨place.line + 1, 0⟩ else ⟨place.line, place.column + 1⟩

def ofOffset (bytes : List UInt8) (offset : Nat) : Place :=
  (bytes.take (offset + 1)).foldl next ⟨1, 0⟩

def text (place : Place) : String :=
  s!"{place.line}:{place.column}"

end Place

structure UnmatchedText where
  start : Place
  failing : Place
  bytes : List UInt8
deriving DecidableEq, Repr

def UnmatchedText.message (unmatched : UnmatchedText) : String :=
  "Lexer error: could not match text starting at " ++ unmatched.start.text ++
    " failing at " ++ unmatched.failing.text ++ ".\n\tunmatched text: " ++
    Text.Quoted.bytes unmatched.bytes

inductive Lexed where
  | token (token : Token)
  | unmatched (text : UnmatchedText)
deriving DecidableEq, Repr

namespace Lexed

/-- The reading of a segment of a text. Blanks are passed over. -/
def ofSegment (text : List UInt8) (segment : Segment) : Option Lexed :=
  match segment.kind with
  | .blank => none
  | .token kind =>
    some (.token ⟨kind, Text.Utf8.decodeLossy segment.bytes, segment.start, segment.stop⟩)
  | .unmatched =>
    some (.unmatched
      ⟨.ofOffset text segment.start, .ofOffset text segment.stop, segment.bytes⟩)

/-- Tokens and unmatched parts of a key expression, up to the end of text. The text is one of
characters, so its bytes are valid UTF-8; requests for tokens are also about other bytes. -/
def ofText (text : String) : List Lexed :=
  let bytes := text.toUTF8.toList
  (Segment.cut LexicalRule.keyExpression 0 bytes).filterMap (ofSegment bytes) ++
    [.token ⟨.endOfText, "", bytes.length, bytes.length⟩]

end Lexed

end StateTables
