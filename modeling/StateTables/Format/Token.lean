/-! # Tokens of source text

Source text is a sequence of names, literals, symbols and keywords. Every token
knows its place in the text.
-/

namespace StateTables.Format

/-- A place in a text: the bytes before it, its line and its column in bytes, both
counted from one. Line zero stands for no place. -/
structure Place where
  offset : Nat
  line : Nat
  column : Nat
deriving DecidableEq, Repr, Inhabited

namespace Place

def unknown : Place := ⟨0, 0, 0⟩

def start : Place := ⟨0, 1, 1⟩

def isKnown (place : Place) : Bool :=
  place.line > 0

def past (place : Place) (character : Char) : Place :=
  if character = '\n' then ⟨place.offset + 1, place.line + 1, 1⟩
  else ⟨place.offset + character.utf8Size, place.line, place.column + character.utf8Size⟩

end Place

inductive LiteralKind where
  | integer
  | floating
  | imaginary
  | character
  | text
deriving DecidableEq, Repr

inductive Symbol where
  | plus | minus | times | slash | percent
  | and | or | xor | shiftLeft | shiftRight | andNot
  | plusAssign | minusAssign | timesAssign | slashAssign | percentAssign
  | andAssign | orAssign | xorAssign | shiftLeftAssign | shiftRightAssign | andNotAssign
  | both | either | arrow | increment | decrement
  | equal | less | greater | assign | not | tilde
  | notEqual | atMost | atLeast | define | ellipsis
  | openParen | openBracket | openBrace | comma | period
  | closeParen | closeBracket | closeBrace | semicolon | colon
deriving DecidableEq, Repr

namespace Symbol

def text : Symbol → String
  | .plus => "+" | .minus => "-" | .times => "*" | .slash => "/" | .percent => "%"
  | .and => "&" | .or => "|" | .xor => "^"
  | .shiftLeft => "<<" | .shiftRight => ">>" | .andNot => "&^"
  | .plusAssign => "+=" | .minusAssign => "-=" | .timesAssign => "*=" | .slashAssign => "/="
  | .percentAssign => "%=" | .andAssign => "&=" | .orAssign => "|=" | .xorAssign => "^="
  | .shiftLeftAssign => "<<=" | .shiftRightAssign => ">>=" | .andNotAssign => "&^="
  | .both => "&&" | .either => "||" | .arrow => "<-" | .increment => "++" | .decrement => "--"
  | .equal => "==" | .less => "<" | .greater => ">" | .assign => "=" | .not => "!"
  | .tilde => "~" | .notEqual => "!=" | .atMost => "<=" | .atLeast => ">=" | .define => ":="
  | .ellipsis => "..." | .openParen => "(" | .openBracket => "[" | .openBrace => "\x7b"
  | .comma => "," | .period => "." | .closeParen => ")" | .closeBracket => "]"
  | .closeBrace => "\x7d" | .semicolon => ";" | .colon => ":"

/-- All symbols, long ones first. -/
def all : List Symbol :=
  [.shiftLeftAssign, .shiftRightAssign, .andNotAssign, .ellipsis,
    .shiftLeft, .shiftRight, .andNot, .plusAssign, .minusAssign, .timesAssign, .slashAssign,
    .percentAssign, .andAssign, .orAssign, .xorAssign, .both, .either, .arrow, .increment,
    .decrement, .equal, .notEqual, .atMost, .atLeast, .define,
    .plus, .minus, .times, .slash, .percent, .and, .or, .xor, .less, .greater, .assign, .not,
    .tilde, .openParen, .openBracket, .openBrace, .comma, .period, .closeParen, .closeBracket,
    .closeBrace, .semicolon, .colon]

def spellings : List (List Char × Symbol) :=
  all.map fun symbol => (symbol.text.toList, symbol)

/-- How tight a binary operator binds. Other symbols have no precedence. -/
def precedence : Symbol → Nat
  | .either => 1
  | .both => 2
  | .equal | .notEqual | .less | .atMost | .greater | .atLeast => 3
  | .plus | .minus | .or | .xor => 4
  | .times | .slash | .percent | .shiftLeft | .shiftRight | .and | .andNot => 5
  | _ => 0

def assigns : Symbol → Bool
  | .assign | .define | .plusAssign | .minusAssign | .timesAssign | .slashAssign
  | .percentAssign | .andAssign | .orAssign | .xorAssign | .shiftLeftAssign
  | .shiftRightAssign | .andNotAssign => true
  | _ => false

/-- Can a line end behind the symbol end a statement? -/
def endsStatement : Symbol → Bool
  | .increment | .decrement | .closeParen | .closeBracket | .closeBrace => true
  | _ => false

end Symbol

inductive Keyword where
  | break | case | chan | const | continue | default | defer | else | fallthrough | for | func
  | go | goto | if | import | interface | map | package | range | return | select | struct
  | switch | type | var
deriving DecidableEq, Repr

namespace Keyword

def text : Keyword → String
  | .break => "break" | .case => "case" | .chan => "chan" | .const => "const"
  | .continue => "continue" | .default => "default" | .defer => "defer" | .else => "else"
  | .fallthrough => "fallthrough" | .for => "for" | .func => "func" | .go => "go"
  | .goto => "goto" | .if => "if" | .import => "import" | .interface => "interface"
  | .map => "map" | .package => "package" | .range => "range" | .return => "return"
  | .select => "select" | .struct => "struct" | .switch => "switch" | .type => "type"
  | .var => "var"

def all : List Keyword :=
  [.break, .case, .chan, .const, .continue, .default, .defer, .else, .fallthrough, .for, .func,
    .go, .goto, .if, .import, .interface, .map, .package, .range, .return, .select, .struct,
    .switch, .type, .var]

def named? (name : String) : Option Keyword :=
  all.find? fun keyword => keyword.text == name

def endsStatement : Keyword → Bool
  | .break | .continue | .fallthrough | .return => true
  | _ => false

end Keyword

inductive Token where
  | name (text : String)
  | literal (kind : LiteralKind) (text : String)
  | symbol (symbol : Symbol)
  | keyword (keyword : Keyword)
  | comment (text : String)
  /-- The end of a line that ends a statement. -/
  | lineEnd
  /-- The end of the text. -/
  | finish
deriving DecidableEq, Repr

namespace Token

def endsStatement : Token → Bool
  | .name _ => true
  | .literal _ _ => true
  | .symbol sign => sign.endsStatement
  | .keyword word => word.endsStatement
  | _ => false

def isSemicolon : Token → Bool
  | .symbol .semicolon => true
  | .lineEnd => true
  | _ => false

end Token

structure Lexeme where
  token : Token
  place : Place
  /-- The line the token ends on. -/
  stopLine : Nat
deriving DecidableEq, Repr

end StateTables.Format
