import StateTables.Alphabet.Literal
import StateTables.KeyExpression.Token

/-! # Key expressions

A key list is one or more items separated by commas; an item is `any`, a key or
two keys with dots between them. Reading stops at the first problem.
-/

namespace StateTables

/-- An inclusive interval of keys. -/
structure KeyRange where
  low : Key
  high : Key
deriving DecidableEq, Repr

def KeyRange.text (range : KeyRange) : String :=
  if range.low = range.high then toString range.low.signedValue
  else toString range.low.signedValue ++ ".." ++ toString range.high.signedValue

inductive KeyExpressionError where
  | unmatched (text : UnmatchedText)
  | expectedKey (found : Token)
  | badKey (offset : Nat) (problem : KeyError)
  | emptyRange (low high : String)
  | unexpected (found : Token)
  | notSingle
  | rangeAmongKeys (range : KeyRange)
deriving DecidableEq, Repr

def KeyExpressionError.failure (expression : String) : KeyExpressionError → Failure
  | .badKey offset problem =>
    problem.failure.within (Text.Quoted.text expression ++ " at " ++ toString offset)
  | problem => .because .keyExpression <| Text.Quoted.text expression ++ ": " ++
    match problem with
    | .unmatched text => text.message
    | .expectedKey found =>
      "expected key at " ++ toString found.start ++ ", found " ++ found.kind.name
    | .badKey _ problem => problem.failure.message
    | .emptyRange low high => "empty range " ++ low ++ ".." ++ high
    | .unexpected found => "unexpected " ++ found.kind.name ++ " at " ++ toString found.start
    | .notSingle => "single key or range expected"
    | .rangeAmongKeys range => "range " ++ range.text ++ " in key sequence"

namespace KeyExpression

/-- What is left of a reading after at least one token. -/
abbrev Shorter (lexed : List Lexed) : Type :=
  { rest : List Lexed // rest.length < lexed.length }

def peek : List Lexed → Except KeyExpressionError Token
  | [] => .ok ⟨.endOfText, "", 0, 0⟩
  | .token token :: _ => .ok token
  | .unmatched text :: _ => .error (.unmatched text)

def readKey (alphabet : Alphabet) :
    (lexed : List Lexed) → Except KeyExpressionError (Key × Shorter lexed)
  | [] => .error (.expectedKey ⟨.endOfText, "", 0, 0⟩)
  | .unmatched text :: _ => .error (.unmatched text)
  | .token token :: rest =>
    if token.kind.isKey then
      match alphabet.readKey token.lexeme with
      | .ok key => .ok (key, ⟨rest, by simp⟩)
      | .error problem => .error (.badKey token.start problem)
    else .error (.expectedKey token)

def readUpper (alphabet : Alphabet) (low : Key) (lexed : List Lexed) :
    Except KeyExpressionError (KeyRange × { rest : List Lexed // rest.length ≤ lexed.length }) :=
  match lexed with
  | .unmatched text :: _ => .error (.unmatched text)
  | .token ⟨.dots, _, _, _⟩ :: rest =>
    match readKey alphabet rest with
    | .error problem => .error problem
    | .ok (high, ⟨rest, shorter⟩) =>
      match peek rest with
      | .error problem => .error problem
      | .ok _ =>
        if alphabet.below high low then
          .error (.emptyRange (alphabet.decimal low) (alphabet.decimal high))
        else .ok (⟨low, high⟩, ⟨rest, by simp only [List.length_cons]; omega⟩)
  | rest => .ok (⟨low, low⟩, ⟨rest, by simp⟩)

def readItem (alphabet : Alphabet) (lexed : List Lexed) :
    Except KeyExpressionError (KeyRange × Shorter lexed) :=
  match lexed with
  | .token ⟨.any, _, _, _⟩ :: rest =>
    .ok (⟨alphabet.low, alphabet.high⟩, ⟨rest, by simp⟩)
  | lexed =>
    match readKey alphabet lexed with
    | .error problem => .error problem
    | .ok (low, ⟨rest, shorter⟩) =>
      match readUpper alphabet low rest with
      | .error problem => .error problem
      | .ok (range, ⟨rest, notLonger⟩) => .ok (range, ⟨rest, by omega⟩)

def readItems (alphabet : Alphabet) (lexed : List Lexed) :
    Except KeyExpressionError (List KeyRange) :=
  match readItem alphabet lexed with
  | .error problem => .error problem
  | .ok (range, ⟨[], _⟩) => .ok [range]
  | .ok (_, ⟨.unmatched text :: _, _⟩) => .error (.unmatched text)
  | .ok (range, ⟨.token token :: rest, _⟩) =>
    match token.kind with
    | .endOfText => .ok [range]
    | .comma =>
      match readItems alphabet rest with
      | .error problem => .error problem
      | .ok ranges => .ok (range :: ranges)
    | _ => .error (.unexpected token)
termination_by lexed.length
decreasing_by simp_all only [List.length_cons]; omega

end KeyExpression

namespace Alphabet

/-- Read a list of keys and ranges. Expressions consist of characters, so bytes that are no UTF-8
are left out of account. The same holds for the other readers of key expressions. -/
def readKeyList (alphabet : Alphabet) (expression : String) :
    Except KeyExpressionError (List KeyRange) :=
  KeyExpression.readItems alphabet (Lexed.ofText expression)

def readKeyRange (alphabet : Alphabet) (expression : String) :
    Except KeyExpressionError KeyRange :=
  match alphabet.readKeyList expression with
  | .error problem => .error problem
  | .ok [range] => .ok range
  | .ok _ => .error .notSingle

/-- The single keys of a list without ranges. -/
def singleKeys : List KeyRange → Except KeyExpressionError (List Key)
  | [] => .ok []
  | range :: rest =>
    if range.low = range.high then
      match singleKeys rest with
      | .error problem => .error problem
      | .ok keys => .ok (range.low :: keys)
    else .error (.rangeAmongKeys range)

def readKeySequence (alphabet : Alphabet) (expression : String) :
    Except KeyExpressionError (List Key) :=
  match alphabet.readKeyList expression with
  | .error problem => .error problem
  | .ok ranges => singleKeys ranges

end Alphabet

end StateTables
