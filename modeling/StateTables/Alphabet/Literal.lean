import StateTables.Alphabet.Basic
import StateTables.Diagnostics
import StateTables.Literal.Character
import StateTables.Literal.Integer
import StateTables.Text.Blank

/-! # Key literals

A key literal is an integer literal with an optional sign or a quoted
character, between optional blanks. A literal whose number lies outside the
integer type is clamped to the nearest key of the type, and the clamping is an
error which carries that key. The bounds of an alphabet are given as literals.
-/

namespace StateTables

inductive KeyError where
  | empty
  | malformed (literal : String)
  | notOneCharacter (literal : String)
  | overflow (literal : String) (host : IntegerType) (clamped : Key)
deriving DecidableEq, Repr

namespace KeyError

def reason : KeyError → Reason
  | .overflow .. => .keyOverflow
  | _ => .keySyntax

def failure (problem : KeyError) : Failure :=
  .because problem.reason <| match problem with
    | .empty => "empty key"
    | .malformed literal => literal
    | .notOneCharacter literal => literal ++ " is not a single character"
    | .overflow literal host clamped =>
      literal ++ " does not fit into " ++ host.declaredName ++ ", clamped to " ++
        host.decimal clamped.pattern

def key : KeyError → Key
  | .overflow _ _ clamped => clamped
  | _ => .ofInt 0

end KeyError

namespace Alphabet

def keyOf (alphabet : Alphabet) (literal : String) (number : Int) : Except KeyError Key :=
  let host := alphabet.host
  if number < host.least then .error (.overflow literal host (.ofInt host.least))
  else if host.greatest < number then .error (.overflow literal host (.ofInt host.greatest))
  else .ok (.ofInt number)

def readCharacter (alphabet : Alphabet) (literal : String) (characters : List Char) :
    Except KeyError Key :=
  if characters.length < 3 || characters.getLast? != some '\'' then
    .error (.malformed literal)
  else match Literal.Character.code? (characters.drop 1).dropLast with
    | some code => alphabet.keyOf literal code
    | none => .error (.notOneCharacter literal)

/-- Read a literal that starts with a minus sign. A magnitude beyond 64 bits is
below every integer type. -/
def readNegative (alphabet : Alphabet) (literal : String) (characters : List Char) :
    Except KeyError Key :=
  match Literal.Integer.readSigned Literal.Integer.readUnsigned characters with
  | .ok number => alphabet.keyOf literal number
  | .error .tooLarge =>
    .error (.overflow literal alphabet.host (.ofInt alphabet.host.least))
  | .error .malformed => .error (.malformed literal)

/-- Read a literal without a minus sign. A magnitude beyond 64 bits is above
every integer type. -/
def readPositive (alphabet : Alphabet) (literal : String) (characters : List Char) :
    Except KeyError Key :=
  match Literal.Integer.readUnsigned characters with
  | .ok number => alphabet.keyOf literal number
  | .error .tooLarge =>
    .error (.overflow literal alphabet.host (.ofInt alphabet.host.greatest))
  | .error .malformed => .error (.malformed literal)

/-- Read a key literal. Texts consist of characters, so bytes that are no UTF-8 are left out of
account, such as a single byte above 127 between quotes. -/
def readKey (alphabet : Alphabet) (text : String) : Except KeyError Key :=
  let characters := Text.trimBlanks text.toList
  let literal := String.ofList characters
  match characters with
  | [] => .error .empty
  | '\'' :: _ => alphabet.readCharacter literal characters
  | '-' :: _ => alphabet.readNegative literal characters
  | '+' :: rest => alphabet.readPositive literal rest
  | _ => alphabet.readPositive literal characters

/-- Read a bound of the alphabet: the key to go on with, if any, and a
diagnostic if the literal is not one of the type. -/
def readBound (alphabet : Alphabet) (text : String) : Option Key × List String :=
  match alphabet.readKey text with
  | .ok key => (some key, [])
  | .error problem =>
    (if problem.reason = .keyOverflow then some problem.key else none,
      ["alphabet range: " ++ problem.failure.message])

/-- Narrow the alphabet to the keys between two literals. Clamped literals are
reported and used; with a malformed literal or bounds in the wrong order the
alphabet stays as it is. -/
def narrow (alphabet : Alphabet) (low high : String) (diagnostics : Diagnostics) :
    Alphabet × Diagnostics :=
  match alphabet.readBound low with
  | (none, messages) => (alphabet, messages.foldl .report diagnostics)
  | (some lowKey, lowMessages) =>
    match alphabet.readBound high with
    | (none, messages) => (alphabet, (lowMessages ++ messages).foldl .report diagnostics)
    | (some highKey, highMessages) =>
      let diagnostics := (lowMessages ++ highMessages).foldl .report diagnostics
      if alphabet.below highKey lowKey then
        (alphabet, diagnostics.report <|
          "alphabet range: lower bound " ++ low ++ " greater than upper bound " ++ high)
      else
        (⟨alphabet.host, lowKey, highKey, true⟩, diagnostics)

end Alphabet

end StateTables
