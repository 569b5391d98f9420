import StateTables.Decimal.Nearest
import StateTables.Literal.Integer
import StateTables.Text.Base64
import StateTables.Text.Utf8
import StateTables.Yaml.Timestamp

/-! # Meanings of scalars

What a scalar stands for is decided by its text, if no tag decides it: nothing, a
truth value, a number, a date, or just the text. A tag must agree with the text.
-/

namespace StateTables.Yaml

inductive Number where
  | undefined
  | infinite (negative : Bool)
  | finite (negative : Bool) (magnitude : Decimal.Binary)
deriving DecidableEq, Repr

inductive Meaning where
  | nothing
  | flag (value : Bool)
  | integer (value : Int)
  | number (value : Number)
  | date
  | merge
  | text (content : String)
deriving DecidableEq, Repr

namespace Meaning

def tag : Meaning → String
  | .nothing => "!!null"
  | .flag _ => "!!bool"
  | .integer _ => "!!int"
  | .number _ => "!!float"
  | .date => "!!timestamp"
  | .merge => "!!merge"
  | .text _ => "!!str"

def ofWord? : String → Option Meaning
  | "" | "~" | "null" | "Null" | "NULL" => some .nothing
  | "true" | "True" | "TRUE" => some (.flag true)
  | "false" | "False" | "FALSE" => some (.flag false)
  | ".nan" | ".NaN" | ".NAN" => some (.number .undefined)
  | ".inf" | ".Inf" | ".INF" | "+.inf" | "+.Inf" | "+.INF" => some (.number (.infinite false))
  | "-.inf" | "-.Inf" | "-.INF" => some (.number (.infinite true))
  | "<<" => some .merge
  | _ => none

/-! ## Numbers -/

def readSign : List Char → Bool × List Char
  | '-' :: rest => (true, rest)
  | '+' :: rest => (false, rest)
  | rest => (false, rest)

def exponent? : List Char → Option Int
  | [] => some 0
  | mark :: rest =>
    let (negative, digits) := readSign rest
    if (mark = 'e' || mark = 'E') && !digits.isEmpty && digits.all Char.isDigit then
      let value : Int := Timestamp.digitsValue digits
      some (if negative then -value else value)
    else none

/-- A decimal number: an optional sign, digits with an optional point among
them, and an optional exponent. -/
def ofDecimal? (characters : List Char) : Option Meaning :=
  let (negative, unsigned) := readSign characters
  let whole := unsigned.takeWhile Char.isDigit
  let behind := unsigned.dropWhile Char.isDigit
  let (fraction, rest) := match behind with
    | '.' :: rest => (rest.takeWhile Char.isDigit, rest.dropWhile Char.isDigit)
    | rest => ([], rest)
  if whole.isEmpty && fraction.isEmpty then none
  else do
    let exponent ← exponent? rest
    let digits := (whole ++ fraction).map fun digit => digit.toNat - '0'.toNat
    let magnitude ← Decimal.nearest? digits (exponent - fraction.length)
    return .number (.finite negative magnitude)

def ofSeparatedDecimal? (characters : List Char) : Option Meaning :=
  if Literal.Integer.underscoresPlaced characters then
    ofDecimal? (characters.filter (· != '_'))
  else none

def readBase (base : Nat) (digits : List Char) : Except Literal.IntegerError Nat :=
  if digits.isEmpty then .error .malformed else Literal.Integer.accumulate base false 0 digits

def readInteger? (reader : List Char → Except Literal.IntegerError Nat) (digits : List Char) :
    Option Int :=
  match Literal.Integer.readSigned reader digits with
  | .ok value => some value
  | .error _ => match reader digits with
    | .ok value => some value
    | .error _ => none

def ofMarked? (digits : List Char) : Option Int :=
  match digits with
  | '0' :: 'b' :: rest => readInteger? (readBase 2) rest
  | '0' :: 'o' :: rest => readInteger? (readBase 8) rest
  | '-' :: '0' :: 'b' :: rest =>
    (Literal.Integer.readSigned (readBase 2) ('-' :: rest)).toOption
  | '-' :: '0' :: 'o' :: rest =>
    (Literal.Integer.readSigned (readBase 8) ('-' :: rest)).toOption
  | _ => none

def ofNumber? (characters : List Char) : Option Meaning :=
  let digits := characters.filter (· != '_')
  match readInteger? Literal.Integer.readUnsigned digits with
  | some value => some (.integer value)
  | none => (ofDecimal? digits).or ((ofMarked? digits).map .integer)

/-! ## Scalars -/

/-- The meaning of a text without a tag, or with one that does not make it a mere
text. Dates are looked for only if `dates` says so. -/
def ofText (dates : Bool) (text : String) : Meaning :=
  match ofWord? text with
  | some meaning => meaning
  | none =>
    let characters := text.toList
    let found := match characters with
      | '.' :: _ => ofSeparatedDecimal? characters
      | first :: _ =>
        if !(first.isDigit || first = '+' || first = '-') then none
        else if dates && Timestamp.isTimestamp text then some .date
        else ofNumber? characters
      | [] => none
    found.getD (.text text)

end Meaning

inductive Refusal where
  /-- The text has a meaning of another tag. -/
  | otherTag (found text expected : String)
  | malformedBytes
  | selfContaining (anchor : String)
  | unmergeable
deriving DecidableEq, Repr

def Refusal.message : Refusal → String
  | .otherTag found text expected =>
    "cannot decode " ++ found ++ " `" ++ text ++ "` as a " ++ expected
  | .malformedBytes => "!!binary value contains invalid base64 data"
  | .selfContaining anchor => "anchor '" ++ anchor ++ "' value contains itself"
  | .unmergeable => "map merge requires map or sequence of maps as the value"

/-- The meaning of a scalar with a tag. An integer can be tagged as a number. -/
def Meaning.ofTagged (tag text : String) : Except Refusal Meaning :=
  if tag = "!!str" then .ok (.text text)
  else if tag = "!!binary" then
    match Text.Base64.decode? text with
    | some bytes => .ok (.text (Text.Utf8.decodeLossy bytes))
    | none => .error .malformedBytes
  else
    let meaning := Meaning.ofText (tag = "!!timestamp") text
    if meaning.tag = tag then .ok meaning
    else match meaning with
      | .integer value =>
        if tag = "!!float" && value < Nat.pow 2 63 then
          .ok (.number (.finite (value < 0) (Decimal.Binary.nearest value.natAbs 1)))
        else .error (.otherTag meaning.tag text tag)
      | _ => .error (.otherTag meaning.tag text tag)

end StateTables.Yaml
