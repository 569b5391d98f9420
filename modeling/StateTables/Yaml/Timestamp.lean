/-! # Dates and times

A date has a year of four digits, a month and a day. A time can follow it, behind
the letter `T` with the offset of its zone, or behind blanks without one.
-/

namespace StateTables.Yaml.Timestamp

def digitsValue (digits : List Char) : Nat :=
  digits.foldl (fun number digit => 10 * number + (digit.toNat - '0'.toNat)) 0

def readNumber? : List Char → Option (Nat × List Char)
  | first :: second :: rest =>
    if !first.isDigit then none
    else if second.isDigit then some (digitsValue [first, second], rest)
    else some (digitsValue [first], second :: rest)
  | [first] => if first.isDigit then some (digitsValue [first], []) else none
  | [] => none

def readBelow? (limit : Nat) (characters : List Char) : Option (Nat × List Char) :=
  (readNumber? characters).filter fun (number, _) => number < limit

def expect? (character : Char) : List Char → Option (List Char)
  | [] => none
  | first :: rest => if first = character then some rest else none

def isLeapYear (year : Nat) : Bool :=
  year % 4 = 0 && (year % 100 ≠ 0 || year % 400 = 0)

def daysOfMonth (year month : Nat) : Nat :=
  if month = 2 then if isLeapYear year then 29 else 28
  else if [4, 6, 9, 11].contains month then 30
  else 31

def readDate? (characters : List Char) : Option (List Char) := do
  let year := characters.takeWhile Char.isDigit
  if year.length ≠ 4 then none
  let rest ← expect? '-' (characters.drop 4)
  let (month, rest) ← readBelow? 13 rest
  if month = 0 then none
  let (day, rest) ← readNumber? (← expect? '-' rest)
  if day = 0 || daysOfMonth (digitsValue year) month < day then none
  return rest

def skipFraction : List Char → List Char
  | mark :: digit :: rest =>
    if (mark = '.' || mark = ',') && digit.isDigit then rest.dropWhile Char.isDigit
    else mark :: digit :: rest
  | characters => characters

def readTime? (characters : List Char) : Option (List Char) := do
  let (_, rest) ← readBelow? 24 characters
  let (_, rest) ← readBelow? 60 (← expect? ':' rest)
  let (_, rest) ← readBelow? 60 (← expect? ':' rest)
  return skipFraction rest

def isZone : List Char → Bool
  | ['Z'] => true
  | [sign, hour, hour', ':', minute, minute'] =>
    (sign = '+' || sign = '-') && [hour, hour', minute, minute'].all Char.isDigit &&
      digitsValue [hour, hour'] ≤ 24 && digitsValue [minute, minute'] ≤ 60
  | _ => false

def isTime : List Char → Bool
  | 'T' :: rest => (readTime? rest).any isZone
  | 't' :: rest => (readTime? rest).any isZone
  | ' ' :: rest => readTime? (rest.dropWhile (· = ' ')) = some []
  | _ => false

def isTimestamp (text : String) : Bool :=
  match readDate? text.toList with
  | some rest => rest.isEmpty || isTime rest
  | none => false

end StateTables.Yaml.Timestamp
