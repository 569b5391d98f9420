import StateTables.Format.Printer

/-! # Build constraints

Comments at the head of a file may tell when the file is used. They come in two
forms: a formula on one line, or several lines all of which have to hold, each a
choice between conjunctions. A laid-out file has them all above its package clause,
and if there is a formula at all, both forms say the same.
-/

namespace StateTables.Format

inductive Constraint where
  | tag (name : String)
  | not (inner : Constraint)
  | both (left right : Constraint)
  | either (left right : Constraint)
deriving DecidableEq, Repr

namespace Constraint

/-! ## Formulas -/

def isTagCharacter (character : Char) : Bool :=
  Text.isWordRest character || character = '.'

inductive Word where
  | tag (name : String)
  | opening
  | closing
  | not
  | both
  | either
deriving DecidableEq, Repr

/-- The words of a formula. There is no answer if some character fits nowhere. -/
def words : Nat → List Char → Option (List Word)
  | 0, _ => none
  | _, [] => some []
  | fuel + 1, ' ' :: rest => words fuel rest
  | fuel + 1, '\t' :: rest => words fuel rest
  | fuel + 1, '(' :: rest => (words fuel rest).map (.opening :: ·)
  | fuel + 1, ')' :: rest => (words fuel rest).map (.closing :: ·)
  | fuel + 1, '!' :: rest => (words fuel rest).map (.not :: ·)
  | fuel + 1, '&' :: '&' :: rest => (words fuel rest).map (.both :: ·)
  | fuel + 1, '|' :: '|' :: rest => (words fuel rest).map (.either :: ·)
  | fuel + 1, characters =>
    match characters.takeWhile isTagCharacter with
    | [] => none
    | name => (words fuel (characters.drop name.length)).map (.tag (String.ofList name) :: ·)

/-- How tight a formula binds. -/
inductive Level where
  | either
  | both
  | not
  | atom

def read : Nat → Level → List Word → Option (Constraint × List Word)
  | 0, _, _ => none
  | fuel + 1, .either, words => do
    let (first, rest) ← read fuel .both words
    others fuel .both .either .either first rest
  | fuel + 1, .both, words => do
    let (first, rest) ← read fuel .not words
    others fuel .not .both .both first rest
  | fuel + 1, .not, .not :: rest => do
    let (inner, rest) ← read fuel .atom rest
    return (.not inner, rest)
  | fuel + 1, .not, words => read fuel .atom words
  | fuel + 1, .atom, .opening :: rest => do
    match ← read fuel .either rest with
    | (inner, .closing :: rest) => return (inner, rest)
    | _ => none
  | _ + 1, .atom, .tag name :: rest => some (.tag name, rest)
  | _ + 1, .atom, _ => none
where
  /-- Read what follows a formula behind an operator. -/
  others : Nat → Level → Word → (Constraint → Constraint → Constraint) → Constraint →
      List Word → Option (Constraint × List Word)
    | 0, _, _, _, _, _ => none
    | fuel + 1, level, operator, join, first, word :: rest =>
      if word = operator then do
        let (next, rest) ← read fuel level rest
        others fuel level operator join (join first next) rest
      else some (first, word :: rest)
    | _ + 1, _, _, _, first, [] => some (first, [])

def formula? (text : List Char) : Option Constraint := do
  let words ← words (text.length + 1) text
  match ← read (8 * words.length + 8) .either words with
  | (constraint, []) => some constraint
  | _ => none

/-! ## Lines -/

def literal (text : List Char) : Constraint :=
  let tag (name : List Char) : Constraint :=
    if !name.isEmpty && name.all isTagCharacter then .tag (String.ofList name)
    else .tag "ignore"
  match text with
  | ['!'] => .tag "ignore"
  | '!' :: '!' :: _ => .tag "ignore"
  | '!' :: name => .not (tag name)
  | name => tag name

def joined (join : Constraint → Constraint → Constraint) (otherwise : Constraint) :
    List Constraint → Constraint
  | [] => otherwise
  | first :: rest => rest.foldl join first

/-- Read a choice between conjunctions. There is no answer if there are more than a
hundred operators. -/
def choice? (text : List Char) : Option Constraint :=
  let clauses : List (List Char) := (text.splitBy fun first second =>
    Text.isBlank first == Text.isBlank second).filter fun clause =>
      !(clause.all Text.isBlank)
  let parts : List (List Constraint) := clauses.map fun clause =>
    (clause.splitOn ',').map literal
  let operators : Nat := (parts.map List.length).foldl (· + ·) 0 - 1
  if operators > 100 then none
  else some (joined .either (.tag "ignore") (parts.map (joined .both (.tag "ignore"))))

def ofComment? (text : String) : Option Constraint :=
  if Printer.isFormula text then
    formula? (Text.trimBlanks (text.toList.drop "//go:build".length))
  else if Printer.isChoice text then
    let content := Text.trimBlanks (text.toList.drop 2)
    choice? (Text.trimBlanks (content.drop "+build".length))
  else none

/-! ## Writing -/

def isBoth : Constraint → Bool
  | .both _ _ => true
  | _ => false

def isEither : Constraint → Bool
  | .either _ _ => true
  | _ => false

def enclosedIf (condition : Bool) (text : String) : String :=
  if condition then "(" ++ text ++ ")" else text

def text : Constraint → String
  | .tag name => name
  | .not inner => "!" ++ enclosedIf (inner.isBoth || inner.isEither) inner.text
  | .both left right =>
    enclosedIf left.isEither left.text ++ " && " ++ enclosedIf right.isEither right.text
  | .either left right =>
    enclosedIf left.isBoth left.text ++ " || " ++ enclosedIf right.isBoth right.text

/-- A constraint, or its opposite, in which only tags are negated. -/
def pushed (isNegated : Bool) : Constraint → Constraint
  | .tag name => if isNegated then .not (.tag name) else .tag name
  | .not inner => inner.pushed (!isNegated)
  | .both left right =>
    if isNegated then .either (left.pushed true) (right.pushed true)
    else .both (left.pushed false) (right.pushed false)
  | .either left right =>
    if isNegated then .both (left.pushed true) (right.pushed true)
    else .either (left.pushed false) (right.pushed false)

def conjuncts : Constraint → List Constraint
  | .both left right => left.conjuncts ++ right.conjuncts
  | other => [other]

def alternatives : Constraint → List Constraint
  | .either left right => left.alternatives ++ right.alternatives
  | other => [other]

def choices (constraint : Constraint) : List (List (List Constraint)) :=
  let lines := (constraint.pushed false).conjuncts.map fun line =>
    line.alternatives.map conjuncts
  if lines.all fun line => line.length = 1 then [[lines.flatten.flatten]] else lines

def lines (constraint : Constraint) : List String :=
  let choices := constraint.choices
  let literals := choices.flatten.flatten
  if literals.any isEither then
    ["// +build error: expression too complex for // +build lines"]
  else choices.map fun line =>
    "// +build" ++ String.join (line.map fun literals =>
      " " ++ ",".intercalate (literals.map text))

end Constraint

/-! ## Placing constraints -/

namespace Printer

def lineOf : List Glyph → List Glyph
  | [] => []
  | glyph :: rest => if glyph.endsLine then [glyph] else glyph :: lineOf rest

def isLineComment : Glyph → Bool
  | .text content => content.startsWith "//"
  | _ => false

/-- The latest place for constraints: behind the last blank line before anything but
comments. Given are the number of glyphs passed and the place found so far. -/
def constraintPlace : Nat → Nat → Nat → List Glyph → Nat
  | 0, _, found, _ => found
  | fuel + 1, passed, found, glyphs =>
    let line := lineOf glyphs
    let content := line.dropWhile fun glyph => glyph = .blank || glyph = .tab
    match content with
    | [] => found
    | first :: _ =>
      if first.endsLine then
        let passed := passed + line.length
        constraintPlace fuel passed passed (glyphs.drop line.length)
      else if isLineComment first && (content.getLast?.map Glyph.endsLine).getD false then
        constraintPlace fuel (passed + line.length) found (glyphs.drop line.length)
      else found

/-- Append whole lines, but no second blank line. -/
def appendLines (glyphs more : List Glyph) : List Glyph :=
  let endsBlank := match glyphs.reverse with
    | [] => true
    | first :: second :: _ => first.endsLine && second.endsLine
    | _ => false
  match more with
  | first :: rest => if first.endsLine && endsBlank then glyphs ++ rest else glyphs ++ more
  | [] => glyphs

def withoutLines (glyphs : List Glyph) (start : Nat) (kept : List Glyph) :
    List Nat → List Glyph
  | [] => appendLines kept (glyphs.drop start)
  | place :: rest =>
    if place < start then withoutLines glyphs start kept rest
    else
      let kept := appendLines kept ((glyphs.drop start).take (place - start))
      withoutLines glyphs (place + (lineOf (glyphs.drop place)).length) kept rest

def commentAt (glyphs : List Glyph) (place : Nat) : String :=
  match glyphs.drop place with
  | .text content :: _ => content
  | _ => ""

def constraintOf? (glyphs : List Glyph) (formulas choices : List Nat) : Option Constraint :=
  match formulas with
  | [] =>
    (choices.mapM fun place => Constraint.ofComment? (commentAt glyphs place)).bind fun
      | [] => none
      | first :: rest => some (rest.foldl .both first)
  | [place] => Constraint.ofComment? (commentAt glyphs place)
  | _ => none

def constraintLines (glyphs : List Glyph) (formulas choices : List Nat) : List Glyph :=
  match constraintOf? glyphs formulas choices with
  | none => (formulas ++ choices).flatMap (fun place => lineOf (glyphs.drop place)) ++ [.newline]
  | some constraint =>
    let lines := ("//go:build " ++ constraint.text) ::
      if choices.isEmpty then [] else constraint.lines
    lines.flatMap (fun line => [.text line, .newline]) ++ [.newline]

def placeConstraints (output : Array Glyph) (formulas choices : Array Nat) : Array Glyph :=
  if formulas.isEmpty && choices.isEmpty then output
  else
    let glyphs := output.toList
    let latest := constraintPlace (glyphs.length + 1) 0 0 glyphs
    let place := match formulas[0]?, choices[0]? with
      | some first, _ => if first < latest then first else earlier latest choices[0]?
      | none, first => earlier latest first
    let block := constraintLines glyphs formulas.toList choices.toList
    let places := (formulas.toList ++ choices.toList).mergeSort (· ≤ ·)
    let rest := withoutLines glyphs place [] places
    let endsBlank := match rest.reverse with
      | first :: second :: _ => first.endsLine && second.endsLine
      | _ => false
    let rest := if endsBlank then rest.dropLast else rest
    (glyphs.take place ++ block ++ rest).toArray
where
  /-- The earlier one of two places. -/
  earlier (latest : Nat) : Option Nat → Nat
    | some first => min first latest
    | none => latest

end Printer

end StateTables.Format
