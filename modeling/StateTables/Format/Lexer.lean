import StateTables.Format.Numeral
import StateTables.Text.Identifier

/-! # Lexing source text

Cuts source text into tokens. A line end behind a token that can end a statement
becomes a token of its own. There is no result for a text with an illegal character
or a malformed token.
-/

namespace StateTables.Format.Lexer

/-! ## Quoted literals -/

def digitValue (digit : Char) : Nat :=
  if digit.isDigit then digit.toNat - '0'.toNat
  else if 'a' ≤ digit && digit ≤ 'f' then digit.toNat - 'a'.toNat + 10
  else if 'A' ≤ digit && digit ≤ 'F' then digit.toNat - 'A'.toNat + 10
  else 16

def fixedNumber? (base count : Nat) (characters : List Char) : Option Nat :=
  let digits := characters.take count
  if digits.length = count && digits.all (digitValue · < base) then
    some (digits.foldl (fun value digit => value * base + digitValue digit) 0)
  else none

def escapeLength? (quote : Char) (characters : List Char) : Option Nat :=
  let number (skipped count base greatest : Nat) :=
    match fixedNumber? base count (characters.drop skipped) with
    | some value =>
      if value ≤ greatest && !(0xd800 ≤ value && value < 0xe000) then some (skipped + count)
      else none
    | none => none
  match characters.head? with
  | none => none
  | some character =>
    if character = quote || ['a', 'b', 'f', 'n', 'r', 't', 'v', '\\'].contains character then
      some 1
    else if '0' ≤ character && character ≤ '7' then number 0 3 8 255
    else match character with
      | 'x' => number 1 2 16 255
      | 'u' => number 1 4 16 0x10ffff
      | 'U' => number 1 8 16 0x10ffff
      | _ => none

/-- The characters of a quoted literal behind its first quote, the last quote
included, and the number of characters they stand for. -/
def quoted? (quote : Char) : Nat → List Char → Option (List Char × Nat)
  | 0, _ => none
  | _, [] => none
  | fuel + 1, character :: rest =>
    if character = '\n' then none
    else if character = quote then some ([character], 0)
    else if character = '\\' then do
      let length ← escapeLength? quote rest
      let (more, count) ← quoted? quote fuel (rest.drop length)
      return (character :: rest.take length ++ more, count + 1)
    else do
      let (more, count) ← quoted? quote fuel rest
      return (character :: more, count + 1)

def rawQuote : Char := Char.ofNat 0x60

/-! ## Comments -/

def enclosed? : List Char → Option (List Char)
  | [] => none
  | '*' :: '/' :: _ => some ['*', '/']
  | character :: rest => (enclosed? rest).map (character :: ·)

/-- Leave out carriage returns, except one that keeps a comment from ending. -/
def withoutReturns (comment : Bool) : Nat → Option Char → List Char → List Char
  | _, _, [] => []
  | count, last, '\r' :: rest =>
    if comment && count > 2 && last = some '*' && rest.head? = some '/' then
      '\r' :: withoutReturns comment (count + 1) (some '\r') rest
    else withoutReturns comment count last rest
  | count, _, character :: rest =>
    character :: withoutReturns comment (count + 1) (some character) rest

def behindColon? (text : List Char) : Option (List Char) :=
  if text.contains ':' then some (text.reverse.takeWhile (· != ':')).reverse else none

def number? (text : List Char) : Option Nat :=
  if !text.isEmpty && text.all Char.isDigit then
    some (text.foldl (fun value digit => value * 10 + digitValue digit) 0)
  else none

/-- Is a comment no malformed note on where a line comes from? -/
def soundLineNote (lineStart : Bool) (comment : List Char) : Bool :=
  let note? := match comment with
    | '/' :: '/' :: 'l' :: 'i' :: 'n' :: 'e' :: ' ' :: text => if lineStart then some text else none
    | '/' :: '*' :: 'l' :: 'i' :: 'n' :: 'e' :: ' ' :: text => some (text.dropLast.dropLast)
    | _ => none
  match note? with
  | none => true
  | some text =>
    match behindColon? text with
    | none => true
    | some last =>
      let limit := 1073741824
      let sound (number : Nat) := 0 < number && number ≤ limit
      match number? last with
      | none => false
      | some number =>
        match (behindColon? (text.take (text.length - last.length - 1))).bind number? with
        | some line => sound number && sound line
        | none => sound number

/-! ## Tokens -/

/-- Is a character one that may not stand in source at all? -/
def isForbidden (character : Char) : Bool :=
  character.toNat = 0 || character.toNat = 0xfeff

def token? (lineStart : Bool) (characters : List Char) : Option (Token × List Char) :=
  match characters with
  | [] => none
  | first :: rest =>
    let pointed := first = '.' && (rest.head?.map Char.isDigit).getD false
    if Text.isWordStart first then
      let taken := characters.takeWhile Text.isWordRest
      let name := String.ofList taken
      some (match Keyword.named? name with
        | some keyword => .keyword keyword
        | none => .name name, taken)
    else if first.isDigit || pointed then do
      let (kind, taken) ← Numeral.read characters
      return (.literal kind (String.ofList taken), taken)
    else if first = '"' then do
      let (taken, _) ← quoted? '"' (rest.length + 1) rest
      return (.literal .text (String.ofList ('"' :: taken)), '"' :: taken)
    else if first = '\'' then do
      let (taken, count) ← quoted? '\'' (rest.length + 1) rest
      if count = 1 then
        return (.literal .character (String.ofList ('\'' :: taken)), '\'' :: taken)
      else none
    else if first = rawQuote then
      let content := rest.takeWhile (· != rawQuote)
      if content.length < rest.length then
        let kept := content.filter (· != '\r')
        some (.literal .text (String.ofList (rawQuote :: kept ++ [rawQuote])),
          rawQuote :: content ++ [rawQuote])
      else none
    else match characters with
      | '/' :: '/' :: _ =>
        let taken := characters.takeWhile (· != '\n')
        let text := if taken.getLast? = some '\r' then taken.dropLast else taken
        if soundLineNote lineStart text then
          some (.comment (String.ofList (withoutReturns false 0 none text)), taken)
        else none
      | '/' :: '*' :: behind => do
        let taken := '/' :: '*' :: (← enclosed? behind)
        if soundLineNote true taken then
          return (.comment (String.ofList (withoutReturns true 0 none taken)), taken)
        else none
      | _ =>
        (Symbol.spellings.find? fun (spelling, _) => spelling.isPrefixOf characters).map
          fun (spelling, symbol) => (.symbol symbol, spelling)

def firstLineEnd? (place : Place) : List Char → Option Place
  | [] => none
  | '\n' :: _ => some place
  | character :: rest => firstLineEnd? (place.past character) rest

/-- Cut a text into tokens, behind those that are given last first. `pending` tells
whether a line end would end a statement. -/
def lexemes? (found : List Lexeme) (pending lineStart : Bool) (place : Place) :
    Nat → List Char → Option (List Lexeme)
  | 0, _ => none
  | _, [] =>
    let found := if pending then ⟨.lineEnd, place, place.line⟩ :: found else found
    some (⟨.finish, place, place.line⟩ :: found).reverse
  | fuel + 1, character :: rest =>
    if character = '\n' then
      let found := if pending then ⟨.lineEnd, place, place.line⟩ :: found else found
      lexemes? found false true (place.past character) fuel rest
    else if character = ' ' || character = '\t' || character = '\r' then
      lexemes? found pending false (place.past character) fuel rest
    else do
      let (token, taken) ← token? lineStart (character :: rest)
      if taken.any isForbidden then none
      else
        let after := taken.foldl Place.past place
        let lexeme : Lexeme := ⟨token, place, after.line⟩
        let behind := (character :: rest).drop taken.length
        match token, firstLineEnd? place taken with
        | .comment _, some lineEnd =>
          let found := lexeme :: found
          let found := if pending then ⟨.lineEnd, lineEnd, lineEnd.line⟩ :: found else found
          lexemes? found false false after fuel behind
        | .comment _, none => lexemes? (lexeme :: found) pending false after fuel behind
        | _, _ => lexemes? (lexeme :: found) token.endsStatement false after fuel behind

def run (text : String) : Option (List Lexeme) :=
  let characters := text.toList
  lexemes? [] false true .start (characters.length + 1) characters

end StateTables.Format.Lexer
