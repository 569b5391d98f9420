/-! # Comparison without regard to case

Simple case folding for words of ASCII letters: besides the two cases of each
letter, the long s folds to `s` and the Kelvin sign to `k`.
-/

namespace StateTables.Text

/-- The lower-case ASCII letter a character folds to, or the character itself. -/
def fold (character : Char) : Char :=
  match character.toNat with
  | 0x017f => 's'
  | 0x212a => 'k'
  | _ => character.toLower

def matchesWord (word text : String) : Bool :=
  word.toList.map fold == text.toList.map fold

end StateTables.Text
