/-! # White space

The characters of the Unicode property White_Space, and trimming by it.
-/

namespace StateTables.Text

def isBlank (character : Char) : Bool :=
  let code := character.toNat
  (0x09 ≤ code && code ≤ 0x0d) || code == 0x20 || code == 0x85 || code == 0xa0 ||
    code == 0x1680 || (0x2000 ≤ code && code ≤ 0x200a) || code == 0x2028 ||
    code == 0x2029 || code == 0x202f || code == 0x205f || code == 0x3000

def trimBlanks (characters : List Char) : List Char :=
  ((characters.dropWhile isBlank).reverse.dropWhile isBlank).reverse

def trim (text : String) : String :=
  String.ofList (trimBlanks text.toList)

/-- Split at the first occurrence of a character, which is dropped. Without
one the second part is empty. -/
def cut (separator : Char) (text : String) : String × String :=
  let characters := text.toList
  (String.ofList (characters.takeWhile (· != separator)),
    String.ofList ((characters.dropWhile (· != separator)).drop 1))

end StateTables.Text
