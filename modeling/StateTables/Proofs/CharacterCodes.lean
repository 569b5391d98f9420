import StateTables.Literal.Character
import StateTables.Proofs.Numerals

/-! # Character literals

What may stand between quotes is a character that is neither the quote nor the backslash, or an
escape behind a backslash. Exactly these texts are read, each as the code it stands for.
-/

namespace StateTables.Literal.Character

open Integer (Digit continued)

/-! ## Notation -/

def letterCodes : List (Char × Nat) :=
  [('a', 0x07), ('b', 0x08), ('f', 0x0c), ('n', 0x0a), ('r', 0x0d), ('t', 0x09), ('v', 0x0b),
    ('\\', 0x5c), ('\'', 0x27)]

/-- What may stand behind a backslash, and the code it denotes. Numbers of four or eight digits name
code points. -/
inductive Escape : List Char → Nat → Prop where
  | letter {letter : Char} {code : Nat} : (letter, code) ∈ letterCodes → Escape [letter] code
  | octal {characters : List Char} {digits : List Nat} :
      List.Forall₂ (Digit 8) characters digits → digits.length = 3 → continued 8 0 digits ≤ 255 →
      Escape characters (continued 8 0 digits)
  | hexadecimal {characters : List Char} {digits : List Nat} :
      List.Forall₂ (Digit 16) characters digits → digits.length = 2 →
      Escape ('x' :: characters) (continued 16 0 digits)
  | codePoint {mark : Char} {characters : List Char} {digits : List Nat} :
      List.Forall₂ (Digit 16) characters digits →
      (mark, digits.length) ∈ [('u', 4), ('U', 8)] → (continued 16 0 digits).isValidChar →
      Escape (mark :: characters) (continued 16 0 digits)

/-- What may stand between quotes, and the code it denotes. -/
inductive Body : List Char → Nat → Prop where
  | bare {character : Char} : character ≠ '\'' → character ≠ '\\' →
      Body [character] character.toNat
  | escape {characters : List Char} {code : Nat} : Escape characters code →
      Body ('\\' :: characters) code

/-! ## Digits -/

theorem hexadecimalValue?_eq_some_iff {character : Char} {digit : Nat} :
    hexadecimalValue? character = some digit ↔ Digit 16 character digit := by
  have lower : ('a' ≤ character && character ≤ 'f') = true ↔
      97 ≤ character.toNat ∧ character.toNat ≤ 102 := by
    simp only [Bool.and_eq_true, decide_eq_true_eq, Char.le_def, UInt32.le_iff_toNat_le]
    rfl
  have upper : ('A' ≤ character && character ≤ 'F') = true ↔
      65 ≤ character.toNat ∧ character.toNat ≤ 70 := by
    simp only [Bool.and_eq_true, decide_eq_true_eq, Char.le_def, UInt32.le_iff_toNat_le]
    rfl
  have zero : '0'.toNat = 48 ∧ 'a'.toNat = 97 ∧ 'A'.toNat = 65 := ⟨rfl, rfl, rfl⟩
  constructor
  · intro value
    simp only [hexadecimalValue?, Integer.isDigit_iff, lower, upper] at value
    refine .of_code ?_ ?_ <;> grind
  · intro stands
    have code := stands.code (Nat.le_refl _)
    simp only [hexadecimalValue?, Integer.isDigit_iff, lower, upper]
    grind

theorem octalValue?_eq_some_iff {character : Char} {digit : Nat} :
    octalValue? character = some digit ↔ Digit 8 character digit := by
  have range : ('0' ≤ character && character ≤ '7') = true ↔
      48 ≤ character.toNat ∧ character.toNat ≤ 55 := by
    simp only [Bool.and_eq_true, decide_eq_true_eq, Char.le_def, UInt32.le_iff_toNat_le]
    rfl
  have zero : '0'.toNat = 48 := rfl
  constructor
  · intro value
    simp only [octalValue?, range] at value
    refine .of_code ?_ ?_ <;> grind
  · intro stands
    have small := stands.small
    have code := stands.code (by decide)
    simp only [octalValue?, range]
    grind

variable {base : Nat} {digit? : Char → Option Nat}

/-- As many digits are read as asked for, and what is behind them is left. -/
theorem readDigits_eq_some_iff
    (stands : ∀ {character digit}, digit? character = some digit ↔ Digit base character digit)
    {count value number : Nat} {text rest : List Char} :
    readDigits base digit? count value text = some (number, rest) ↔
      ∃ characters digits, text = characters ++ rest ∧
        List.Forall₂ (Digit base) characters digits ∧ digits.length = count ∧
          number = continued base value digits := by
  induction count generalizing value text with
  | zero =>
      rw [readDigits]
      constructor
      · rintro ⟨⟩
        exact ⟨[], [], rfl, .nil, rfl, rfl⟩
      · rintro ⟨characters, digits, rfl, written, noDigits, rfl⟩
        obtain rfl := List.length_eq_zero_iff.mp noDigits
        cases written
        rfl
  | succ count induction =>
      constructor
      · intro read
        cases text with
        | nil => cases read
        | cons character text =>
            rw [readDigits] at read
            split at read
            next digit found =>
              rcases induction.mp read with ⟨characters, digits, rfl, written, length, rfl⟩
              exact ⟨character :: characters, digit :: digits, rfl,
                .cons (stands.mp found) written, congrArg (· + 1) length, rfl⟩
            next => cases read
      · rintro ⟨characters, digits, rfl, written, length, rfl⟩
        cases written with
        | nil => cases length
        | @cons character digit characters digits first written =>
            rw [List.cons_append, readDigits, stands.mpr first]
            exact induction.mpr ⟨characters, digits, rfl, written, Nat.succ.inj length, rfl⟩

theorem filter_readDigits_eq_some_iff
    (stands : ∀ {character digit}, digit? character = some digit ↔ Digit base character digit)
    (passes : Nat → Prop) [DecidablePred passes] {count number : Nat} {text rest : List Char} :
    (readDigits base digit? count 0 text).filter (fun found => passes found.1) =
        some (number, rest) ↔
      ∃ characters digits, text = characters ++ rest ∧
        List.Forall₂ (Digit base) characters digits ∧ digits.length = count ∧
          number = continued base 0 digits ∧ passes number := by
  rw [Option.filter_eq_some_iff, decide_eq_true_eq, readDigits_eq_some_iff stands]
  constructor
  · rintro ⟨⟨characters, digits, split, written, length, value⟩, passed⟩
    exact ⟨characters, digits, split, written, length, value, passed⟩
  · rintro ⟨characters, digits, split, written, length, value, passed⟩
    exact ⟨⟨characters, digits, split, written, length, value⟩, passed⟩

/-! ## Escapes -/

theorem escape_of_readEscape {text rest : List Char} {code : Nat}
    (read : readEscape text = some (code, rest)) :
    ∃ characters, text = characters ++ rest ∧ Escape characters code := by
  unfold readEscape at read
  split at read
  next => cases read
  next letter behind =>
    split at read
    case h_10 =>
      rcases (readDigits_eq_some_iff hexadecimalValue?_eq_some_iff).mp read with
        ⟨characters, digits, rfl, written, length, rfl⟩
      exact ⟨'x' :: characters, rfl, .hexadecimal written length⟩
    case h_11 =>
      rcases (filter_readDigits_eq_some_iff hexadecimalValue?_eq_some_iff
        Nat.isValidChar).mp read with ⟨characters, digits, rfl, written, length, rfl, valid⟩
      exact ⟨'u' :: characters, rfl, .codePoint written (by simp [length]) valid⟩
    case h_12 =>
      rcases (filter_readDigits_eq_some_iff hexadecimalValue?_eq_some_iff
        Nat.isValidChar).mp read with ⟨characters, digits, rfl, written, length, rfl, valid⟩
      exact ⟨'U' :: characters, rfl, .codePoint written (by simp [length]) valid⟩
    case h_13 =>
      split at read
      next =>
        rcases (filter_readDigits_eq_some_iff octalValue?_eq_some_iff (· ≤ 255)).mp read with
          ⟨characters, digits, split, written, length, rfl, small⟩
        exact ⟨characters, split, .octal written length small⟩
      next => cases read
    all_goals
      cases read
      exact ⟨[_], rfl, .letter (by decide)⟩

theorem readEscape_octal {first : Char} {digit : Nat} (stands : Digit 8 first digit)
    (rest : List Char) :
    readEscape (first :: rest) =
      (readDigits 8 octalValue? 3 0 (first :: rest)).filter (·.1 ≤ 255) := by
  have value := octalValue?_eq_some_iff.mpr stands
  have bound := stands.small
  have same : first = Char.ofNat (48 + digit) := by
    rcases stands.code (by decide) with ⟨_, code⟩ | ⟨letter, _⟩
    · rw [← code, Char.ofNat_toNat]
    · omega
  have numeric : readEscape (first :: rest) = if (octalValue? first).isSome then
      (readDigits 8 octalValue? 3 0 (first :: rest)).filter (·.1 ≤ 255) else none := by
    rw [same]
    interval_cases digit <;> rfl
  rw [numeric, value, Option.isSome_some, if_pos rfl]

theorem Escape.read {characters : List Char} {code : Nat} (escape : Escape characters code)
    (rest : List Char) : readEscape (characters ++ rest) = some (code, rest) := by
  cases escape with
  | letter listed =>
      simp only [letterCodes, List.mem_cons, Prod.mk.injEq, List.not_mem_nil, or_false] at listed
      rcases listed with ⟨rfl, rfl⟩ | ⟨rfl, rfl⟩ | ⟨rfl, rfl⟩ | ⟨rfl, rfl⟩ | ⟨rfl, rfl⟩ |
        ⟨rfl, rfl⟩ | ⟨rfl, rfl⟩ | ⟨rfl, rfl⟩ | ⟨rfl, rfl⟩ <;> rfl
  | hexadecimal written length =>
      exact (readDigits_eq_some_iff hexadecimalValue?_eq_some_iff).mpr
        ⟨_, _, rfl, written, length, rfl⟩
  | codePoint written listed valid =>
      have read := (filter_readDigits_eq_some_iff hexadecimalValue?_eq_some_iff Nat.isValidChar).mpr
        ⟨_, _, (rfl : _ ++ rest = _), written, rfl, rfl, valid⟩
      simp only [List.mem_cons, Prod.mk.injEq, List.not_mem_nil, or_false] at listed
      rcases listed with ⟨rfl, length⟩ | ⟨rfl, length⟩
      · rwa [length] at read
      · rwa [length] at read
  | octal written length small =>
      cases written with
      | nil => cases length
      | cons first written =>
          rw [List.cons_append, readEscape_octal first]
          exact (filter_readDigits_eq_some_iff octalValue?_eq_some_iff (· ≤ 255)).mpr
            ⟨_, _, rfl, .cons first written, length, rfl, small⟩

/-- What may stand between quotes is read as its code, and nothing else is read. -/
theorem code?_eq_some_iff {characters : List Char} {code : Nat} :
    code? characters = some code ↔ Body characters code := by
  constructor
  · intro read
    unfold code? at read
    split at read
    next found =>
      cases read
      unfold readOne at found
      split at found
      next => cases found
      next => cases found
      next escaped =>
        rcases escape_of_readEscape found with ⟨characters, rfl, escape⟩
        rw [List.append_nil]
        exact .escape escape
      next character rest notQuote notBackslash =>
        cases found
        exact .bare notQuote notBackslash
    next => cases read
  · intro body
    unfold code?
    cases body with
    | bare notQuote notBackslash =>
        rw [readOne]
        · exact notQuote
        · exact notBackslash
    | escape escape =>
        have read := escape.read []
        rw [List.append_nil] at read
        rw [readOne, read]

/-! ## Spelling -/

theorem ascii_of_digits {characters : List Char} {digits : List Nat} (small : base ≤ 16)
    (written : List.Forall₂ (Digit base) characters digits) :
    ∀ character ∈ characters, character ≠ '\'' ∧ character.toNat < 128 := by
  induction written with
  | nil => simp
  | cons first _ induction =>
      have code := first.code small
      rw [List.forall_mem_cons]
      refine ⟨⟨?_, by omega⟩, induction⟩
      rintro rfl
      simp at code
      omega

theorem Escape.ascii {characters : List Char} {code : Nat} (escape : Escape characters code) :
    characters = ['\''] ∨ ∀ character ∈ characters, character ≠ '\'' ∧ character.toNat < 128 := by
  cases escape with
  | letter listed =>
      simp only [letterCodes, List.mem_cons, Prod.mk.injEq, List.not_mem_nil, or_false] at listed
      rcases listed with ⟨rfl, _⟩ | ⟨rfl, _⟩ | ⟨rfl, _⟩ | ⟨rfl, _⟩ | ⟨rfl, _⟩ | ⟨rfl, _⟩ |
        ⟨rfl, _⟩ | ⟨rfl, _⟩ | ⟨rfl, _⟩ <;> simp
  | octal written => exact .inr (ascii_of_digits (by decide) written)
  | hexadecimal written =>
      exact .inr (List.forall_mem_cons.mpr ⟨by decide, ascii_of_digits (by decide) written⟩)
  | codePoint written listed =>
      simp only [List.mem_cons, Prod.mk.injEq, List.not_mem_nil, or_false] at listed
      refine .inr (List.forall_mem_cons.mpr ⟨?_, ascii_of_digits (by decide) written⟩)
      rcases listed with ⟨rfl, _⟩ | ⟨rfl, _⟩ <;> decide

theorem Escape.ne_nil {characters : List Char} {code : Nat} (escape : Escape characters code) :
    characters ≠ [] := by
  cases escape with
  | octal written length =>
      rintro rfl
      cases written
      cases length
  | _ => simp

end StateTables.Literal.Character
