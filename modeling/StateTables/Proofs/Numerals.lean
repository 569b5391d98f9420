import Mathlib.Data.List.Forall2
import Mathlib.Tactic.IntervalCases
import StateTables.Literal.Integer

/-! # Integer literals

A literal is digits of the base its marks announce, with single underscores between digits or behind
the marks, and perhaps a sign. Reading one gives the number it denotes if the number has 64 bits;
whatever the digits are, a literal beyond that is too large and nothing else.
-/

namespace StateTables.Literal.Integer

/-! ## Notation -/

/-- The character stands for the digit; letters do so in either case. -/
structure Digit (base : Nat) (character : Char) (digit : Nat) : Prop where
  small : digit < base
  written : character.toLower = digit.digitChar

/-- Digits with single underscores between them, and their values. -/
inductive Digits (base : Nat) : List Char → List Nat → Prop where
  | last {character : Char} {digit : Nat} : Digit base character digit →
      Digits base [character] [digit]
  | next {character : Char} {digit : Nat} {characters : List Char} {digits : List Nat} :
      Digit base character digit → Digits base characters digits →
      Digits base (character :: characters) (digit :: digits)
  | spaced {character : Char} {digit : Nat} {characters : List Char} {digits : List Nat} :
      Digit base character digit → Digits base characters digits →
      Digits base (character :: '_' :: characters) (digit :: digits)

def continued (base number : Nat) (digits : List Nat) : Nat :=
  digits.foldl (fun number digit => number * base + digit) number

/-- What announces a base. -/
inductive BaseMark : List Char → Nat → Prop where
  | binary {mark : Char} : mark.toLower = 'b' → BaseMark ['0', mark] 2
  | octal {mark : Char} : mark.toLower = 'o' → BaseMark ['0', mark] 8
  | hexadecimal {mark : Char} : mark.toLower = 'x' → BaseMark ['0', mark] 16
  | zero : BaseMark ['0'] 8

inductive Unsigned : List Char → Nat → Prop where
  | zero : Unsigned ['0'] 0
  | decimal {characters : List Char} {digits : List Nat} : characters.head? ≠ some '0' →
      Digits 10 characters digits → Unsigned characters (continued 10 0 digits)
  | based {mark gap characters : List Char} {base : Nat} {digits : List Nat} :
      BaseMark mark base → gap = [] ∨ gap = ['_'] → Digits base characters digits →
      Unsigned (mark ++ (gap ++ characters)) (continued base 0 digits)

inductive Signed : List Char → Int → Prop where
  | bare {characters : List Char} {number : Nat} :
      Unsigned characters number → Signed characters number
  | plus {characters : List Char} {number : Nat} :
      Unsigned characters number → Signed ('+' :: characters) number
  | minus {characters : List Char} {number : Nat} :
      Unsigned characters number → Signed ('-' :: characters) (-number)

/-! ## Digits -/

theorem toNat_toLower (character : Char) :
    character.toLower.toNat = if 65 ≤ character.toNat ∧ character.toNat ≤ 90 then
      character.toNat + 32 else character.toNat := by
  have upper : (character.val ≥ 'A'.val ∧ character.val ≤ 'Z'.val) ↔
      65 ≤ character.toNat ∧ character.toNat ≤ 90 := by
    simp only [ge_iff_le, UInt32.le_iff_toNat_le]
    rfl
  unfold Char.toLower
  by_cases capital : 65 ≤ character.toNat ∧ character.toNat ≤ 90
  · rw [dif_pos (upper.mpr capital), if_pos capital]
    change (character.val + ('a'.val - 'A'.val)).toNat = character.val.toNat + 32
    have bound : character.val.toNat ≤ 90 := capital.2
    rw [UInt32.toNat_add]
    change (character.val.toNat + 32) % 2 ^ 32 = _
    omega
  · rw [dif_neg (mt upper.mp capital), if_neg capital]

variable {base digit : Nat} {character : Char} {characters : List Char} {digits : List Nat}

theorem toNat_digitChar_of_letter (letter : 10 ≤ digit) (small : digit < 16) :
    digit.digitChar.toNat = 87 + digit := by
  interval_cases digit <;> rfl

theorem Digit.code (stands : Digit base character digit) (small : base ≤ 16) :
    digit < 10 ∧ character.toNat = 48 + digit ∨
      10 ≤ digit ∧ digit < 16 ∧ (character.toNat = 87 + digit ∨ character.toNat = 55 + digit) := by
  have code := toNat_toLower character
  have bound := Nat.lt_of_lt_of_le stands.small small
  rw [stands.written] at code
  by_cases decimal : digit < 10
  · rw [Nat.toNat_digitChar_of_lt_ten decimal] at code
    split at code <;> omega
  · rw [toNat_digitChar_of_letter (Nat.not_lt.mp decimal) bound] at code
    split at code <;> omega

theorem Digit.of_code (small : digit < base)
    (code : digit < 10 ∧ character.toNat = 48 + digit ∨
      10 ≤ digit ∧ digit < 16 ∧ (character.toNat = 87 + digit ∨ character.toNat = 55 + digit)) :
    Digit base character digit := by
  refine ⟨small, Char.toNat_inj.mp ?_⟩
  rw [toNat_toLower]
  rcases code with ⟨decimal, code⟩ | ⟨letter, bound, code⟩
  · rw [Nat.toNat_digitChar_of_lt_ten decimal, if_neg (by omega), code]
  · rw [toNat_digitChar_of_letter letter bound]
    split <;> omega

theorem isDigit_iff (character : Char) :
    character.isDigit = true ↔ 48 ≤ character.toNat ∧ character.toNat ≤ 57 :=
  Char.isDigit_iff_toNat

theorem Digit.isDigit (stands : Digit base character digit) (small : base ≤ 10) :
    character.isDigit = true := by
  have code := stands.code (Nat.le_trans small (by decide))
  have bound := stands.small
  rw [isDigit_iff]
  omega

theorem digitValue?_of_digit (stands : Digit base character digit) (small : base ≤ 16) :
    digitValue? character = some digit := by
  unfold digitValue?
  rcases stands.code small with ⟨decimal, code⟩ | ⟨letter, bound, code⟩
  · rw [if_pos ((isDigit_iff character).mpr (by omega)), code]
    exact congrArg some (by omega : 48 + digit - 48 = digit)
  · have notDigit : ¬character.isDigit = true := by
      rw [isDigit_iff]
      omega
    have alphabetic : character.isAlpha = true := by
      change (decide (character.val ≥ 'A'.val ∧ character.val ≤ 'Z'.val) ||
        decide (character.val ≥ 'a'.val) && decide (character.val ≤ 'z'.val)) = true
      simp only [ge_iff_le, UInt32.le_iff_toNat_le, Bool.or_eq_true, Bool.and_eq_true,
        decide_eq_true_eq]
      change (65 ≤ character.toNat ∧ character.toNat ≤ 90) ∨
        (97 ≤ character.toNat ∧ character.toNat ≤ 122)
      omega
    have lower := toNat_toLower character
    rw [if_neg notDigit, if_pos alphabetic]
    refine congrArg some (?_ : character.toLower.toNat - 97 + 10 = digit)
    split at lower <;> omega

theorem Digit.ne_underscore (stands : Digit base character digit) (small : base ≤ 16) :
    character ≠ '_' := by
  rintro rfl
  have code := stands.code small
  change _ ∧ 95 = _ ∨ _ ∧ _ ∧ (95 = _ ∨ 95 = _) at code
  omega

theorem le_continued (positive : 0 < base) (number : Nat) (digits : List Nat) :
    number ≤ continued base number digits := by
  induction digits generalizing number with
  | nil => exact Nat.le_refl number
  | cons digit digits induction =>
      have further := induction (number * base + digit)
      have grown := Nat.le_mul_of_pos_right number positive
      change number ≤ continued base (number * base + digit) digits
      omega

theorem accumulate_cons (stands : Digit base character digit) (small : base ≤ 16)
    (underscores : Bool) (number : Nat) (rest : List Char) :
    accumulate base underscores number (character :: rest) =
      if limit < number * base + digit then .error .tooLarge
      else accumulate base underscores (number * base + digit) rest := by
  rw [accumulate]
  · rw [digitValue?_of_digit stands small]
    exact if_neg (Nat.not_le.mpr stands.small)
  · exact fun underscore => absurd underscore (stands.ne_underscore small)

theorem accumulate_underscore (base number : Nat) (rest : List Char) :
    accumulate base true number ('_' :: rest) = accumulate base true number rest :=
  rfl

def limited (number : Nat) : Except IntegerError Nat :=
  if number ≤ limit then .ok number else .error .tooLarge

/-- What is read so far only grows, so an excess that shows is an excess of the whole number. -/
theorem accumulate_cons_eq (stands : Digit base character digit) (small : base ≤ 16)
    (number : Nat) {underscores : Bool} {rest : List Char} {digits : List Nat}
    (behind : ∀ {number : Nat}, number ≤ limit →
      accumulate base underscores number rest = limited (continued base number digits)) :
    accumulate base underscores number (character :: rest) =
      limited (continued base number (digit :: digits)) := by
  have further := le_continued (Nat.zero_lt_of_lt stands.small) (number * base + digit) digits
  change _ = limited (continued base (number * base + digit) digits)
  rw [accumulate_cons stands small]
  split
  next excess => exact (if_neg (Nat.not_le.mpr (Nat.lt_of_lt_of_le excess further))).symm
  next room => exact behind (Nat.not_lt.mp room)

theorem accumulate_plain (written : List.Forall₂ (Digit base) characters digits) (small : base ≤ 16)
    (underscores : Bool) {number : Nat} (fits : number ≤ limit) :
    accumulate base underscores number characters = limited (continued base number digits) := by
  induction written generalizing number with
  | nil => exact (if_pos fits).symm
  | cons stands _ induction => exact accumulate_cons_eq stands small number induction

theorem accumulate_eq_limited (written : Digits base characters digits) (small : base ≤ 16)
    {number : Nat} (fits : number ≤ limit) :
    accumulate base true number characters = limited (continued base number digits) := by
  induction written generalizing number with
  | last stands => exact accumulate_cons_eq stands small number fun fits => (if_pos fits).symm
  | next stands _ induction => exact accumulate_cons_eq stands small number induction
  | spaced stands _ induction =>
      refine accumulate_cons_eq stands small number fun fits => ?_
      rw [accumulate_underscore]
      exact induction fits

/-! ## Underscores -/

theorem separated_cons (stands : Digit base character digit) (small : base ≤ 16)
    {hexadecimal : Bool} (letters : base ≤ 10 ∨ hexadecimal = true) (before : Before)
    (rest : List Char) :
    separated hexadecimal before (character :: rest) = separated hexadecimal .digit rest := by
  rw [separated, if_pos]
  have bound := stands.small
  rcases stands.code small with ⟨decimal, code⟩ | ⟨letter, _, code⟩
  · rw [(isDigit_iff character).mpr (by omega), Bool.true_or]
  · have lower := toNat_toLower character
    have range : 97 ≤ character.toLower.toNat ∧ character.toLower.toNat ≤ 102 := by
      split at lower <;> omega
    have hex : hexadecimal = true := letters.resolve_left (by omega)
    have inside : 'a' ≤ character.toLower ∧ character.toLower ≤ 'f' := by
      simp only [Char.le_def, UInt32.le_iff_toNat_le]
      exact range
    simp [hex, inside]

/-- Underscores between digits are well placed, whatever stands before the digits. -/
theorem separated_digits (written : Digits base characters digits) (small : base ≤ 16)
    {hexadecimal : Bool} (letters : base ≤ 10 ∨ hexadecimal = true) (before : Before) :
    separated hexadecimal before characters = true := by
  induction written generalizing before with
  | last stands =>
      rw [separated_cons stands small letters]
      rfl
  | next stands _ induction =>
      rw [separated_cons stands small letters]
      exact induction .digit
  | spaced stands _ induction =>
      rw [separated_cons stands small letters]
      simpa [separated] using induction .underscore

theorem separated_gap {gap : List Char} (single : gap = [] ∨ gap = ['_'])
    (written : Digits base characters digits) (small : base ≤ 16) {hexadecimal : Bool}
    (letters : base ≤ 10 ∨ hexadecimal = true) :
    separated hexadecimal .digit (gap ++ characters) = true := by
  rcases single with rfl | rfl
  · exact separated_digits written small letters .digit
  · simpa [separated] using separated_digits written small letters .underscore

/-! ## Announcements -/

theorem Digits.exists_cons (written : Digits base characters digits) :
    ∃ character rest digit, characters = character :: rest ∧ Digit base character digit := by
  cases written with
  | last stands => exact ⟨_, _, _, rfl, stands⟩
  | next stands => exact ⟨_, _, _, rfl, stands⟩
  | spaced stands => exact ⟨_, _, _, rfl, stands⟩

theorem unmarked_of_octal {gap : List Char} (single : gap = [] ∨ gap = ['_'])
    (written : Digits 8 characters digits) :
    ∃ first rest, gap ++ characters = first :: rest ∧ first.toLower ∉ ['b', 'o', 'x'] := by
  rcases single with rfl | rfl
  · rcases written.exists_cons with ⟨character, rest, digit, rfl, stands⟩
    refine ⟨character, rest, rfl, ?_⟩
    rw [stands.written]
    have small := stands.small
    interval_cases digit <;> decide
  · exact ⟨'_', characters, rfl, by decide⟩

theorem announcedBase_zero {first : Char} (unmarked : first.toLower ∉ ['b', 'o', 'x'])
    (rest : List Char) : announcedBase ('0' :: first :: rest) = (8, first :: rest) := by
  simp only [List.mem_cons, List.not_mem_nil, or_false, not_or] at unmarked
  cases rest with
  | nil => simp [announcedBase]
  | cons second rest =>
      unfold announcedBase
      split <;> simp_all

theorem announcedBase_of_ne_zero (leading : characters.head? ≠ some '0') :
    announcedBase characters = (10, characters) := by
  unfold announcedBase
  split
  next => simp at leading
  next => simp at leading
  next => rfl

/-- The base of a literal with marks is the announced one, and its digits stand behind them. -/
theorem announcedBase_mark {mark gap : List Char} (announces : BaseMark mark base)
    (single : gap = [] ∨ gap = ['_']) (written : Digits base characters digits) :
    announcedBase (mark ++ (gap ++ characters)) = (base, gap ++ characters) := by
  have someCharacter : ∃ first rest, gap ++ characters = first :: rest := by
    rcases written.exists_cons with ⟨character, rest, _, rfl, _⟩
    rcases single with rfl | rfl
    · exact ⟨character, rest, rfl⟩
    · exact ⟨'_', character :: rest, rfl⟩
  cases announces with
  | zero =>
      rcases unmarked_of_octal single written with ⟨first, rest, equal, unmarked⟩
      rw [equal]
      exact announcedBase_zero unmarked rest
  | _ marked =>
      rcases someCharacter with ⟨first, rest, equal⟩
      rw [equal]
      simp [announcedBase, marked]

theorem underscoresPlaced_mark {mark gap : List Char} (announces : BaseMark mark base)
    (small : base ≤ 16) (single : gap = [] ∨ gap = ['_'])
    (written : Digits base characters digits) :
    underscoresPlaced (mark ++ (gap ++ characters)) = true := by
  cases announces with
  | zero =>
      rcases unmarked_of_octal single written with ⟨first, rest, equal, unmarked⟩
      have zero : Digit 8 '0' 0 := ⟨by decide, by decide⟩
      have placed : separated false .nothing ('0' :: (gap ++ characters)) = true :=
        (separated_cons zero small (.inl (by decide)) .nothing _).trans
          (separated_gap single written small (.inl (by decide)))
      rw [equal] at placed ⊢
      exact (if_neg unmarked).trans placed
  | binary marked =>
      simpa [underscoresPlaced, marked] using
        separated_gap single written small (.inl (by decide))
  | octal marked =>
      simpa [underscoresPlaced, marked] using
        separated_gap single written small (.inl (by decide))
  | hexadecimal marked =>
      simpa [underscoresPlaced, marked] using separated_gap single written small (.inr rfl)

theorem underscoresPlaced_decimal (leading : characters.head? ≠ some '0')
    (written : Digits 10 characters digits) : underscoresPlaced characters = true := by
  have placed : separated false .nothing characters = true :=
    separated_digits written (by decide) (.inl (by decide)) .nothing
  rcases written.exists_cons with ⟨character, rest, digit, rfl, stands⟩
  have numeral := stands.isDigit (by decide)
  unfold underscoresPlaced
  split
  next minus =>
    rw [(List.cons.inj minus).1] at numeral
    exact absurd numeral (by decide)
  next plus =>
    rw [(List.cons.inj plus).1] at numeral
    exact absurd numeral (by decide)
  next =>
    dsimp only
    split
    next zero => simp [(List.cons.inj zero).1] at leading
    next => exact placed

/-! ## Reading -/

theorem readUnsigned_of_accumulate {behind : List Char} {number : Nat}
    (someCharacter : characters ≠ []) (announced : announcedBase characters = (base, behind))
    (accumulated : accumulate base true 0 behind = limited number)
    (placed : underscoresPlaced characters = true) : readUnsigned characters = limited number := by
  unfold readUnsigned
  split
  next => exact absurd rfl someCharacter
  next =>
    rw [announced]
    dsimp only
    rw [accumulated, placed, Bool.not_true, Bool.and_false]
    cases limited number <;> rfl

/-- A literal without a sign is read as its number, unless that has more than 64 bits. -/
theorem readUnsigned_eq_limited {number : Nat} (denotes : Unsigned characters number) :
    readUnsigned characters = limited number := by
  cases denotes with
  | zero => rfl
  | decimal leading written =>
      have someCharacter : characters ≠ [] := by
        rcases written.exists_cons with ⟨_, _, _, rfl, _⟩
        simp
      exact readUnsigned_of_accumulate someCharacter (announcedBase_of_ne_zero leading)
        (accumulate_eq_limited written (by decide) (Nat.zero_le _))
        (underscoresPlaced_decimal leading written)
  | @based mark gap digital base _ announces single written =>
      have small : base ≤ 16 := by cases announces <;> decide
      have someCharacter : mark ++ (gap ++ digital) ≠ [] := by cases announces <;> simp
      refine readUnsigned_of_accumulate someCharacter (announcedBase_mark announces single written)
        ?_ (underscoresPlaced_mark announces small single written)
      have accumulated := accumulate_eq_limited written small (Nat.zero_le limit)
      rcases single with rfl | rfl
      · exact accumulated
      · exact (accumulate_underscore ..).trans accumulated

theorem Unsigned.exists_cons {number : Nat} (denotes : Unsigned characters number) :
    ∃ first rest, characters = first :: rest ∧ first.isDigit = true := by
  cases denotes with
  | zero => exact ⟨'0', [], rfl, rfl⟩
  | decimal _ written =>
      rcases written.exists_cons with ⟨first, rest, _, rfl, stands⟩
      exact ⟨first, rest, rfl, stands.isDigit (by decide)⟩
  | based announces => cases announces <;> exact ⟨'0', _, rfl, rfl⟩

/-! ## Decimal notation -/

theorem digits_of_plain (written : List.Forall₂ (Digit base) characters digits)
    (someDigit : characters ≠ []) : Digits base characters digits := by
  induction written with
  | nil => exact absurd rfl someDigit
  | cons stands more induction =>
      cases more with
      | nil => exact .last stands
      | cons => exact .next stands (induction (by simp))

theorem digit_digitChar (small : digit < 10) : Digit 10 digit.digitChar digit := by
  refine ⟨small, ?_⟩
  interval_cases digit <;> decide

theorem exists_digits_toDigits (number : Nat) :
    ∃ digits, List.Forall₂ (Digit 10) (Nat.toDigits 10 number) digits ∧
      continued 10 0 digits = number := by
  induction number using Nat.strongRecOn with
  | ind number induction =>
      rw [Nat.toDigits_eq_if (by decide)]
      split
      next small => exact ⟨[number], .cons (digit_digitChar small) .nil, by simp [continued]⟩
      next =>
        rcases induction (number / 10) (by omega) with ⟨digits, written, value⟩
        have last := digit_digitChar (Nat.mod_lt number (by decide : 0 < 10))
        refine ⟨digits ++ [number % 10], List.rel_append written (.cons last .nil), ?_⟩
        unfold continued at value ⊢
        rw [List.foldl_append, value]
        change number / 10 * 10 + number % 10 = number
        omega

theorem head?_toDigits {number : Nat} (positive : 0 < number) :
    (Nat.toDigits 10 number).head? ≠ some '0' := by
  induction number using Nat.strongRecOn with
  | ind number induction =>
      rw [Nat.toDigits_eq_if (by decide)]
      split
      next =>
        intro zero
        exact absurd (Nat.digitChar_eq_zero.mp (Option.some.inj zero)) (by omega)
      next =>
        rw [List.head?_append, List.head?_eq_some_head Nat.toDigits_ne_nil, Option.some_or,
          ← List.head?_eq_some_head Nat.toDigits_ne_nil]
        exact induction (number / 10) (by omega) (by omega)

theorem unsigned_toDigits (number : Nat) : Unsigned (Nat.toDigits 10 number) number := by
  rcases Nat.eq_zero_or_pos number with rfl | positive
  · exact .zero
  · rcases exists_digits_toDigits number with ⟨digits, written, value⟩
    have denotes := Unsigned.decimal (head?_toDigits positive)
      (digits_of_plain written Nat.toDigits_ne_nil)
    rwa [value] at denotes

theorem toList_toString (number : Int) :
    0 ≤ number ∧ (toString number).toList = Nat.toDigits 10 number.toNat ∨
      number < 0 ∧ (toString number).toList = '-' :: Nat.toDigits 10 (-number).toNat := by
  rw [Int.toString_eq_repr, Int.repr_eq_if]
  split
  next natural => exact .inl ⟨natural, Nat.toList_repr⟩
  next negative =>
    rw [String.toList_append, Nat.toList_repr]
    exact .inr ⟨Int.not_le.mp negative, rfl⟩

/-- The decimal notation of a number is a literal of the number. -/
theorem signed_toString (number : Int) : Signed (toString number).toList number := by
  rcases toList_toString number with ⟨natural, written⟩ | ⟨negative, written⟩
  · have denotes := Signed.bare (unsigned_toDigits number.toNat)
    rwa [Int.toNat_of_nonneg natural, ← written] at denotes
  · have denotes := Signed.minus (unsigned_toDigits (-number).toNat)
    rwa [Int.toNat_of_nonneg (by omega), Int.neg_neg, ← written] at denotes

end StateTables.Literal.Integer
