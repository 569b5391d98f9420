import StateTables.Proofs.Numerals
import StateTables.Proofs.StorageWidths
import StateTables.Table.Literal

/-! # Numbers in decimal notation

Reading a number in decimal notation gives the number back, as long as it has 64 bits: without a
sign for unsigned types, with one for signed types. A pattern in the decimal notation of a type is
therefore found again, whatever the type.
-/

namespace StateTables

namespace Literal.Integer

theorem isDigit_of_mem_toDigits {number : Nat} {character : Char}
    (member : character ∈ Nat.toDigits 10 number) : character.isDigit = true :=
  Nat.isDigit_of_mem_toDigits (by decide) (by decide) member

theorem readUnsignedDecimal_toDigits {number : Nat} (fits : number ≤ limit) :
    readUnsignedDecimal (Nat.toDigits 10 number) = .ok number := by
  rcases exists_digits_toDigits number with ⟨digits, written, value⟩
  have read := accumulate_plain written (by decide) false (Nat.zero_le _)
  rw [value, limited, if_pos fits] at read
  unfold readUnsignedDecimal
  split
  next missing => exact absurd missing Nat.toDigits_ne_nil
  next => exact read

theorem readSigned_toDigits (reader : List Char → Except IntegerError Nat) (number : Nat) :
    readSigned reader (Nat.toDigits 10 number) =
      applySign false (reader (Nat.toDigits 10 number)) := by
  unfold readSigned
  split
  next rest minus =>
    have digit : '-'.isDigit = true := isDigit_of_mem_toDigits (minus ▸ List.mem_cons_self)
    exact absurd digit (by decide)
  next rest plus =>
    have digit : '+'.isDigit = true := isDigit_of_mem_toDigits (plus ▸ List.mem_cons_self)
    exact absurd digit (by decide)
  next => rfl

theorem readSigned_toString {number : Int} (lower : -2 ^ 63 ≤ number) (upper : number < 2 ^ 63) :
    readSigned readUnsignedDecimal (toString number).toList = .ok number := by
  have limit_eq : limit = 2 ^ 64 - 1 := rfl
  rcases toList_toString number with ⟨natural, written⟩ | ⟨negative, written⟩
  · have fits : number.toNat < Nat.pow 2 63 := by
      change number.toNat < 2 ^ 63
      omega
    rw [written, readSigned_toDigits, readUnsignedDecimal_toDigits (by omega)]
    simp only [applySign, Bool.false_eq_true, if_false, if_neg (Nat.not_le.mpr fits),
      Int.toNat_of_nonneg natural]
  · have fits : (-number).toNat ≤ Nat.pow 2 63 := by
      change (-number).toNat ≤ 2 ^ 63
      omega
    rw [written]
    change applySign true (readUnsignedDecimal (Nat.toDigits 10 (-number).toNat)) = .ok number
    rw [readUnsignedDecimal_toDigits (by omega)]
    simp only [applySign, if_true, if_neg (Nat.not_lt.mpr fits),
      Int.toNat_of_nonneg (Int.neg_nonneg_of_nonpos (Int.le_of_lt negative)), Int.neg_neg]

end Literal.Integer

/-! ## Patterns in the notation of a type -/

def isNumeral (character : Char) : Bool :=
  character.isDigit || character == '-'

namespace IntegerType

theorem numeral_of_mem_decimal {type : IntegerType} {pattern : Int64} {character : Char}
    (member : character ∈ (type.decimal pattern).toList) : isNumeral character = true := by
  have digital : ∀ number : Nat, character ∈ Nat.toDigits 10 number → isNumeral character = true :=
    fun number inside => by simp [isNumeral, Literal.Integer.isDigit_of_mem_toDigits inside]
  rcases Literal.Integer.toList_toString (type.value pattern) with ⟨_, written⟩ | ⟨_, written⟩
  · exact digital _ (written ▸ member)
  · rw [decimal, written] at member
    rcases List.mem_cons.mp member with rfl | inside
    · rfl
    · exact digital _ inside

theorem decimal_ne_nil (type : IntegerType) (pattern : Int64) :
    (type.decimal pattern).toList ≠ [] := by
  rcases Literal.Integer.toList_toString (type.value pattern) with ⟨_, written⟩ | ⟨_, written⟩
  · exact written ▸ Nat.toDigits_ne_nil
  · rw [decimal, written]
    exact List.cons_ne_nil _ _

end IntegerType

namespace Column

/-- A value of a literal is read back, since it is written as the number it stands for. -/
theorem readValue_decimal (type : IntegerType) (pattern : Int64) :
    readValue type (type.decimal pattern).toList = .ok pattern := by
  have number : (if type.signed then
        Literal.Integer.readSigned Literal.Integer.readUnsignedDecimal
          (type.decimal pattern).toList
      else (Literal.Integer.readUnsignedDecimal (type.decimal pattern).toList).map Int.ofNat) =
      .ok (type.value pattern) := by
    unfold IntegerType.decimal IntegerType.value
    by_cases signed : type.signed = true
    · rw [if_pos signed, if_pos signed]
      exact Literal.Integer.readSigned_toString pattern.le_toInt pattern.toInt_lt
    · have bound := pattern.toUInt64.toNat_lt
      have fits : pattern.toUInt64.toNat ≤ Literal.Integer.limit :=
        Nat.le_sub_one_of_lt bound
      rw [if_neg signed, if_neg signed, Int.toString_eq_repr, Int.repr_eq_if,
        if_pos (Int.natCast_nonneg _), Int.toNat_natCast, Nat.toList_repr,
        Literal.Integer.readUnsignedDecimal_toDigits fits]
      rfl
  unfold readValue
  dsimp only
  rw [number]
  exact congrArg Except.ok (type.ofInt_value pattern)

end Column

end StateTables
