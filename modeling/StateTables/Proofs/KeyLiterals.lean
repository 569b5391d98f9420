import StateTables.Alphabet.Literal
import StateTables.Proofs.CharacterCodes
import StateTables.Proofs.RoundTrip

/-! # Key literals are read exactly

A key literal denotes a number: an integer of any size, or the code of a quoted character. Reading
gives the key of the number if the integer type has it, and else the nearest key of the type with an
overflow. Literals of more than 64 bits take a way of their own, but lie outside of every type.
-/

namespace StateTables

/-- The key literals and the numbers they denote. -/
inductive KeyLiteral : List Char → Int → Prop where
  | number {characters : List Char} {number : Int} :
      Literal.Integer.Signed characters number → KeyLiteral characters number
  | character {body : List Char} {code : Nat} :
      Literal.Character.Body body code → KeyLiteral ('\'' :: (body ++ ['\''])) code

namespace IntegerType

theorem least_ge (type : IntegerType) : -2 ^ 63 ≤ type.least := by
  rcases type with ⟨signed, width⟩
  cases signed <;> cases width <;> decide

theorem greatest_le (type : IntegerType) : type.greatest ≤ Literal.Integer.limit := by
  rcases type with ⟨signed, width⟩
  cases signed <;> cases width <;> decide

end IntegerType

namespace Alphabet

variable (alphabet : Alphabet) {number : Nat} {characters : List Char}

/-! ## The three ways of reading -/

theorem readPositive_eq (denotes : Literal.Integer.Unsigned characters number) (literal : String) :
    alphabet.readPositive literal characters = alphabet.keyOf literal number := by
  have most := alphabet.host.greatest_le
  have ordered := alphabet.host.least_le_greatest
  unfold readPositive
  rw [Literal.Integer.readUnsigned_eq_limited denotes, Literal.Integer.limited]
  by_cases fits : number ≤ Literal.Integer.limit
  · rw [if_pos fits]
  · rw [if_neg fits, keyOf, if_neg (by omega), if_pos (by omega)]

theorem readNegative_eq (denotes : Literal.Integer.Unsigned characters number) (literal : String) :
    alphabet.readNegative literal ('-' :: characters) = alphabet.keyOf literal (-number) := by
  have least := alphabet.host.least_ge
  have limit : Literal.Integer.limit = 2 ^ 64 - 1 := rfl
  have below : 2 ^ 63 < number → alphabet.keyOf literal (-number) =
      .error (.overflow literal alphabet.host (.ofInt alphabet.host.least)) := fun beyond =>
    if_pos (by omega)
  unfold readNegative
  rw [Literal.Integer.readSigned, Literal.Integer.readUnsigned_eq_limited denotes,
    Literal.Integer.limited]
  by_cases fits : number ≤ Literal.Integer.limit
  · rw [if_pos fits, Literal.Integer.applySign, if_pos rfl]
    by_cases beyond : Nat.pow 2 63 < number
    · rw [if_pos beyond, below beyond]
    · rw [if_neg beyond]
  · rw [if_neg fits, Literal.Integer.applySign, below (by omega)]

theorem readCharacter_eq (denotes : Literal.Character.Body characters number) (literal : String) :
    alphabet.readCharacter literal ('\'' :: (characters ++ ['\''])) =
      alphabet.keyOf literal number := by
  have someCharacter : 0 < characters.length := by cases denotes <;> simp
  have closed : ('\'' :: (characters ++ ['\''])).getLast? = some '\'' :=
    List.getLast?_concat (l := '\'' :: characters)
  have inside : (('\'' :: (characters ++ ['\''])).drop 1).dropLast = characters := by simp
  have long : ¬('\'' :: (characters ++ ['\''])).length < 3 := by
    simp only [List.length_cons, List.length_append, List.length_nil]
    omega
  unfold readCharacter
  rw [closed, inside, Literal.Character.code?_eq_some_iff.mpr denotes, if_neg (by simpa using long)]

section Trimmed

variable {text : String} {first : Char} {rest : List Char}

theorem readKey_quote (literal : Text.trimBlanks text.toList = '\'' :: rest) :
    alphabet.readKey text = alphabet.readCharacter (Text.trim text) ('\'' :: rest) := by
  unfold readKey Text.trim
  rw [literal]
  rfl

theorem readKey_minus (literal : Text.trimBlanks text.toList = '-' :: rest) :
    alphabet.readKey text = alphabet.readNegative (Text.trim text) ('-' :: rest) := by
  unfold readKey Text.trim
  rw [literal]
  rfl

theorem readKey_plus (literal : Text.trimBlanks text.toList = '+' :: rest) :
    alphabet.readKey text = alphabet.readPositive (Text.trim text) rest := by
  unfold readKey Text.trim
  rw [literal]
  rfl

theorem readKey_digit (literal : Text.trimBlanks text.toList = first :: rest)
    (digit : first.isDigit = true) :
    alphabet.readKey text = alphabet.readPositive (Text.trim text) (first :: rest) := by
  unfold readKey Text.trim
  rw [literal]
  dsimp only
  split
  next empty => cases empty
  next quote =>
    rw [(List.cons.inj quote).1] at digit
    exact absurd digit (by decide)
  next minus =>
    rw [(List.cons.inj minus).1] at digit
    exact absurd digit (by decide)
  next plus =>
    rw [(List.cons.inj plus).1] at digit
    exact absurd digit (by decide)
  next => rfl

end Trimmed

/-- A literal is read as the key of the number it denotes. -/
theorem readKey_eq_keyOf {text : String} {number : Int}
    (literal : KeyLiteral (Text.trimBlanks text.toList) number) :
    alphabet.readKey text = alphabet.keyOf (Text.trim text) number := by
  generalize trimmed : Text.trimBlanks text.toList = characters at literal
  cases literal with
  | character body =>
      rw [alphabet.readKey_quote trimmed]
      exact alphabet.readCharacter_eq body _
  | number signed =>
      cases signed with
      | bare denotes =>
          rcases denotes.exists_cons with ⟨_, _, rfl, digit⟩
          rw [alphabet.readKey_digit trimmed digit]
          exact alphabet.readPositive_eq denotes _
      | plus denotes =>
          rw [alphabet.readKey_plus trimmed]
          exact alphabet.readPositive_eq denotes _
      | minus denotes =>
          rw [alphabet.readKey_minus trimmed]
          exact alphabet.readNegative_eq denotes _

/-! ## Keys of numbers -/

theorem keyOf_eq_ok {literal : String} {number : Int} (lower : alphabet.host.least ≤ number)
    (upper : number ≤ alphabet.host.greatest) :
    alphabet.keyOf literal number = .ok (.ofInt number) := by
  rw [keyOf, if_neg (Int.not_lt.mpr lower), if_neg (Int.not_lt.mpr upper)]

theorem value_ofInt {number : Int} (lower : alphabet.host.least ≤ number)
    (upper : number ≤ alphabet.host.greatest) : alphabet.value (.ofInt number) = number :=
  IntegerType.value_ofInt (IntegerType.represents_iff.mpr ⟨lower, upper⟩)

/-- The number as far as the integer type has it. -/
def clamp (number : Int) : Int :=
  max alphabet.host.least (min number alphabet.host.greatest)

theorem value_ofInt_clamp (number : Int) :
    alphabet.value (.ofInt (alphabet.clamp number)) = alphabet.clamp number := by
  have ordered := alphabet.host.least_le_greatest
  unfold clamp
  exact alphabet.value_ofInt (by omega) (by omega)

/-- A number outside of the type overflows to the key next to it. -/
theorem keyOf_eq_error {literal : String} {number : Int}
    (outside : ¬(alphabet.host.least ≤ number ∧ number ≤ alphabet.host.greatest)) :
    alphabet.keyOf literal number =
      .error (.overflow literal alphabet.host (.ofInt (alphabet.clamp number))) := by
  have ordered := alphabet.host.least_le_greatest
  unfold keyOf clamp
  by_cases below : number < alphabet.host.least
  · have clamped : max alphabet.host.least (min number alphabet.host.greatest) =
        alphabet.host.least := by omega
    rw [if_pos below, clamped]
  · have clamped : max alphabet.host.least (min number alphabet.host.greatest) =
        alphabet.host.greatest := by omega
    rw [if_neg below, if_pos (by omega), clamped]

theorem readKey_decimal {key : Key} (lower : alphabet.host.least ≤ alphabet.value key)
    (upper : alphabet.value key ≤ alphabet.host.greatest) :
    alphabet.readKey (alphabet.decimal key) = .ok key := by
  have visible : ∀ character ∈ (alphabet.decimal key).toList, Text.isBlank character = false :=
    Column.visible_decimal
  have trimmed : Text.trimBlanks (alphabet.decimal key).toList = (alphabet.decimal key).toList :=
    Text.trimBlanks_eq_self (fun _ member => visible _ (List.mem_of_mem_head? member))
      fun _ member => visible _ (List.mem_of_mem_getLast? member)
  have literal : KeyLiteral (Text.trimBlanks (alphabet.decimal key).toList)
      (alphabet.value key) := by
    rw [trimmed]
    exact .number (Literal.Integer.signed_toString _)
  rw [alphabet.readKey_eq_keyOf literal, alphabet.keyOf_eq_ok lower upper]
  exact congrArg Except.ok (congrArg Key.mk (alphabet.host.ofInt_value key.pattern))

/-- A key literal is read as the key of the number it denotes, limited to the integer type. It is an
overflow exactly if the type does not have the number. The decimal notation of a key is read as the
key. Literals are texts of characters. -/
theorem readKey_exact_and_clamped (alphabet : Alphabet) :
    (∀ text number, KeyLiteral (Text.trimBlanks text.toList) number →
      ∃ key, alphabet.value key =
          max alphabet.host.least (min number alphabet.host.greatest) ∧
        (alphabet.host.least ≤ number ∧ number ≤ alphabet.host.greatest →
          alphabet.readKey text = .ok key) ∧
        (¬(alphabet.host.least ≤ number ∧ number ≤ alphabet.host.greatest) →
          ∃ problem, alphabet.readKey text = .error problem ∧
            problem.failure.reasons = [.keyOverflow] ∧ problem.key = key)) ∧
    ∀ key, alphabet.host.least ≤ alphabet.value key →
      alphabet.value key ≤ alphabet.host.greatest →
      alphabet.readKey (alphabet.decimal key) = .ok key := by
  refine ⟨fun text number literal => ?_, fun key => alphabet.readKey_decimal⟩
  have read := alphabet.readKey_eq_keyOf literal
  refine ⟨.ofInt (alphabet.clamp number), alphabet.value_ofInt_clamp number, ?_, ?_⟩
  · rintro ⟨lower, upper⟩
    have inside : alphabet.clamp number = number := by
      unfold clamp
      omega
    rw [read, alphabet.keyOf_eq_ok lower upper, inside]
  · intro outside
    exact ⟨_, read.trans (alphabet.keyOf_eq_error outside), rfl, rfl⟩

/-- The literal of 256 overflows to the largest of the signed keys of one byte; the least of these
keys is read back. -/
theorem readKey_exact_and_clamped_sample :
    KeyLiteral (Text.trimBlanks " 0x1_00\n".toList) 256 ∧
    (∃ problem, (full ⟨true, .one⟩).readKey " 0x1_00\n" = .error problem ∧
      problem.failure.reasons = [.keyOverflow] ∧ (full ⟨true, .one⟩).value problem.key = 127) ∧
    (full ⟨true, .one⟩).readKey ((full ⟨true, .one⟩).decimal (.ofInt (-128))) =
      .ok (.ofInt (-128)) := by
  have one : Literal.Integer.Digit 16 '1' 1 := ⟨by decide, by decide⟩
  have zero : Literal.Integer.Digit 16 '0' 0 := ⟨by decide, by decide⟩
  have mark : Literal.Integer.BaseMark ['0', 'x'] 16 := .hexadecimal (by decide)
  have literal : KeyLiteral (Text.trimBlanks " 0x1_00\n".toList) 256 :=
    .number (.bare (.based mark (.inl rfl) (.spaced one (.next zero (.last zero)))))
  have exact := readKey_exact_and_clamped (full ⟨true, .one⟩)
  refine ⟨literal, ?_, exact.2 _ (by decide) (by decide)⟩
  rcases exact.1 _ _ literal with ⟨key, value, _, overflows⟩
  rcases overflows (by decide) with ⟨problem, read, reasons, rfl⟩
  exact ⟨problem, read, reasons, value.trans (by decide)⟩

end Alphabet

end StateTables
