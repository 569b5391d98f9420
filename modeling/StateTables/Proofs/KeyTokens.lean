import StateTables.KeyExpression.Token
import StateTables.Proofs.Decimals
import StateTables.Proofs.LongestMatch
import StateTables.Proofs.Utf8

/-! # Tokens of key expressions

The first byte of a key expression tells the rules that can match. Therefore a token ends where the
byte behind it has no place in these rules: a number before dots or a comma, and dots, a comma and
blanks before a number.
-/

namespace StateTables

/-! ## Numbers -/

inductive Numeral : List Char → Prop where
  | bare {digits : List Char} : digits ≠ [] → (∀ digit ∈ digits, digit.isDigit = true) →
      Numeral digits
  | minus {digits : List Char} : digits ≠ [] → (∀ digit ∈ digits, digit.isDigit = true) →
      Numeral ('-' :: digits)

theorem numeral_toString (number : Int) : Numeral (toString number).toList := by
  rcases Literal.Integer.toList_toString number with ⟨_, written⟩ | ⟨_, written⟩
  · rw [written]
    exact .bare Nat.toDigits_ne_nil fun _ => Literal.Integer.isDigit_of_mem_toDigits
  · rw [written]
    exact .minus Nat.toDigits_ne_nil fun _ => Literal.Integer.isDigit_of_mem_toDigits

def digitBytes : List UInt8 :=
  (List.range 10).map fun digit => (48 + digit).toUInt8

theorem toUInt8_mem_digitBytes {digit : Char} (isDigit : digit.isDigit = true) :
    digit.toNat.toUInt8 ∈ digitBytes := by
  have bounds : 48 ≤ digit.toNat ∧ digit.toNat ≤ 57 := Char.isDigit_iff_toNat.mp isDigit
  refine List.mem_map.mpr ⟨digit.toNat - 48, List.mem_range.mpr (by omega), ?_⟩
  rw [Nat.add_sub_cancel' bounds.1]

def numeralBytes : List UInt8 :=
  45 :: digitBytes

theorem Numeral.ascii {characters : List Char} (numeral : Numeral characters) :
    ∀ character ∈ characters, character.toNat < 128 := by
  have digital : ∀ {digits : List Char}, (∀ digit ∈ digits, digit.isDigit = true) →
      ∀ digit ∈ digits, digit.toNat < 128 := by
    intro digits isDigit digit member
    have bounds : 48 ≤ digit.toNat ∧ digit.toNat ≤ 57 :=
      Char.isDigit_iff_toNat.mp (isDigit digit member)
    omega
  cases numeral with
  | bare _ isDigit => exact digital isDigit
  | minus _ isDigit => exact List.forall_mem_cons.mpr ⟨by decide, digital isDigit⟩

theorem Numeral.exists_cons {characters : List Char} (numeral : Numeral characters) :
    ∃ first more, Text.encoded characters = first :: more ∧ first ∈ numeralBytes := by
  have bytes := Text.encoded_of_ascii numeral.ascii
  cases numeral with
  | bare someDigit isDigit =>
      cases characters with
      | nil => exact absurd rfl someDigit
      | cons digit digits =>
          exact ⟨_, _, bytes,
            List.mem_cons_of_mem _ (toUInt8_mem_digitBytes (isDigit digit List.mem_cons_self))⟩
  | minus => exact ⟨_, _, bytes, List.mem_cons_self⟩

/-! ## Rules -/

namespace LexicalRule

open Pattern

/-- No rule that can start with a byte mentions the other byte. -/
def Apart (first value : UInt8) : Prop :=
  ∀ rule ∈ keyExpression, (rule.pattern.derivative first).alive = true →
    rule.pattern.mentions value = false

instance (first value : UInt8) : Decidable (Apart first value) :=
  inferInstanceAs (Decidable (∀ rule ∈ keyExpression,
    (rule.pattern.derivative first).alive = true → rule.pattern.mentions value = false))

/-- If all rules that can start with the first byte make one kind, one match tells the kind. -/
theorem recognizes_of_only {rules : List LexicalRule} {rule : LexicalRule} {first : UInt8}
    {more : List UInt8} (member : rule ∈ rules) (matched : rule.pattern.Matches (first :: more))
    (only : ∀ other ∈ rules, (other.pattern.derivative first).alive = true →
      other.kind = rule.kind) :
    Recognizes rules (first :: more) rule.kind := by
  induction rules with
  | nil => cases member
  | cons head rules induction =>
      rw [List.forall_mem_cons] at only
      by_cases earlier : head.pattern.Matches (first :: more)
      · rw [← only.1 (alive_derivative earlier)]
        exact .here earlier
      · rcases List.mem_cons.mp member with rfl | member
        · exact absurd matched earlier
        · exact .later earlier (induction member only.2)

theorem recognizes_numeral {characters : List Char} (numeral : Numeral characters) :
    Recognizes keyExpression (Text.encoded characters) (.token .number) := by
  have only : ∀ first ∈ numeralBytes, ∀ other ∈ keyExpression,
      (other.pattern.derivative first).alive = true → other.kind = .token .number := by
    decide +kernel
  have isDigit : ∀ value ∈ digitBytes,
      ("0123456789".toList.any fun digit => value.toNat == digit.toNat) = true := by decide +kernel
  have row : ∀ {digits : List Char}, digits ≠ [] → (∀ digit ∈ digits, digit.isDigit = true) →
      (Pattern.repeated (oneOf "0123456789".toList)).Matches
        (digits.map fun digit => digit.toNat.toUInt8) := by
    intro digits someDigit digital
    refine matches_repeated_byte (by simpa using someDigit) fun value member => ?_
    rcases List.mem_map.mp member with ⟨digit, inside, rfl⟩
    exact isDigit _ (toUInt8_mem_digitBytes (digital digit inside))
  rcases numeral.exists_cons with ⟨first, more, bytes, start⟩
  rw [bytes]
  refine recognizes_of_only (.tail _ (.head _)) ?_ (only first start)
  rw [← bytes, Text.encoded_of_ascii numeral.ascii]
  cases numeral with
  | bare someDigit digital =>
      exact .sequence (.left .empty) (.right (.right (row someDigit digital)))
  | minus someDigit digital =>
      exact .sequence (.right (.byte rfl)) (.right (.right (row someDigit digital)))

theorem recognizes_dots : Recognizes keyExpression [46, 46] (.token .dots) :=
  recognizes_of_only (.tail _ (.tail _ (.tail _ (.head _))))
    (.sequence (.byte rfl) (.byte rfl)) (by decide +kernel)

theorem recognizes_comma : Recognizes keyExpression [44] (.token .comma) :=
  recognizes_of_only (.tail _ (.tail _ (.tail _ (.tail _ (.head _))))) (.byte rfl)
    (by decide +kernel)

theorem recognizes_blank : Recognizes keyExpression [32] .blank :=
  recognizes_of_only (.tail _ (.tail _ (.head _))) (.once (.byte rfl)) (by decide +kernel)

end LexicalRule

/-! ## Reading -/

namespace Lexed

open LexicalRule

def behind (text : List UInt8) (offset : Nat) (bytes : List UInt8) : List Lexed :=
  (Segment.cut keyExpression offset bytes).filterMap (ofSegment text)

theorem ofText_eq (text : String) :
    ∃ ending, ofText text = behind (Text.encoded text.toList) 0 (Text.encoded text.toList) ++
      [.token ending] ∧ ending.kind = .endOfText := by
  unfold ofText
  rw [Text.toList_toUTF8]
  exact ⟨_, rfl, rfl⟩

variable (text : List UInt8) (offset : Nat) {first : UInt8} {more rest : List UInt8}

theorem behind_nil : behind text offset [] = [] := by
  rw [behind, Segment.cut, List.filterMap_nil]

theorem cut_apart {kind : SegmentKind} (recognized : Recognizes keyExpression (first :: more) kind)
    (apart : ∀ value ∈ rest.head?, Apart first value) :
    Segment.cut keyExpression offset (first :: more ++ rest) =
      ⟨kind, offset, first :: more⟩ ::
        Segment.cut keyExpression (offset + (first :: more).length) rest :=
  Segment.cut_of_longest (Longest.of_barrier recognized fun value member => apart value member)
    (List.cons_ne_nil _ _) offset

theorem behind_token {kind : TokenKind}
    (recognized : Recognizes keyExpression (first :: more) (.token kind))
    (apart : ∀ value ∈ rest.head?, Apart first value) :
    ∃ token stop, token.kind = kind ∧ token.lexeme = Text.Utf8.decodeLossy (first :: more) ∧
      behind text offset (first :: more ++ rest) = .token token :: behind text stop rest := by
  unfold behind
  rw [cut_apart offset recognized apart]
  exact ⟨⟨kind, _, _, _⟩, _, rfl, rfl, List.filterMap_cons_some rfl⟩

theorem behind_unrecognized {bytes : List UInt8} (unrecognized : Unrecognized keyExpression bytes)
    (someByte : bytes ≠ []) :
    ∃ unmatched rest, behind text offset bytes = .unmatched unmatched :: rest := by
  unfold behind
  rcases Segment.cut_of_unrecognized unrecognized someByte offset with ⟨front, _, _, _, cut⟩
  have first : ofSegment text ⟨.unmatched, offset, front⟩ = some (.unmatched
      ⟨.ofOffset text offset, .ofOffset text (offset + front.length), front⟩) := rfl
  rw [cut]
  exact ⟨_, _, List.filterMap_cons_some first⟩

theorem behind_number {characters : List Char} (numeral : Numeral characters)
    (apart : ∀ value ∈ rest.head?, value ∈ [(44 : UInt8), 46]) :
    ∃ token stop, token.kind = .number ∧ token.lexeme = String.ofList characters ∧
      behind text offset (Text.encoded characters ++ rest) =
        .token token :: behind text stop rest := by
  have barrier : ∀ first ∈ numeralBytes, ∀ value ∈ [(44 : UInt8), 46], Apart first value := by
    decide +kernel
  have recognized := recognizes_numeral numeral
  rcases numeral.exists_cons with ⟨first, more, bytes, start⟩
  have lexeme := Text.decodeLossy_encoded characters
  rw [bytes] at recognized lexeme ⊢
  rw [← lexeme]
  exact behind_token text offset recognized fun value member =>
    barrier first start value (apart value member)

theorem behind_dots (apart : ∀ value ∈ rest.head?, value ∈ numeralBytes) :
    ∃ token stop, token.kind = .dots ∧
      behind text offset (46 :: 46 :: rest) = .token token :: behind text stop rest := by
  have barrier : ∀ value ∈ numeralBytes, Apart 46 value := by decide +kernel
  rcases behind_token text offset recognizes_dots fun value member =>
    barrier value (apart value member) with ⟨token, stop, kind, _, read⟩
  exact ⟨token, stop, kind, read⟩

theorem behind_comma (apart : ∀ value ∈ rest.head?, value ∈ 32 :: numeralBytes) :
    ∃ token stop, token.kind = .comma ∧
      behind text offset (44 :: rest) = .token token :: behind text stop rest := by
  have barrier : ∀ value ∈ 32 :: numeralBytes, Apart 44 value := by decide +kernel
  rcases behind_token text offset recognizes_comma fun value member =>
    barrier value (apart value member) with ⟨token, stop, kind, _, read⟩
  exact ⟨token, stop, kind, read⟩

theorem behind_blank (apart : ∀ value ∈ rest.head?, value ∈ numeralBytes) :
    ∃ stop, behind text offset (32 :: rest) = behind text stop rest := by
  have barrier : ∀ value ∈ numeralBytes, Apart 32 value := by decide +kernel
  unfold behind
  rw [← List.singleton_append, cut_apart offset recognizes_blank fun value member =>
    barrier value (apart value member)]
  exact ⟨_, List.filterMap_cons_none rfl⟩

end Lexed

end StateTables
