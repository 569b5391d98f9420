import StateTables.Text.Utf8

/-! # Texts as bytes

A character below 128 is one byte, and no other character has such a byte in its encoding. So a byte
below 128 parts the bytes of a text where the text can be parted. The bytes of a text are read back
as the text.
-/

namespace StateTables.Text

def encoded (characters : List Char) : List UInt8 :=
  characters.flatMap String.utf8EncodeChar

@[simp] theorem encoded_append (front back : List Char) :
    encoded (front ++ back) = encoded front ++ encoded back :=
  List.flatMap_append

theorem encoded_cons (first : Char) (rest : List Char) :
    encoded (first :: rest) = String.utf8EncodeChar first ++ encoded rest :=
  List.flatMap_cons

theorem byteArray_toList_loop (bytes : ByteArray) (index : Nat) (before : List UInt8) :
    ByteArray.toList.loop bytes index before = before.reverse ++ bytes.data.toList.drop index := by
  fun_induction ByteArray.toList.loop bytes index before with
  | case1 index before inside induction =>
      have bound : index < bytes.data.toList.length := by simpa using inside
      rw [induction, List.drop_eq_getElem_cons bound]
      simp [ByteArray.get!, inside]
  | case2 index before outside =>
      rw [List.drop_eq_nil_of_le (by simpa using Nat.le_of_not_lt outside)]
      simp

theorem toList_toUTF8 (text : String) : text.toUTF8.toList = encoded text.toList := by
  have whole : text.toUTF8 = (encoded text.toList).toByteArray := String.utf8Encode_toList.symm
  rw [ByteArray.toList, byteArray_toList_loop, whole, List.toList_data_toByteArray]
  rfl

/-! ## Bytes below 128 -/

theorem toNat_byte {character : Char} (ascii : character.toNat < 128) :
    character.toNat.toUInt8.toNat = character.toNat := by
  rw [Nat.toUInt8_eq, UInt8.toNat_ofNat', Nat.mod_eq_of_lt (by omega)]

theorem encodeChar_of_ascii {character : Char} (ascii : character.toNat < 128) :
    String.utf8EncodeChar character = [character.toNat.toUInt8] := by
  have small : character.val.toNat ≤ 127 := Nat.le_of_lt_succ ascii
  rw [String.utf8EncodeChar, if_pos small]
  rfl

theorem encoded_of_ascii {characters : List Char}
    (ascii : ∀ character ∈ characters, character.toNat < 128) :
    encoded characters = characters.map fun character => character.toNat.toUInt8 := by
  induction characters with
  | nil => rfl
  | cons first rest induction =>
      rw [List.forall_mem_cons] at ascii
      rw [encoded_cons, encodeChar_of_ascii ascii.1]
      exact congrArg _ (induction ascii.2)

theorem toNat_marked {bits mark : Nat} (fits : bits + mark < 256) :
    (UInt8.ofNat (bits + mark)).toNat = bits + mark := by
  rw [UInt8.toNat_ofNat', Nat.mod_eq_of_lt fits]

/-- Any other character takes at least two bytes, all of them marked. -/
theorem encodeChar_of_not_ascii {character : Char} (beyond : 128 ≤ character.toNat) :
    ∃ first second more, String.utf8EncodeChar character = first :: second :: more ∧
      ∀ value ∈ first :: second :: more, 128 ≤ value.toNat := by
  have large : ¬character.val.toNat ≤ 127 := Nat.not_le.mpr beyond
  have marked : ∀ bits mark : Nat, 128 ≤ mark → bits + mark < 256 →
      128 ≤ (UInt8.ofNat (bits + mark)).toNat := by
    intro bits mark high fits
    rw [toNat_marked fits]
    omega
  unfold String.utf8EncodeChar
  dsimp only
  rw [if_neg large]
  split
  next =>
    refine ⟨_, _, _, rfl, ?_⟩
    simp only [List.forall_mem_cons]
    exact ⟨marked _ _ (by decide) (by omega), marked _ _ (by decide) (by omega), by simp⟩
  next =>
    split
    next =>
      refine ⟨_, _, _, rfl, ?_⟩
      simp only [List.forall_mem_cons]
      exact ⟨marked _ _ (by decide) (by omega), marked _ _ (by decide) (by omega),
        marked _ _ (by decide) (by omega), by simp⟩
    next =>
      refine ⟨_, _, _, rfl, ?_⟩
      simp only [List.forall_mem_cons]
      exact ⟨marked _ _ (by decide) (by omega), marked _ _ (by decide) (by omega),
        marked _ _ (by decide) (by omega), marked _ _ (by decide) (by omega), by simp⟩

theorem exists_parts_of_ascii {characters : List Char} {front back : List UInt8} {value : UInt8}
    (ascii : value.toNat < 128) (bytes : encoded characters = front ++ value :: back) :
    ∃ before character behind, characters = before ++ character :: behind ∧
      encoded before = front ∧ String.utf8EncodeChar character = [value] ∧
      encoded behind = back := by
  induction characters generalizing front with
  | nil => simp [encoded] at bytes
  | cons first rest induction =>
      rw [encoded_cons] at bytes
      -- the byte lies behind the first character, or the first character is the byte
      rcases List.append_eq_append_iff.mp bytes with ⟨further, rfl, later⟩ | ⟨inside, own, later⟩
      · rcases induction later with ⟨before, character, behind, rfl, rfl, single, same⟩
        exact ⟨first :: before, character, behind, rfl, encoded_cons _ _, single, same⟩
      · cases inside with
        | nil =>
            rw [List.append_nil] at own
            rcases @induction [] later.symm with
              ⟨before, character, behind, rfl, nothing, single, same⟩
            refine ⟨first :: before, character, behind, rfl, ?_, single, same⟩
            rw [encoded_cons, nothing, List.append_nil, own]
        | cons head inside =>
            obtain ⟨rfl, rfl⟩ := List.cons.inj later
            by_cases small : first.toNat < 128
            · rw [encodeChar_of_ascii small] at own
              rcases List.append_eq_singleton_iff.mp own.symm with ⟨rfl, single⟩ | ⟨rfl, nothing⟩
              · obtain ⟨rfl, rfl⟩ := List.cons.inj single
                exact ⟨[], first, rest, rfl, rfl, encodeChar_of_ascii small, rfl⟩
              · cases nothing
            · rcases encodeChar_of_not_ascii (Nat.not_lt.mp small) with ⟨_, _, _, same, marked⟩
              have high := marked value (by rw [← same, own]; simp)
              omega

theorem exists_encoded_of_ascii {bytes : List UInt8} (ascii : ∀ value ∈ bytes, value.toNat < 128) :
    ∃ characters, bytes = encoded characters := by
  induction bytes with
  | nil => exact ⟨[], rfl⟩
  | cons value bytes induction =>
      rw [List.forall_mem_cons] at ascii
      rcases induction ascii.2 with ⟨characters, rfl⟩
      have valid : value.toNat.isValidChar := .inl (by omega)
      have code : (Char.ofNat value.toNat).toNat = value.toNat := by
        rw [Char.ofNat, dif_pos valid]
        rfl
      refine ⟨Char.ofNat value.toNat :: characters, ?_⟩
      rw [encoded_cons, encodeChar_of_ascii (by rw [code]; exact ascii.1), code, Nat.toUInt8_eq,
        UInt8.ofNat_toNat]
      rfl

/-- Bytes of a text between two bytes below 128 are a text of their own. -/
theorem exists_encoded_between {characters : List Char} {front middle back : List UInt8}
    {first last : UInt8} (firstAscii : first.toNat < 128) (lastAscii : last.toNat < 128)
    (bytes : encoded characters = front ++ (first :: (middle ++ [last])) ++ back) :
    ∃ inner, first :: (middle ++ [last]) = encoded inner := by
  have opened : encoded characters = front ++ first :: (middle ++ last :: back) := by simp [bytes]
  rcases exists_parts_of_ascii firstAscii opened with ⟨_, opening, behind, _, _, isFirst, rest⟩
  rcases exists_parts_of_ascii lastAscii rest with ⟨between, closing, _, _, inside, isLast, _⟩
  refine ⟨opening :: (between ++ [closing]), ?_⟩
  rw [encoded_cons, encoded_append, inside, isFirst, encoded, List.flatMap_singleton, isLast]
  rfl

/-! ## Reading bytes back -/

namespace Utf8

theorem exists_first {bits mark : Nat} (fits : bits + mark < 256) :
    ∃ first, UInt8.ofNat (bits + mark) = first ∧ first.toNat = bits + mark :=
  ⟨_, rfl, toNat_marked fits⟩

theorem exists_tail (bits : Nat) :
    ∃ tail, UInt8.ofNat (bits % 64 + 128) = tail ∧ isTail tail = true ∧
      tail.toNat % 64 = bits % 64 := by
  have byte := toNat_marked (show bits % 64 + 128 < 256 by omega)
  have lower : 128 ≤ bits % 64 + 128 := by omega
  have upper : bits % 64 + 128 ≤ 191 := by omega
  refine ⟨_, rfl, ?_, by omega⟩
  unfold isTail
  rw [Bool.and_eq_true, decide_eq_true_eq, decide_eq_true_eq, UInt8.le_iff_toNat_le,
    UInt8.le_iff_toNat_le, byte]
  exact ⟨lower, upper⟩

theorem assemble_eq_some {character : Char} {first least : Nat} {tails : List UInt8}
    (tailed : ∀ tail ∈ tails, isTail tail = true)
    (bits : tails.foldl (fun code tail => code * 64 + tail.toNat % 64) first = character.toNat)
    (shortest : least ≤ character.toNat) : assemble first tails least = some character := by
  have valid : character.toNat.isValidChar := character.valid
  unfold assemble
  rw [bits]
  dsimp only
  rw [if_pos (by simpa [shortest] using tailed), dif_pos valid]
  rfl

section Leading

variable {first second third fourth : UInt8} (rest : List UInt8)

theorem within_iff {low high : UInt8} {least most : Nat} (isLow : low.toNat = least)
    (isHigh : high.toNat = most) :
    (low ≤ first && first ≤ high) = true ↔ least ≤ first.toNat ∧ first.toNat ≤ most := by
  rw [Bool.and_eq_true, decide_eq_true_eq, decide_eq_true_eq, UInt8.le_iff_toNat_le,
    UInt8.le_iff_toNat_le, isLow, isHigh]

theorem two_iff : (0xc2 ≤ first && first ≤ 0xdf) = true ↔
    194 ≤ first.toNat ∧ first.toNat ≤ 223 :=
  within_iff rfl rfl

theorem three_iff : (0xe0 ≤ first && first ≤ 0xef) = true ↔
    224 ≤ first.toNat ∧ first.toNat ≤ 239 :=
  within_iff rfl rfl

theorem four_iff : (0xf0 ≤ first && first ≤ 0xf4) = true ↔
    240 ≤ first.toNat ∧ first.toNat ≤ 244 :=
  within_iff rfl rfl

theorem not_small (beyond : 128 ≤ first.toNat) : ¬first < 0x80 := by
  rw [UInt8.lt_iff_toNat_lt]
  exact Nat.not_lt.mpr beyond

theorem leading_two (lower : 194 ≤ first.toNat) (upper : first.toNat ≤ 223) :
    leading first (second :: rest) = (assemble (first.toNat % 32) [second] 0x80).map (·, 1) := by
  rw [leading.eq_def, if_neg (not_small (by omega))]
  dsimp only
  rw [if_pos (two_iff.mpr ⟨lower, upper⟩)]

theorem leading_three (lower : 224 ≤ first.toNat) (upper : first.toNat ≤ 239) :
    leading first (second :: third :: rest) =
      (assemble (first.toNat % 16) [second, third] 0x800).map (·, 2) := by
  rw [leading.eq_def, if_neg (not_small (by omega))]
  dsimp only
  rw [if_neg (by rw [two_iff]; omega), if_pos (three_iff.mpr ⟨lower, upper⟩)]

theorem leading_four (lower : 240 ≤ first.toNat) (upper : first.toNat ≤ 244) :
    leading first (second :: third :: fourth :: rest) =
      (assemble (first.toNat % 8) [second, third, fourth] 0x10000).map (·, 3) := by
  rw [leading.eq_def, if_neg (not_small (by omega))]
  dsimp only
  rw [if_neg (by rw [two_iff]; omega), if_neg (by rw [three_iff]; omega),
    if_pos (four_iff.mpr ⟨lower, upper⟩)]

end Leading

theorem leading_encodeChar (character : Char) (rest : List UInt8) :
    ∃ first tails, String.utf8EncodeChar character = first :: tails ∧
      leading first (tails ++ rest) = some (character, tails.length) := by
  have bound : character.toNat < 0x110000 := by
    rcases character.valid with low | high
    · exact Nat.lt_trans low (by decide)
    · exact high.2
  by_cases ascii : character.toNat < 128
  · have small : character.toNat.toUInt8 < 0x80 := by
      rw [UInt8.lt_iff_toNat_lt, toNat_byte ascii]
      exact ascii
    refine ⟨_, [], encodeChar_of_ascii ascii, ?_⟩
    rw [leading.eq_def, if_pos small, toNat_byte ascii, Char.ofNat_toNat]
    rfl
  have code : character.val.toNat = character.toNat := rfl
  rcases exists_tail character.toNat with ⟨last, isLast, lastTails, lastBits⟩
  rcases exists_tail (character.toNat / 64) with ⟨third, isThird, thirdTails, thirdBits⟩
  rcases exists_tail (character.toNat / 4096) with ⟨second, isSecond, secondTails, secondBits⟩
  unfold String.utf8EncodeChar
  dsimp only
  rw [code, isLast, isThird, isSecond, if_neg (by omega)]
  split
  next =>
    rcases exists_first (show character.toNat / 64 % 32 + 192 < 256 by omega) with
      ⟨first, isFirst, bits⟩
    have made : assemble (first.toNat % 32) [last] 0x80 = some character :=
      assemble_eq_some (by simp [lastTails])
        (by simp only [List.foldl_cons, List.foldl_nil]; omega) (by omega)
    refine ⟨first, [last], by rw [isFirst], ?_⟩
    rw [List.singleton_append, leading_two rest (by omega) (by omega), made]
    rfl
  next =>
    split
    next =>
      rcases exists_first (show character.toNat / 4096 % 16 + 224 < 256 by omega) with
        ⟨first, isFirst, bits⟩
      have made : assemble (first.toNat % 16) [third, last] 0x800 = some character :=
        assemble_eq_some (by simp [thirdTails, lastTails])
          (by simp only [List.foldl_cons, List.foldl_nil]; omega) (by omega)
      refine ⟨first, [third, last], by rw [isFirst], ?_⟩
      rw [List.cons_append, List.singleton_append, leading_three rest (by omega) (by omega), made]
      rfl
    next =>
      rcases exists_first (show character.toNat / 262144 % 8 + 240 < 256 by omega) with
        ⟨first, isFirst, bits⟩
      have made : assemble (first.toNat % 8) [second, third, last] 0x10000 = some character :=
        assemble_eq_some (by simp [secondTails, thirdTails, lastTails])
          (by simp only [List.foldl_cons, List.foldl_nil]; omega) (by omega)
      refine ⟨first, [second, third, last], by rw [isFirst], ?_⟩
      rw [List.cons_append, List.cons_append, List.singleton_append,
        leading_four rest (by omega) (by omega), made]
      rfl

theorem pieces_encoded (characters : List Char) :
    pieces (encoded characters) = characters.map .character := by
  induction characters with
  | nil => rw [encoded, List.flatMap_nil, pieces, List.map_nil]
  | cons character characters induction =>
      rcases leading_encodeChar character (encoded characters) with ⟨first, tails, bytes, read⟩
      rw [encoded_cons, bytes, List.cons_append, pieces, read]
      dsimp only
      rw [List.drop_left, induction, List.map_cons]

end Utf8

/-- The bytes of a text are read as the text. -/
theorem decodeLossy_encoded (characters : List Char) :
    Utf8.decodeLossy (encoded characters) = String.ofList characters := by
  rw [Utf8.decodeLossy, Utf8.pieces_encoded, List.map_map]
  exact congrArg String.ofList (List.map_id _)

end StateTables.Text
