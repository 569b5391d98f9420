import StateTables.Proofs.KeyGrammar
import StateTables.Proofs.KeyLiterals
import StateTables.Proofs.KeyTokens

/-! # Key lists are read back

Ranges of keys are written in decimal notation, a single key alone and the bounds of a range with
dots between them. Joined by commas, with or without a blank, they are read as the ranges they were
written for.
-/

namespace StateTables.Alphabet

open KeyItem Lexed

variable (alphabet : Alphabet) {range : KeyRange} {ranges : List KeyRange}

def writeRange (range : KeyRange) : String :=
  if range.low = range.high then alphabet.decimal range.low
  else alphabet.decimal range.low ++ ".." ++ alphabet.decimal range.high

def item (range : KeyRange) : KeyItem :=
  if range.low = range.high then .single (alphabet.decimal range.low)
  else .range (alphabet.decimal range.low) (alphabet.decimal range.high)

structure HasRange (range : KeyRange) : Prop where
  lower : alphabet.host.least ≤ alphabet.value range.low
  ordered : alphabet.value range.low ≤ alphabet.value range.high
  upper : alphabet.value range.high ≤ alphabet.host.greatest

theorem HasRange.denotes {alphabet : Alphabet} (has : alphabet.HasRange range) :
    (alphabet.item range).Denotes alphabet range := by
  have low := alphabet.readKey_decimal has.lower (Int.le_trans has.ordered has.upper)
  have high := alphabet.readKey_decimal (Int.le_trans has.lower has.ordered) has.upper
  rcases range with ⟨lowKey, highKey⟩
  unfold item
  split
  next same =>
    obtain rfl : lowKey = highKey := same
    exact .single low
  next => exact .range low high has.ordered

/-! ## Tokens of ranges -/

theorem numeral_decimal (key : Key) : Numeral (alphabet.decimal key).toList :=
  numeral_toString _

theorem start_decimal (key : Key) (rest : List UInt8) :
    ∀ value ∈ (Text.encoded (alphabet.decimal key).toList ++ rest).head?, value ∈ numeralBytes := by
  rcases (alphabet.numeral_decimal key).exists_cons with ⟨first, more, bytes, start⟩
  rw [bytes]
  rintro value ⟨⟩
  exact start

theorem start_writeRange (range : KeyRange) (rest : List UInt8) :
    ∀ value ∈ (Text.encoded (alphabet.writeRange range).toList ++ rest).head?,
      value ∈ numeralBytes := by
  unfold writeRange
  split
  next => exact alphabet.start_decimal _ _
  next =>
    rw [String.append_assoc, String.toList_append, Text.encoded_append, List.append_assoc]
    exact alphabet.start_decimal _ _

theorem start_writeRanges (separator : String) (first : KeyRange) (more : List KeyRange) :
    ∀ value ∈ (Text.encoded (separator.intercalate
      ((first :: more).map alphabet.writeRange)).toList).head?, value ∈ numeralBytes := by
  cases more with
  | nil =>
      rw [List.map_singleton, String.intercalate_singleton, ← List.append_nil (Text.encoded _)]
      exact alphabet.start_writeRange first []
  | cons second more =>
      rw [List.map_cons, List.map_cons, String.intercalate_cons_cons, String.append_assoc,
        String.toList_append, Text.encoded_append]
      exact alphabet.start_writeRange first _

section Tokens

variable (text : List UInt8) (offset : Nat) {rest : List UInt8}

theorem behind_decimal (key : Key) (apart : ∀ value ∈ rest.head?, value ∈ [(44 : UInt8), 46]) :
    ∃ token stop, token.kind ∈ keyKinds ∧ token.lexeme = alphabet.decimal key ∧
      behind text offset (Text.encoded (alphabet.decimal key).toList ++ rest) =
        .token token :: behind text stop rest := by
  rcases behind_number text offset (alphabet.numeral_decimal key) apart with
    ⟨token, stop, kind, lexeme, read⟩
  rw [String.ofList_toList] at lexeme
  exact ⟨token, stop, kind ▸ by decide, lexeme, read⟩

theorem behind_writeRange (range : KeyRange) (apart : ∀ value ∈ rest.head?, value = 44) :
    ∃ tokens stop, (alphabet.item range).Spelled tokens ∧
      behind text offset (Text.encoded (alphabet.writeRange range).toList ++ rest) =
        tokens.map Lexed.token ++ behind text stop rest := by
  have comma : ∀ value ∈ rest.head?, value ∈ [(44 : UInt8), 46] := fun value member => by
    rw [apart value member]
    decide
  unfold item writeRange
  split
  next =>
    rcases alphabet.behind_decimal text offset range.low comma with
      ⟨token, stop, kind, lexeme, read⟩
    exact ⟨[token], stop, lexeme ▸ .single kind, read⟩
  next =>
    have split : Text.encoded (alphabet.decimal range.low ++ ".." ++
          alphabet.decimal range.high).toList ++ rest =
        Text.encoded (alphabet.decimal range.low).toList ++
          (46 :: 46 :: (Text.encoded (alphabet.decimal range.high).toList ++ rest)) := by
      rw [String.toList_append, String.toList_append, Text.encoded_append, Text.encoded_append,
        List.append_assoc, List.append_assoc]
      rfl
    have dots : ∀ value ∈ ((46 : UInt8) ::
        46 :: (Text.encoded (alphabet.decimal range.high).toList ++ rest)).head?,
        value ∈ [(44 : UInt8), 46] := by simp
    rcases alphabet.behind_decimal text offset range.low dots with
      ⟨low, behindLow, lowKind, lowLexeme, lowRead⟩
    rcases behind_dots text behindLow (alphabet.start_decimal range.high rest) with
      ⟨dots, behindDots, dotsKind, dotsRead⟩
    rcases alphabet.behind_decimal text behindDots range.high comma with
      ⟨high, behindHigh, highKind, highLexeme, highRead⟩
    rw [split, lowRead, dotsRead, highRead, ← lowLexeme, ← highLexeme]
    exact ⟨[low, dots, high], behindHigh, .range lowKind dotsKind highKind, rfl⟩

/-! ## Tokens of lists -/

variable {separator : String} (joins : separator ∈ [",", ", "])

include joins

theorem start_separator : ∀ value ∈ (Text.encoded separator.toList ++ rest).head?, value = 44 := by
  simp only [List.mem_cons, List.not_mem_nil, or_false] at joins
  rcases joins with rfl | rfl
  · rintro value ⟨⟩
    rfl
  · rintro value ⟨⟩
    rfl

theorem behind_separator (apart : ∀ value ∈ rest.head?, value ∈ numeralBytes) :
    ∃ comma stop, comma.kind = .comma ∧
      behind text offset (Text.encoded separator.toList ++ rest) =
        .token comma :: behind text stop rest := by
  simp only [List.mem_cons, List.not_mem_nil, or_false] at joins
  rcases joins with rfl | rfl
  · exact behind_comma text offset fun value member => List.mem_cons_of_mem _ (apart value member)
  · have blank : ∀ value ∈ (32 :: rest).head?, value ∈ 32 :: numeralBytes := by simp
    rcases behind_comma text offset blank with ⟨comma, behindComma, kind, commaRead⟩
    rcases behind_blank text behindComma apart with ⟨stop, blankRead⟩
    exact ⟨comma, stop, kind, commaRead.trans (congrArg _ blankRead)⟩

theorem behind_writeRanges (someRange : ranges ≠ []) :
    ∃ tokens, SpelledAll (ranges.map alphabet.item) tokens ∧
      behind text offset (Text.encoded
        (separator.intercalate (ranges.map alphabet.writeRange)).toList) =
          tokens.map Lexed.token := by
  induction ranges generalizing offset with
  | nil => exact absurd rfl someRange
  | cons range ranges induction =>
      cases ranges with
      | nil =>
          have noComma : ∀ value ∈ ([] : List UInt8).head?, value = 44 := by simp
          rcases alphabet.behind_writeRange text offset range noComma with
            ⟨tokens, stop, spelled, read⟩
          rw [List.append_nil, behind_nil, List.append_nil] at read
          rw [List.map_singleton, List.map_singleton, String.intercalate_singleton]
          exact ⟨tokens, .last spelled, read⟩
      | cons second ranges =>
          -- the number behind the separator starts with a byte that no separator mentions
          have start := alphabet.start_writeRanges separator second ranges
          rcases alphabet.behind_writeRange text offset range (start_separator joins) with
            ⟨tokens, behindRange, spelled, rangeRead⟩
          rcases behind_separator text behindRange joins start with
            ⟨comma, behindComma, isComma, commaRead⟩
          rcases induction behindComma (by simp) with ⟨rest, spelledAll, restRead⟩
          refine ⟨tokens ++ comma :: rest, .more spelled isComma spelledAll, ?_⟩
          rw [List.map_cons, List.map_cons, String.intercalate_cons_cons, String.append_assoc,
            String.toList_append, String.toList_append, Text.encoded_append, Text.encoded_append,
            rangeRead]
          rw [← List.map_cons, commaRead, restRead]
          simp

end Tokens

/-! ## Reading -/

theorem readKeyList_writeRanges {separator : String} (joins : separator ∈ [",", ", "])
    (someRange : ranges ≠ []) (has : ∀ range ∈ ranges, alphabet.HasRange range) :
    alphabet.readKeyList (separator.intercalate (ranges.map alphabet.writeRange)) = .ok ranges := by
  rw [alphabet.readKeyList_eq_ok_iff]
  rcases ofText_eq (separator.intercalate (ranges.map alphabet.writeRange)) with
    ⟨ending, whole, isEnd⟩
  rcases alphabet.behind_writeRanges
    (Text.encoded (separator.intercalate (ranges.map alphabet.writeRange)).toList) 0 joins
      someRange with ⟨tokens, spelledAll, read⟩
  refine ⟨_, tokens, ending, ?_, isEnd, spelledAll, ?_⟩
  · rw [whole, read, List.map_append]
    rfl
  · rw [List.forall₂_map_left_iff, List.forall₂_same]
    exact fun range member => (has range member).denotes

theorem singleKeys_map (keys : List Key) :
    singleKeys (keys.map fun key => ⟨key, key⟩) = .ok keys := by
  induction keys with
  | nil => rfl
  | cons key keys induction =>
      rw [List.map_cons, singleKeys, if_pos rfl, induction]

theorem readKeySequence_decimals {separator : String} (joins : separator ∈ [",", ", "])
    {keys : List Key} (someKey : keys ≠ [])
    (has : ∀ key ∈ keys, alphabet.host.least ≤ alphabet.value key ∧
      alphabet.value key ≤ alphabet.host.greatest) :
    alphabet.readKeySequence (separator.intercalate (keys.map alphabet.decimal)) = .ok keys := by
  have written : keys.map alphabet.decimal =
      (keys.map fun key => (⟨key, key⟩ : KeyRange)).map alphabet.writeRange := by
    rw [List.map_map]
    exact List.map_congr_left fun key _ => (if_pos rfl).symm
  have ranges : ∀ range ∈ keys.map fun key => (⟨key, key⟩ : KeyRange), alphabet.HasRange range := by
    intro range member
    rcases List.mem_map.mp member with ⟨key, inside, rfl⟩
    exact ⟨(has key inside).1, Int.le_refl _, (has key inside).2⟩
  unfold readKeySequence
  rw [written, alphabet.readKeyList_writeRanges joins (by simpa using someKey) ranges]
  exact singleKeys_map keys

/-- A list of ranges of keys of the integer type, each with its bounds in order, is read back from
its decimal notation. So is a list of keys, with or without blanks behind the commas. -/
theorem key_lists_round_trip (alphabet : Alphabet) :
    (∀ ranges : List KeyRange, ranges ≠ [] →
      (∀ range ∈ ranges, alphabet.host.least ≤ alphabet.value range.low ∧
        alphabet.value range.low ≤ alphabet.value range.high ∧
          alphabet.value range.high ≤ alphabet.host.greatest) →
      alphabet.readKeyList (", ".intercalate (ranges.map fun range =>
        if range.low = range.high then alphabet.decimal range.low
        else alphabet.decimal range.low ++ ".." ++ alphabet.decimal range.high)) = .ok ranges) ∧
    ∀ separator ∈ [",", ", "], ∀ keys : List Key, keys ≠ [] →
      (∀ key ∈ keys, alphabet.host.least ≤ alphabet.value key ∧
        alphabet.value key ≤ alphabet.host.greatest) →
      alphabet.readKeySequence (separator.intercalate (keys.map alphabet.decimal)) = .ok keys := by
  refine ⟨fun ranges someRange has => ?_, fun separator joins keys someKey has => ?_⟩
  · exact alphabet.readKeyList_writeRanges (by decide) someRange fun range member =>
      ⟨(has range member).1, (has range member).2.1, (has range member).2.2⟩
  · exact alphabet.readKeySequence_decimals joins someKey has

/-- The keys of eight bytes without a sign, whose largest one has the pattern of minus one. -/
theorem key_lists_round_trip_sample :
    (full ⟨false, .eight⟩).readKeyList "0..18446744073709551615, 7" =
      .ok [⟨.ofInt 0, .ofInt (-1)⟩, ⟨.ofInt 7, .ofInt 7⟩] ∧
    (full ⟨true, .one⟩).readKeySequence "-128,127" = .ok [.ofInt (-128), .ofInt 127] := by
  have ranges := (key_lists_round_trip (full ⟨false, .eight⟩)).1
    [⟨.ofInt 0, .ofInt (-1)⟩, ⟨.ofInt 7, .ofInt 7⟩] (by decide) (by decide +kernel)
  have keys := (key_lists_round_trip (full ⟨true, .one⟩)).2 "," (by decide)
    [.ofInt (-128), .ofInt 127] (by decide) (by decide +kernel)
  exact ⟨ranges, keys⟩

end StateTables.Alphabet
