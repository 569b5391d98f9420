import StateTables.Proofs.KeyGrammar
import StateTables.Proofs.KeyLiterals
import StateTables.Proofs.KeyTokens

/-! # Character tokens

A character token has one byte between its quotes, or a backslash and then bytes without a quote. A
key literal in quotes has one character there, or an escape. These are the same texts but for two
kinds of key literals: a character that takes more than one byte, and the escape of the quote.
-/

namespace StateTables

inductive CharacterToken : List UInt8 → Prop where
  | bare {value : UInt8} : value ≠ 39 → value ≠ 92 → CharacterToken [39, value, 39]
  | escape {more : List UInt8} : more ≠ [] → 39 ∉ more →
      CharacterToken (39 :: 92 :: (more ++ [39]))

theorem CharacterToken.exists_between {bytes : List UInt8} (token : CharacterToken bytes) :
    ∃ inner, bytes = 39 :: (inner ++ [39]) := by
  cases token with
  | @bare value => exact ⟨[value], rfl⟩
  | @escape more => exact ⟨92 :: more, rfl⟩

namespace LexicalRule

open Pattern

theorem toNat_beq_iff {value : UInt8} {character : Char} (ascii : character.toNat < 128) :
    (value.toNat == character.toNat) = true ↔ value = character.toNat.toUInt8 := by
  rw [beq_iff_eq, ← UInt8.toNat_inj, Text.toNat_byte ascii]

theorem noneOf_iff {characters : List Char} {value : UInt8}
    (ascii : ∀ character ∈ characters, character.toNat < 128) :
    (!characters.any fun character => value.toNat == character.toNat) = true ↔
      ∀ character ∈ characters, value ≠ character.toNat.toUInt8 := by
  rw [Bool.not_eq_true', List.any_eq_false]
  exact forall₂_congr fun character member => not_congr (toNat_beq_iff (ascii character member))

theorem matches_exactly_iff {character : Char} (ascii : character.toNat < 128)
    {bytes : List UInt8} :
    (exactly character).Matches bytes ↔ bytes = [character.toNat.toUInt8] := by
  rw [exactly, matches_byte_iff]
  simp only [toNat_beq_iff ascii, exists_eq_left]

theorem matches_quoted_iff {bytes : List UInt8} :
    (Pattern.sequence (exactly '\'') (.sequence
      (.choice (noneOf ['\'', '\\']) (.sequence (exactly '\\') (.repeated (noneOf ['\'']))))
      (exactly '\''))).Matches bytes ↔ CharacterToken bytes := by
  have quote : ∀ {bytes}, (exactly '\'').Matches bytes ↔ bytes = [39] :=
    matches_exactly_iff (by decide)
  have backslash : ∀ {bytes}, (exactly '\\').Matches bytes ↔ bytes = [92] :=
    matches_exactly_iff (by decide)
  have plain : ∀ {bytes}, (noneOf ['\'', '\\']).Matches bytes ↔
      ∃ value, (value ≠ 39 ∧ value ≠ 92) ∧ bytes = [value] := by
    have ascii : ∀ character ∈ ['\'', '\\'], character.toNat < 128 := by simp
    intro bytes
    rw [noneOf, matches_byte_iff]
    simp only [noneOf_iff ascii]
    simp
  have row : ∀ {bytes}, (Pattern.repeated (noneOf ['\''])).Matches bytes ↔
      bytes ≠ [] ∧ 39 ∉ bytes := by
    have ascii : ∀ character ∈ ['\''], character.toNat < 128 := by simp
    intro bytes
    rw [noneOf, matches_repeated_byte_iff]
    simp only [noneOf_iff ascii]
    simp [List.forall_mem_ne']
  simp only [matches_sequence_iff, matches_choice_iff, quote, backslash, plain, row]
  constructor
  · rintro ⟨_, _, rfl, ⟨inner, _, inside, rfl, rfl⟩, rfl⟩
    rcases inside with ⟨value, ⟨notQuote, notBackslash⟩, rfl⟩ |
      ⟨_, more, rfl, ⟨someByte, noQuote⟩, rfl⟩
    · exact .bare notQuote notBackslash
    · exact .escape someByte noQuote
  · intro token
    cases token with
    | @bare value notQuote notBackslash =>
        exact ⟨_, _, rfl, ⟨[value], _, .inl ⟨value, ⟨notQuote, notBackslash⟩, rfl⟩, rfl, rfl⟩, rfl⟩
    | @escape more someByte noQuote =>
        exact ⟨_, _, rfl, ⟨_, _, .inr ⟨_, more, rfl, ⟨someByte, noQuote⟩, rfl⟩, rfl, rfl⟩, rfl⟩

/-- Behind a quote only character tokens are recognized. -/
theorem recognizes_quote_iff {bytes : List UInt8} {kind : SegmentKind} :
    Recognizes keyExpression (39 :: bytes) kind ↔
      kind = .token .character ∧ CharacterToken (39 :: bytes) := by
  have only : ∀ rule ∈ keyExpression, (rule.pattern.derivative 39).alive = true →
      rule.kind = .token .character := by decide +kernel
  have others : ∀ rule ∈ keyExpression.tail, rule.kind ≠ .token .character := by decide +kernel
  constructor
  · intro recognized
    rcases recognized.exists_rule with ⟨rule, member, rfl, matched⟩
    have alive := alive_derivative matched
    refine ⟨only rule member alive, ?_⟩
    rcases List.mem_cons.mp member with rfl | member
    · exact matches_quoted_iff.mp matched
    · exact absurd (only rule (.tail _ member) alive) (others rule member)
  · rintro ⟨rfl, token⟩
    exact recognizes_of_only (.head _) (matches_quoted_iff.mpr token) only

theorem unrecognized_quote {text : List UInt8}
    (noToken : ∀ front back, 39 :: text = front ++ back → ¬CharacterToken front) :
    Unrecognized keyExpression (39 :: text) := by
  intro front back split someByte kind recognized
  cases front with
  | nil => exact someByte rfl
  | cons first front =>
      obtain rfl := (List.cons.inj split).1
      exact noToken _ back split (recognizes_quote_iff.mp recognized).2

theorem unrecognized_long {first second : UInt8} (notBackslash : first ≠ 92)
    (notQuote : second ≠ 39) (rest : List UInt8) :
    Unrecognized keyExpression (39 :: first :: second :: rest) := by
  refine unrecognized_quote fun front back split token => ?_
  cases token with
  | bare => exact notQuote (List.cons.inj (List.cons.inj (List.cons.inj split).2).2).1
  | escape => exact notBackslash (List.cons.inj (List.cons.inj split).2).1

theorem unrecognized_escaped_quote (rest : List UInt8) :
    Unrecognized keyExpression (39 :: 92 :: 39 :: rest) := by
  refine unrecognized_quote fun front back split token => ?_
  cases token with
  | bare _ notBackslash => exact notBackslash (List.cons.inj (List.cons.inj split).2).1.symm
  | @escape more someByte noQuote =>
      cases more with
      | nil => exact someByte rfl
      | cons first more =>
          have quote := (List.cons.inj (List.cons.inj (List.cons.inj split).2).2).1
          exact noQuote (quote ▸ List.mem_cons_self)

end LexicalRule

/-! ## What stands between quotes -/

section Body

open LexicalRule Literal.Character

variable {body : List Char} {code : Nat}

theorem byte_injective {left right : Char} (leftAscii : left.toNat < 128)
    (rightAscii : right.toNat < 128) (same : left.toNat.toUInt8 = right.toNat.toUInt8) :
    left = right := by
  have codes := congrArg UInt8.toNat same
  rw [Text.toNat_byte leftAscii, Text.toNat_byte rightAscii] at codes
  exact Char.toNat_inj.mp codes

theorem token_of_body (denotes : Body body code) (ascii : ∀ character ∈ body, character.toNat < 128)
    (noQuote : body ≠ ['\\', '\'']) : CharacterToken (39 :: (Text.encoded body ++ [39])) := by
  rw [Text.encoded_of_ascii ascii]
  cases denotes with
  | bare notQuote notBackslash =>
      have small := ascii _ List.mem_cons_self
      exact .bare (fun same => notQuote (byte_injective small (by decide) same))
        (fun same => notBackslash (byte_injective small (by decide) same))
  | escape escape =>
      refine .escape (by simpa using escape.ne_nil) fun member => ?_
      rcases List.mem_map.mp member with ⟨character, inside, same⟩
      rcases escape.ascii with rfl | spelled
      · exact noQuote rfl
      · exact (spelled character inside).1
          (byte_injective (spelled character inside).2 (by decide) same)

theorem unrecognized_of_body (denotes : Body body code)
    (other : ¬((∀ character ∈ body, character.toNat < 128) ∧ body ≠ ['\\', '\''])) :
    Unrecognized keyExpression (39 :: (Text.encoded body ++ [39])) := by
  cases denotes with
  | @bare character =>
      -- a single character is left out for its code only
      have beyond : 128 ≤ character.toNat := by
        by_contra small
        exact other ⟨by simpa using small, by simp⟩
      rcases Text.encodeChar_of_not_ascii beyond with ⟨first, second, more, bytes, high⟩
      rw [Text.encoded, List.flatMap_singleton, bytes]
      refine unrecognized_long ?_ ?_ _
      · rintro rfl
        exact absurd (high 92 (by simp)) (by decide)
      · rintro rfl
        exact absurd (high 39 (by simp)) (by decide)
  | escape escape =>
      rcases escape.ascii with rfl | spelled
      · exact unrecognized_escaped_quote [39]
      · -- any other escape has all that is asked for
        refine absurd ⟨List.forall_mem_cons.mpr ⟨by decide, fun character inside =>
          (spelled character inside).2⟩, ?_⟩ other
        rintro same
        rw [(List.cons.inj same).2] at spelled
        exact (spelled '\'' List.mem_cons_self).1 rfl

end Body

/-! ## Key literals in quotes -/

namespace Alphabet

open KeyItem LexicalRule Lexed

variable (alphabet : Alphabet) {text : String} {key : Key}

theorem exists_body (quoted : text.toList.head? = some '\'')
    (noBlanks : Text.trimBlanks text.toList = text.toList)
    (read : alphabet.readKey text = .ok key) :
    ∃ body code, text.toList = '\'' :: (body ++ ['\'']) ∧ Literal.Character.Body body code := by
  rcases List.head?_eq_some_iff.mp quoted with ⟨rest, characters⟩
  rw [alphabet.readKey_quote (noBlanks.trans characters)] at read
  unfold readCharacter at read
  split at read
  next => cases read
  next closed =>
    simp only [Bool.or_eq_true, decide_eq_true_eq, bne_iff_ne, not_or, Decidable.not_not] at closed
    split at read
    next code found =>
      have last : rest.getLast? = some '\'' := by
        cases rest with
        | nil => simp at closed
        | cons => simpa using closed.2
      refine ⟨rest.dropLast, code, ?_, Literal.Character.code?_eq_some_iff.mp found⟩
      rw [characters, List.dropLast_append_getLast? _ last]
    next => cases read

theorem readKeyRange_of_token (token : CharacterToken (Text.encoded text.toList))
    (read : alphabet.readKey text = .ok key) : alphabet.readKeyRange text = .ok ⟨key, key⟩ := by
  have list : alphabet.readKeyList text = .ok [⟨key, key⟩] := by
    rw [alphabet.readKeyList_eq_ok_iff]
    rcases ofText_eq text with ⟨ending, whole, isEnd⟩
    have lexeme := Text.decodeLossy_encoded text.toList
    rw [String.ofList_toList] at lexeme
    rcases token.exists_between with ⟨inner, bytes⟩
    rw [bytes] at token whole lexeme
    have nothing : ∀ value ∈ ([] : List UInt8).head?, Apart 39 value := by simp
    rcases behind_token (39 :: (inner ++ [39])) 0 (recognizes_quote_iff.mpr ⟨rfl, token⟩) nothing with
      ⟨token, stop, kind, same, behind⟩
    rw [List.append_nil, behind_nil] at behind
    rw [lexeme] at same
    refine ⟨[.single text], [token], ending, ?_, isEnd, ?_, .cons (.single read) .nil⟩
    · rw [whole, behind]
      rfl
    · rw [← same]
      exact .last (.single (by rw [kind]; decide))
  rw [readKeyRange, list]

theorem readKeyRange_of_unrecognized
    (unrecognized : Unrecognized keyExpression (Text.encoded text.toList))
    (someByte : Text.encoded text.toList ≠ []) :
    ∃ unmatched, alphabet.readKeyRange text = .error (.unmatched unmatched) := by
  rcases ofText_eq text with ⟨ending, whole, _⟩
  rcases behind_unrecognized _ 0 unrecognized someByte with ⟨unmatched, rest, behind⟩
  rw [behind] at whole
  refine ⟨unmatched, ?_⟩
  rw [readKeyRange, readKeyList, whole, List.cons_append, KeyExpression.readItems]
  rfl

/-- A key literal in quotes is read as a single key by both readers exactly if it is spelled in
ASCII and is not the escaped quote. Otherwise it is unmatched text to the reader of key lists. -/
theorem quoted_key_is_token_or_unmatched (alphabet : Alphabet) (text : String) (key : Key)
    (quoted : text.toList.head? = some '\'')
    (noBlanks : Text.trimBlanks text.toList = text.toList)
    (read : alphabet.readKey text = .ok key) :
    ((∀ character ∈ text.toList, character.toNat < 128) ∧ text ≠ "'\\''" →
      alphabet.readKeyRange text = .ok ⟨key, key⟩) ∧
    (¬((∀ character ∈ text.toList, character.toNat < 128) ∧ text ≠ "'\\''") →
      ∃ unmatched, alphabet.readKeyRange text = .error (.unmatched unmatched)) := by
  rcases alphabet.exists_body quoted noBlanks read with ⟨body, code, characters, denotes⟩
  have bytes : Text.encoded text.toList = 39 :: (Text.encoded body ++ [39]) := by
    rw [characters, Text.encoded, List.flatMap_cons, ← Text.encoded, Text.encoded_append]
    rfl
  have ascii : (∀ character ∈ text.toList, character.toNat < 128) ↔
      ∀ character ∈ body, character.toNat < 128 := by
    rw [characters]
    simp [or_imp, forall_and]
  have noQuote : text ≠ "'\\''" ↔ body ≠ ['\\', '\''] := by
    have quote : "'\\''".toList = '\'' :: (['\\', '\''] ++ ['\'']) := by decide
    rw [Ne, ← String.toList_inj, characters, quote, List.cons_inj_right, List.append_left_inj]
  constructor
  · rintro ⟨spelled, other⟩
    have token := token_of_body denotes (ascii.mp spelled) (noQuote.mp other)
    exact alphabet.readKeyRange_of_token (bytes ▸ token) read
  · intro other
    rw [ascii, noQuote] at other
    have unrecognized := unrecognized_of_body denotes other
    exact alphabet.readKeyRange_of_unrecognized (bytes ▸ unrecognized)
      (bytes ▸ List.cons_ne_nil _ _)

/-- A character of two bytes is unmatched text, and its escape is read as the key of one byte. -/
theorem quoted_key_is_token_or_unmatched_sample :
    (full ⟨false, .one⟩).readKey "'\u00e9'" = .ok (.ofInt 0xe9) ∧
    (∃ unmatched, (full ⟨false, .one⟩).readKeyRange "'\u00e9'" = .error (.unmatched unmatched)) ∧
    (full ⟨false, .one⟩).readKeyRange "'\\u00e9'" = .ok ⟨.ofInt 0xe9, .ofInt 0xe9⟩ := by
  have bare : (full ⟨false, .one⟩).readKey "'\u00e9'" = .ok (.ofInt 0xe9) := rfl
  have escaped : (full ⟨false, .one⟩).readKey "'\\u00e9'" = .ok (.ofInt 0xe9) := rfl
  exact ⟨bare,
    (quoted_key_is_token_or_unmatched _ _ _ (by decide) (by decide) bare).2 (by simp),
    (quoted_key_is_token_or_unmatched _ _ _ (by decide) (by decide) escaped).1 (by simp)⟩

/-- The escaped quote is a key, but it is not read as a single key. -/
theorem escaped_quote_is_no_token :
    ¬∀ (alphabet : Alphabet) (text : String) (key : Key), text.toList.head? = some '\'' →
      Text.trimBlanks text.toList = text.toList → alphabet.readKey text = .ok key →
        alphabet.readKeyRange text = .ok ⟨key, key⟩ := by
  intro agree
  have read := agree (full ⟨false, .four⟩) "'\\''" (.ofInt 39) (by decide) (by decide) rfl
  have refused : ((full ⟨false, .four⟩).readKeyRange "'\\''").toBool = false := by decide +kernel
  rw [read] at refused
  cases refused

end Alphabet

end StateTables
