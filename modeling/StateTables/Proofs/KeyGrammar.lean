import StateTables.KeyExpression.Parser
import StateTables.Proofs.ErrorState
import StateTables.Proofs.KeyOrder
import StateTables.Proofs.LongestMatch

/-! # The grammar of key lists

A key list is a row of items with commas between them. An item is `any`, a key literal or two key
literals with dots between them. Apart from how they are read, items have a spelling in tokens and
denote ranges of keys. A text is read exactly if all of it is tokens that spell items with a
meaning, and then the ranges denoted are read.
-/

namespace StateTables

inductive KeyItem where
  | any
  | single (literal : String)
  | range (low high : String)

namespace KeyItem

def keyKinds : List TokenKind :=
  [.character, .number]

/-- The tokens of an item. -/
inductive Spelled : KeyItem → List Token → Prop where
  | any {token : Token} : token.kind = .any → Spelled .any [token]
  | single {key : Token} : key.kind ∈ keyKinds → Spelled (.single key.lexeme) [key]
  | range {low dots high : Token} : low.kind ∈ keyKinds → dots.kind = .dots →
      high.kind ∈ keyKinds → Spelled (.range low.lexeme high.lexeme) [low, dots, high]

/-- The tokens of one or more items with commas between them. -/
inductive SpelledAll : List KeyItem → List Token → Prop where
  | last {item : KeyItem} {tokens : List Token} : item.Spelled tokens → SpelledAll [item] tokens
  | more {item : KeyItem} {items : List KeyItem} {comma : Token} {tokens rest : List Token} :
      item.Spelled tokens → comma.kind = .comma → SpelledAll items rest →
      SpelledAll (item :: items) (tokens ++ comma :: rest)

/-- The keys of an item. The bounds of a range are in order. -/
inductive Denotes (alphabet : Alphabet) : KeyItem → KeyRange → Prop where
  | any : Denotes alphabet .any ⟨alphabet.low, alphabet.high⟩
  | single {literal : String} {key : Key} : alphabet.readKey literal = .ok key →
      Denotes alphabet (.single literal) ⟨key, key⟩
  | range {low high : String} {lowKey highKey : Key} : alphabet.readKey low = .ok lowKey →
      alphabet.readKey high = .ok highKey → alphabet.value lowKey ≤ alphabet.value highKey →
      Denotes alphabet (.range low high) ⟨lowKey, highKey⟩

theorem Denotes.ordered {alphabet : Alphabet} {item : KeyItem} {range : KeyRange}
    (denotes : Denotes alphabet item range)
    (upright : alphabet.value alphabet.low ≤ alphabet.value alphabet.high) :
    alphabet.value range.low ≤ alphabet.value range.high := by
  cases denotes with
  | any => exact upright
  | single => exact Int.le_refl _
  | range _ _ ordered => exact ordered

theorem Denotes.all_ordered {alphabet : Alphabet} {items : List KeyItem} {ranges : List KeyRange}
    (denoteAll : List.Forall₂ (Denotes alphabet) items ranges)
    (upright : alphabet.value alphabet.low ≤ alphabet.value alphabet.high) :
    ∀ range ∈ ranges, alphabet.value range.low ≤ alphabet.value range.high := by
  induction denoteAll with
  | nil => simp
  | cons denotes _ induction => exact List.forall_mem_cons.mpr ⟨denotes.ordered upright, induction⟩

theorem mem_keyKinds_iff {kind : TokenKind} : kind ∈ keyKinds ↔ kind.isKey = true := by
  cases kind <;> decide

end KeyItem

namespace KeyExpression

open KeyItem

variable {alphabet : Alphabet} {lexed rest : List Lexed}

/-! ## Single items -/

def NoDots (rest : List Lexed) : Prop :=
  ∀ next ∈ rest.head?, ∃ token, next = .token token ∧ token.kind ≠ .dots

theorem peek_eq_ok (noDots : NoDots rest) : ∃ token, peek rest = .ok token := by
  cases rest with
  | nil => exact ⟨_, rfl⟩
  | cons next rest =>
      rcases noDots next rfl with ⟨token, rfl, _⟩
      exact ⟨token, rfl⟩

theorem readKey_eq_ok {key : Key} {shorter : rest.length < lexed.length}
    (read : readKey alphabet lexed = .ok (key, ⟨rest, shorter⟩)) :
    ∃ token, lexed = .token token :: rest ∧ token.kind ∈ keyKinds ∧
      alphabet.readKey token.lexeme = .ok key := by
  unfold readKey at read
  split at read
  next => cases read
  next => cases read
  next token _ =>
    split at read
    next isKey =>
      split at read
      next literal =>
        cases read
        exact ⟨token, rfl, mem_keyKinds_iff.mpr isKey, literal⟩
      next => cases read
    next => cases read

theorem readKey_cons {token : Token} {key : Key} (kind : token.kind ∈ keyKinds)
    (literal : alphabet.readKey token.lexeme = .ok key) (rest : List Lexed) :
    readKey alphabet (.token token :: rest) = .ok (key, ⟨rest, Nat.lt_succ_self _⟩) := by
  rw [readKey, if_pos (mem_keyKinds_iff.mp kind), literal]

theorem readUpper_eq_ok {low : Key} {range : KeyRange} {notLonger : rest.length ≤ lexed.length}
    (read : readUpper alphabet low lexed = .ok (range, ⟨rest, notLonger⟩)) :
    (range = ⟨low, low⟩ ∧ lexed = rest) ∨
      ∃ dots token high, lexed = .token dots :: .token token :: rest ∧ dots.kind = .dots ∧
        token.kind ∈ keyKinds ∧ alphabet.readKey token.lexeme = .ok high ∧
        alphabet.value low ≤ alphabet.value high ∧ range = ⟨low, high⟩ := by
  unfold readUpper at read
  split at read
  next => cases read
  next lexeme start stop _ =>
    split at read
    next => cases read
    next behind =>
      split at read
      next => cases read
      next =>
        split at read
        next => cases read
        next ordered =>
          rw [Alphabet.below_iff, Int.not_lt] at ordered
          cases read
          rcases readKey_eq_ok behind with ⟨token, rfl, kind, literal⟩
          exact .inr ⟨⟨.dots, lexeme, start, stop⟩, token, _, rfl, rfl, kind, literal, ordered, rfl⟩
  next =>
    cases read
    exact .inl ⟨rfl, rfl⟩

theorem readUpper_noDots (noDots : NoDots rest) (low : Key) :
    readUpper alphabet low rest = .ok (⟨low, low⟩, ⟨rest, Nat.le_refl _⟩) := by
  unfold readUpper
  split
  next =>
    rcases noDots _ rfl with ⟨_, impossible, _⟩
    cases impossible
  next =>
    rcases noDots _ rfl with ⟨_, same, kind⟩
    cases same
    exact absurd rfl kind
  next => rfl

theorem readUpper_dots {dots token : Token} {low high : Key} (isDots : dots.kind = .dots)
    (kind : token.kind ∈ keyKinds) (literal : alphabet.readKey token.lexeme = .ok high)
    (ordered : alphabet.value low ≤ alphabet.value high) (noDots : NoDots rest) :
    readUpper alphabet low (.token dots :: .token token :: rest) =
      .ok (⟨low, high⟩, ⟨rest, Nat.le_add_right _ 2⟩) := by
  rcases dots with ⟨dotsKind, lexeme, start, stop⟩
  obtain rfl : dotsKind = .dots := isDots
  rcases peek_eq_ok noDots with ⟨next, peeked⟩
  rw [readUpper, readKey_cons kind literal]
  simp only [peeked]
  rw [if_neg (by rw [Alphabet.below_iff, Int.not_lt]; exact ordered)]

/-- What is read as an item is spelled as an item that denotes the range. -/
theorem readItem_eq_ok {range : KeyRange} {shorter : rest.length < lexed.length}
    (read : readItem alphabet lexed = .ok (range, ⟨rest, shorter⟩)) :
    ∃ (item : KeyItem) (tokens : List Token), lexed = tokens.map Lexed.token ++ rest ∧
      item.Spelled tokens ∧ item.Denotes alphabet range := by
  unfold readItem at read
  split at read
  next lexeme start stop _ =>
    cases read
    exact ⟨.any, [⟨.any, lexeme, start, stop⟩], rfl, .any rfl, .any⟩
  next =>
    rcases isKey : readKey alphabet lexed with problem | ⟨low, behind, _⟩
    · simp only [isKey] at read
      cases read
    · rcases readKey_eq_ok isKey with ⟨token, rfl, kind, literal⟩
      rcases upper : readUpper alphabet low behind with problem | ⟨range, rest, _⟩
      · simp only [isKey, upper] at read
        cases read
      · simp only [isKey, upper] at read
        cases read
        rcases readUpper_eq_ok upper with ⟨rfl, rfl⟩ |
          ⟨dots, highToken, high, rfl, isDots, highKind, highLiteral, ordered, rfl⟩
        · exact ⟨.single token.lexeme, [token], rfl, .single kind, .single literal⟩
        · exact ⟨.range token.lexeme highToken.lexeme, [token, dots, highToken], rfl,
            .range kind isDots highKind, .range literal highLiteral ordered⟩

theorem readItem_key {behind : List Lexed} {low : Key} {range : KeyRange}
    {shorter : behind.length < lexed.length} {notLonger : rest.length ≤ behind.length}
    (isKey : readKey alphabet lexed = .ok (low, ⟨behind, shorter⟩))
    (upper : readUpper alphabet low behind = .ok (range, ⟨rest, notLonger⟩)) :
    readItem alphabet lexed = .ok (range, ⟨rest, by omega⟩) := by
  unfold readItem
  split
  next => cases isKey
  next => simp only [isKey, upper]

/-- An item that is spelled before anything but dots is read as the range it denotes. -/
theorem readItem_spelled {item : KeyItem} {range : KeyRange} {tokens : List Token}
    (spelled : item.Spelled tokens) (denotes : item.Denotes alphabet range)
    (noDots : NoDots rest) :
    ∃ shorter, readItem alphabet (tokens.map Lexed.token ++ rest) =
      .ok (range, ⟨rest, shorter⟩) := by
  cases spelled with
  | @any token isAny =>
      rcases token with ⟨kind, lexeme, start, stop⟩
      obtain rfl : kind = .any := isAny
      cases denotes
      exact ⟨_, rfl⟩
  | @single token kind =>
      cases denotes with
      | single literal =>
          exact ⟨_, readItem_key (readKey_cons kind literal rest) (readUpper_noDots noDots _)⟩
  | @range low dots high lowKind isDots highKind =>
      cases denotes with
      | range lowLiteral highLiteral ordered =>
          exact ⟨_, readItem_key (readKey_cons lowKind lowLiteral _)
            (readUpper_dots isDots highKind highLiteral ordered noDots)⟩

/-! ## Rows of items -/

def AtEnd (rest : List Lexed) : Prop :=
  ∀ next ∈ rest.head?, ∃ token, next = .token token ∧ token.kind = .endOfText

theorem AtEnd.noDots (atEnd : AtEnd rest) : NoDots rest := by
  intro next member
  rcases atEnd next member with ⟨token, rfl, kind⟩
  exact ⟨token, rfl, by rw [kind]; decide⟩

theorem readItems_atEnd {range : KeyRange} {shorter : rest.length < lexed.length}
    (read : readItem alphabet lexed = .ok (range, ⟨rest, shorter⟩)) (atEnd : AtEnd rest) :
    readItems alphabet lexed = .ok [range] := by
  rw [readItems, read]
  cases rest with
  | nil => rfl
  | cons next rest =>
      rcases atEnd next rfl with ⟨token, rfl, kind⟩
      simp only [kind]

theorem readItems_comma {range : KeyRange} {comma : Token} {ranges : List KeyRange}
    {shorter : (Lexed.token comma :: rest).length < lexed.length}
    (read : readItem alphabet lexed = .ok (range, ⟨.token comma :: rest, shorter⟩))
    (isComma : comma.kind = .comma) (behind : readItems alphabet rest = .ok ranges) :
    readItems alphabet lexed = .ok (range :: ranges) := by
  rw [readItems, read]
  simp only [isComma, behind]

/-- Items are read from a text exactly if it starts with tokens that spell items denoting the ranges
read, and is over behind them. -/
theorem readItems_eq_ok_iff {ranges : List KeyRange} :
    readItems alphabet lexed = .ok ranges ↔
      ∃ items tokens rest, lexed = tokens.map Lexed.token ++ rest ∧ AtEnd rest ∧
        SpelledAll items tokens ∧ List.Forall₂ (Denotes alphabet) items ranges := by
  constructor
  · intro readAll
    fun_induction readItems alphabet lexed generalizing ranges with
    | case1 => cases readAll
    | case2 lexed range _ read =>
        cases readAll
        rcases readItem_eq_ok read with ⟨item, tokens, rfl, spelled, denotes⟩
        exact ⟨[item], tokens, [], rfl, by simp [AtEnd], .last spelled, .cons denotes .nil⟩
    | case3 => cases readAll
    | case4 lexed range token rest _ read kind =>
        cases readAll
        rcases readItem_eq_ok read with ⟨item, tokens, rfl, spelled, denotes⟩
        refine ⟨[item], tokens, .token token :: rest, rfl, ?_, .last spelled, .cons denotes .nil⟩
        rintro next ⟨⟩
        exact ⟨token, rfl, kind⟩
    | case5 => cases readAll
    | case6 lexed range comma rest _ read isComma ranges behind induction =>
        cases readAll
        rcases readItem_eq_ok read with ⟨item, tokens, rfl, spelled, denotes⟩
        rcases induction behind with ⟨items, moreTokens, rest, rfl, atEnd, spelledAll, denoteAll⟩
        exact ⟨item :: items, tokens ++ comma :: moreTokens, rest, by simp, atEnd,
          .more spelled isComma spelledAll, .cons denotes denoteAll⟩
    | case7 => cases readAll
  · rintro ⟨items, tokens, rest, rfl, atEnd, spelledAll, denoteAll⟩
    induction spelledAll generalizing ranges with
    | last spelled =>
        cases denoteAll with
        | cons denotes none =>
            cases none
            rcases readItem_spelled spelled denotes atEnd.noDots with ⟨_, read⟩
            exact readItems_atEnd read atEnd
    | @more item items comma tokens more spelled isComma _ induction =>
        cases denoteAll with
        | @cons _ range _ ranges denotes denoteAll =>
            have noDots : NoDots (.token comma :: (more.map Lexed.token ++ rest)) := by
              rintro next ⟨⟩
              exact ⟨comma, rfl, by rw [isComma]; decide⟩
            rcases readItem_spelled spelled denotes noDots with ⟨_, read⟩
            rw [List.map_append, List.map_cons, List.append_assoc, List.cons_append]
            exact readItems_comma read isComma (induction denoteAll)

end KeyExpression

/-! ## Texts -/

theorem KeyItem.SpelledAll.kind_ne {items : List KeyItem} {tokens : List Token}
    (spelledAll : SpelledAll items tokens) : ∀ token ∈ tokens, token.kind ≠ .endOfText := by
  have isKey : ∀ {kind : TokenKind}, kind ∈ keyKinds → kind ≠ .endOfText := by
    rintro kind member rfl
    exact absurd member (by decide)
  have ofItem : ∀ {item : KeyItem} {tokens : List Token}, item.Spelled tokens →
      ∀ token ∈ tokens, token.kind ≠ .endOfText := by
    intro item tokens spelled
    cases spelled with
    | any isAny => simp [isAny]
    | single kind => simpa using isKey kind
    | range lowKind isDots highKind => simp [isDots, isKey lowKind, isKey highKind]
  induction spelledAll with
  | last spelled => exact ofItem spelled
  | more spelled isComma _ induction =>
      intro token member
      rcases List.mem_append.mp member with member | member
      · exact ofItem spelled token member
      · rcases List.mem_cons.mp member with rfl | member
        · rw [isComma]
          decide
        · exact induction token member

theorem Lexed.exists_ofText (text : String) :
    ∃ front ending, Lexed.ofText text = front ++ [.token ending] ∧ ending.kind = .endOfText ∧
      ∀ token, .token token ∈ front → token.kind ≠ .endOfText := by
  refine ⟨_, _, rfl, rfl, ?_⟩
  intro token member isEnd
  rcases List.mem_filterMap.mp member with ⟨segment, isSegment, lexed⟩
  have kind : segment.kind = .token .endOfText := by
    unfold ofSegment at lexed
    split at lexed
    next => cases lexed
    next kind same =>
      cases lexed
      rw [same, ← isEnd]
    next => cases lexed
  have listed : ∀ rule ∈ LexicalRule.keyExpression, rule.kind ≠ .token .endOfText := by
    simp [LexicalRule.keyExpression]
  rcases Segment.kind_of_mem_cut 0 _ isSegment with unmatched | ⟨rule, isRule, same⟩
  · rw [unmatched] at kind
    cases kind
  · exact listed rule isRule (same.trans kind)

namespace Alphabet

open KeyItem KeyExpression

variable (alphabet : Alphabet) {text : String} {ranges : List KeyRange}

theorem readKeyList_eq_ok_iff :
    alphabet.readKeyList text = .ok ranges ↔
      ∃ items tokens ending, Lexed.ofText text = (tokens ++ [ending]).map Lexed.token ∧
        ending.kind = .endOfText ∧ SpelledAll items tokens ∧
          List.Forall₂ (Denotes alphabet) items ranges := by
  unfold readKeyList
  rw [readItems_eq_ok_iff]
  constructor
  · rintro ⟨items, tokens, rest, split, atEnd, spelledAll, denoteAll⟩
    rcases Lexed.exists_ofText text with ⟨front, ending, whole, isEnd, before⟩
    refine ⟨items, tokens, ending, ?_, isEnd, spelledAll, denoteAll⟩
    rw [List.map_append, List.map_singleton]
    rcases List.append_eq_append_iff.mp (whole.symm.trans split) with
      ⟨more, behind, last⟩ | ⟨more, rfl, rfl⟩
    · cases more with
      | nil => rw [whole, behind, List.append_nil]
      | cons next more =>
          -- the end of text is no token of an item
          obtain rfl := (List.cons.inj last).1
          have member : Lexed.token ending ∈ tokens.map Lexed.token := by simp [behind]
          rcases List.mem_map.mp member with ⟨token, isToken, same⟩
          cases same
          exact absurd isEnd (spelledAll.kind_ne ending isToken)
    · cases more with
      | nil => rw [whole, List.append_nil]
      | cons next more =>
          -- the items stop at the end of text only
          rcases atEnd next rfl with ⟨token, rfl, kind⟩
          exact absurd kind (before token (by simp))
  · rintro ⟨items, tokens, ending, split, isEnd, spelledAll, denoteAll⟩
    refine ⟨items, tokens, [.token ending], by rw [split, List.map_append]; rfl, ?_, spelledAll,
      denoteAll⟩
    rintro next ⟨⟩
    exact ⟨ending, rfl, isEnd⟩

/-- A text is read as a key list exactly if it is cut into tokens without a part that is unmatched,
and the tokens before the end are one or more items with commas between them, each with literals
that are read as keys and bounds in order. The ranges of the items are read, in their order, and the
bounds of all of them are in order. -/
theorem readKeyList_exact_grammar (alphabet : Alphabet) (text : String) :
    (∀ ranges, alphabet.readKeyList text = .ok ranges ↔
      ∃ items tokens ending, Lexed.ofText text = (tokens ++ [ending]).map Lexed.token ∧
        ending.kind = .endOfText ∧ SpelledAll items tokens ∧
          List.Forall₂ (Denotes alphabet) items ranges) ∧
    (alphabet.Declared → ∀ ranges, alphabet.readKeyList text = .ok ranges →
      ∀ range ∈ ranges, alphabet.value range.low ≤ alphabet.value range.high) := by
  refine ⟨fun ranges => alphabet.readKeyList_eq_ok_iff, fun declared ranges read => ?_⟩
  rcases alphabet.readKeyList_eq_ok_iff.mp read with ⟨_, _, _, _, _, _, denoteAll⟩
  exact Denotes.all_ordered denoteAll declared.upright

/-- A range of characters and a blank before a number. -/
theorem readKeyList_exact_grammar_sample :
    (full ⟨false, .one⟩).Declared ∧
    (full ⟨false, .one⟩).readKeyList "'0'..'9', 0x7" =
      .ok [⟨.ofInt 48, .ofInt 57⟩, ⟨.ofInt 7, .ofInt 7⟩] ∧
    ∀ range ∈ [KeyRange.mk (.ofInt 48) (.ofInt 57), ⟨.ofInt 7, .ofInt 7⟩],
      (full ⟨false, .one⟩).value range.low ≤ (full ⟨false, .one⟩).value range.high := by
  have exact := readKeyList_exact_grammar (full ⟨false, .one⟩) "'0'..'9', 0x7"
  have digits := @Spelled.range ⟨.character, "'0'", 0, 3⟩ ⟨.dots, "..", 3, 5⟩
    ⟨.character, "'9'", 5, 8⟩ (by decide) rfl (by decide)
  have seven := @Spelled.single ⟨.number, "0x7", 10, 13⟩ (by decide)
  have spelled := @SpelledAll.more _ _ ⟨.comma, ",", 8, 9⟩ _ _ digits rfl (.last seven)
  have read := (exact.1 [⟨.ofInt 48, .ofInt 57⟩, ⟨.ofInt 7, .ofInt 7⟩]).mpr
    ⟨_, _, ⟨.endOfText, "", 13, 13⟩, by decide +kernel, rfl, spelled,
      .cons (.range rfl rfl (by decide)) (.cons (.single rfl) .nil)⟩
  exact ⟨.full _, read, exact.2 (.full _) _ read⟩

end Alphabet

end StateTables
