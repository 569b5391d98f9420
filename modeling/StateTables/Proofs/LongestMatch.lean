import StateTables.KeyExpression.Token

/-! # Longest matches

The derivative of a pattern by a byte matches what the pattern matches behind that byte. So the
rules that are left after some bytes are those that may still match, and reading until none is left
finds the longest prefix that a rule matches, and the earliest rule that matches it. Where no rule
matches a prefix, what has been read is a segment of its own.
-/

namespace StateTables

namespace Pattern

/-! ## What a pattern matches -/

@[simp] theorem not_matches_nothing {bytes : List UInt8} : ¬Matches .nothing bytes := by
  rintro ⟨⟩

@[simp] theorem matches_empty_iff {bytes : List UInt8} : Matches .empty bytes ↔ bytes = [] :=
  ⟨fun matched => by cases matched; rfl, fun equal => equal ▸ .empty⟩

@[simp] theorem matches_byte_iff {accepts : UInt8 → Bool} {bytes : List UInt8} :
    Matches (.byte accepts) bytes ↔ ∃ value, accepts value = true ∧ bytes = [value] := by
  constructor
  · intro matched
    cases matched with
    | byte accepted => exact ⟨_, accepted, rfl⟩
  · rintro ⟨value, accepted, rfl⟩
    exact .byte accepted

theorem matches_sequence_iff {first second : Pattern} {bytes : List UInt8} :
    Matches (.sequence first second) bytes ↔
      ∃ front back, Matches first front ∧ Matches second back ∧ bytes = front ++ back := by
  constructor
  · intro matched
    cases matched with
    | sequence inFront behind => exact ⟨_, _, inFront, behind, rfl⟩
  · rintro ⟨front, back, inFront, behind, rfl⟩
    exact .sequence inFront behind

@[simp] theorem matches_choice_iff {left right : Pattern} {bytes : List UInt8} :
    Matches (.choice left right) bytes ↔ Matches left bytes ∨ Matches right bytes := by
  constructor
  · intro matched
    cases matched with
    | left matched => exact .inl matched
    | right matched => exact .inr matched
  · rintro (matched | matched)
    · exact .left matched
    · exact .right matched

theorem matches_repeated_byte {accepts : UInt8 → Bool} {bytes : List UInt8} (someByte : bytes ≠ [])
    (accepted : ∀ value ∈ bytes, accepts value = true) :
    Matches (.repeated (.byte accepts)) bytes := by
  induction bytes with
  | nil => exact absurd rfl someByte
  | cons first rest induction =>
      have head : Matches (.byte accepts) [first] := .byte (accepted first (by simp))
      cases rest with
      | nil => exact .once head
      | cons second rest =>
          exact .more head
            (induction (by simp) fun value member => accepted value (by simp [member]))

theorem nullable_iff (pattern : Pattern) : pattern.nullable = true ↔ Matches pattern [] := by
  induction pattern with
  | nothing => simp [nullable]
  | empty => simp [nullable]
  | byte accepts => simp [nullable]
  | sequence first second firstInduction secondInduction =>
      rw [nullable, Bool.and_eq_true, firstInduction, secondInduction, matches_sequence_iff]
      constructor
      · rintro ⟨inFront, behind⟩
        exact ⟨[], [], inFront, behind, rfl⟩
      · rintro ⟨front, back, inFront, behind, nothing⟩
        obtain ⟨rfl, rfl⟩ := List.append_eq_nil_iff.mp nothing.symm
        exact ⟨inFront, behind⟩
  | choice left right leftInduction rightInduction =>
      simp [nullable, leftInduction, rightInduction]
  | repeated item induction =>
      rw [nullable, induction]
      constructor
      · exact .once
      · intro matched
        generalize nothing : ([] : List UInt8) = bytes at matched
        cases matched with
        | once matched => exact matched
        | more inFront behind =>
            obtain ⟨rfl, rfl⟩ := List.append_eq_nil_iff.mp nothing.symm
            exact inFront

/-! ## Derivatives -/

@[simp] theorem matches_followedBy_iff {first second : Pattern} {bytes : List UInt8} :
    Matches (first.followedBy second) bytes ↔ Matches (.sequence first second) bytes := by
  cases first with
  | nothing => simp [followedBy, matches_sequence_iff]
  | _ => rfl

@[simp] theorem matches_orElse_iff {left right : Pattern} {bytes : List UInt8} :
    Matches (left.orElse right) bytes ↔ Matches left bytes ∨ Matches right bytes := by
  unfold orElse
  split <;> simp

/-- A match of a sequence that starts with a byte starts in the first part, unless that part matches
nothing at all. -/
theorem matches_sequence_cons_iff {first second : Pattern} {value : UInt8} {bytes : List UInt8} :
    Matches (.sequence first second) (value :: bytes) ↔
      (∃ front back, Matches first (value :: front) ∧ Matches second back ∧ bytes = front ++ back) ∨
        Matches first [] ∧ Matches second (value :: bytes) := by
  rw [matches_sequence_iff]
  constructor
  · rintro ⟨front, back, inFront, behind, split⟩
    cases front with
    | nil => exact .inr ⟨inFront, split ▸ behind⟩
    | cons head front =>
        obtain ⟨rfl, rfl⟩ := List.cons.inj split
        exact .inl ⟨front, back, inFront, behind, rfl⟩
  · rintro (⟨front, back, inFront, behind, rfl⟩ | ⟨inFront, behind⟩)
    · exact ⟨value :: front, back, inFront, behind, rfl⟩
    · exact ⟨[], value :: bytes, inFront, behind, rfl⟩

/-- The first repetition that is not empty takes the first byte. -/
theorem matches_repeated_cons_iff {item : Pattern} {value : UInt8} {bytes : List UInt8} :
    Matches (.repeated item) (value :: bytes) ↔
      ∃ front back, Matches item (value :: front) ∧
        Matches (.choice .empty (.repeated item)) back ∧ bytes = front ++ back := by
  constructor
  · intro matched
    generalize whole : value :: bytes = text at matched
    generalize row : Pattern.repeated item = pattern at matched
    induction matched with
    | once matched =>
        cases row
        exact ⟨bytes, [], whole ▸ matched, .left .empty, by simp⟩
    | @more _ front back inFront behind _ induction =>
        cases row
        cases front with
        | nil => exact induction whole rfl
        | cons head front =>
            obtain ⟨rfl, rfl⟩ := List.cons.inj whole
            exact ⟨front, back, inFront, .right behind, rfl⟩
    | _ => cases row
  · rintro ⟨front, back, inFront, behind, rfl⟩
    rcases matches_choice_iff.mp behind with ended | behind
    · rw [matches_empty_iff.mp ended, List.append_nil]
      exact .once inFront
    · exact .more inFront behind

theorem matches_derivative_iff (pattern : Pattern) (value : UInt8) (bytes : List UInt8) :
    Matches (pattern.derivative value) bytes ↔ Matches pattern (value :: bytes) := by
  induction pattern generalizing bytes with
  | nothing => simp [derivative]
  | empty => simp [derivative]
  | byte accepts =>
      unfold derivative
      split
      next accepted =>
        rw [matches_empty_iff, matches_byte_iff]
        constructor
        · rintro rfl
          exact ⟨value, accepted, rfl⟩
        · rintro ⟨other, _, same⟩
          exact (List.cons.inj same).2
      next refused =>
        rw [matches_byte_iff]
        constructor
        · exact fun matched => absurd matched not_matches_nothing
        · rintro ⟨other, accepted, same⟩
          exact absurd ((List.cons.inj same).1 ▸ accepted) refused
  | sequence first second firstInduction secondInduction =>
      rw [matches_sequence_cons_iff, ← nullable_iff]
      unfold derivative
      split
      next empty =>
        simp only [matches_orElse_iff, matches_followedBy_iff, matches_sequence_iff,
          firstInduction, secondInduction, empty, true_and]
      next notEmpty =>
        simp [matches_sequence_iff, firstInduction, notEmpty]
  | choice left right leftInduction rightInduction =>
      simp [derivative, leftInduction, rightInduction]
  | repeated item induction =>
      rw [matches_repeated_cons_iff]
      simp [derivative, matches_sequence_iff, induction]

/-- A pattern that can not go on behind a byte matches nothing that starts with it. -/
theorem alive_derivative {pattern : Pattern} {value : UInt8} {bytes : List UInt8}
    (matched : pattern.Matches (value :: bytes)) : (pattern.derivative value).alive = true := by
  have behind := (matches_derivative_iff pattern value bytes).mpr matched
  generalize pattern.derivative value = left at behind
  cases left with
  | nothing => exact absurd behind not_matches_nothing
  | _ => rfl

/-! ## Bytes a pattern mentions -/

/-- Can the byte stand anywhere in a match? -/
def mentions (value : UInt8) : Pattern → Bool
  | .nothing => false
  | .empty => false
  | .byte accepts => accepts value
  | .sequence first second => first.mentions value || second.mentions value
  | .choice left right => left.mentions value || right.mentions value
  | .repeated item => item.mentions value

theorem mentions_of_matches {pattern : Pattern} {bytes : List UInt8}
    (matched : pattern.Matches bytes) {value : UInt8} (member : value ∈ bytes) :
    pattern.mentions value = true := by
  induction matched with
  | empty => cases member
  | byte accepted => exact List.mem_singleton.mp member ▸ accepted
  | sequence _ _ frontInduction backInduction =>
      rw [mentions, Bool.or_eq_true]
      exact (List.mem_append.mp member).imp frontInduction backInduction
  | left _ induction =>
      rw [mentions, induction member, Bool.true_or]
  | right _ induction =>
      rw [mentions, induction member, Bool.or_true]
  | once _ induction => exact induction member
  | more _ _ frontInduction backInduction =>
      exact (List.mem_append.mp member).elim frontInduction backInduction

theorem matches_repeated_byte_iff {accepts : UInt8 → Bool} {bytes : List UInt8} :
    Matches (.repeated (.byte accepts)) bytes ↔
      bytes ≠ [] ∧ ∀ value ∈ bytes, accepts value = true := by
  constructor
  · refine fun matched => ⟨?_, fun value => mentions_of_matches matched⟩
    rintro rfl
    exact absurd ((nullable_iff _).mpr matched) (by simp [nullable])
  · exact fun ⟨someByte, accepted⟩ => matches_repeated_byte someByte accepted

end Pattern

namespace LexicalRule

/-! ## The earliest rule -/

/-- Some rule matches the bytes, and the earliest one that does makes segments of the kind. -/
inductive Recognizes : List LexicalRule → List UInt8 → SegmentKind → Prop where
  | here {rule : LexicalRule} {later : List LexicalRule} {bytes : List UInt8} :
      rule.pattern.Matches bytes → Recognizes (rule :: later) bytes rule.kind
  | later {rule : LexicalRule} {later : List LexicalRule} {bytes : List UInt8}
      {kind : SegmentKind} :
      ¬rule.pattern.Matches bytes → Recognizes later bytes kind →
      Recognizes (rule :: later) bytes kind

variable {rules : List LexicalRule} {bytes : List UInt8} {kind : SegmentKind}

theorem Recognizes.unique {other : SegmentKind} (recognized : Recognizes rules bytes kind)
    (again : Recognizes rules bytes other) : kind = other := by
  induction recognized with
  | here matched =>
      cases again with
      | here => rfl
      | later unmatched => exact absurd matched unmatched
  | later unmatched _ induction =>
      cases again with
      | here matched => exact absurd matched unmatched
      | later _ again => exact induction again

theorem Recognizes.exists_rule (recognized : Recognizes rules bytes kind) :
    ∃ rule ∈ rules, rule.kind = kind ∧ rule.pattern.Matches bytes := by
  induction recognized with
  | here matched => exact ⟨_, List.mem_cons_self, rfl, matched⟩
  | later _ _ induction =>
      rcases induction with ⟨rule, member, same, matched⟩
      exact ⟨rule, List.mem_cons_of_mem _ member, same, matched⟩

theorem accepted?_eq_some_iff : accepted? rules = some kind ↔ Recognizes rules [] kind := by
  induction rules with
  | nil =>
      constructor
      · rintro ⟨⟩
      · rintro ⟨⟩
  | cons rule later induction =>
      unfold accepted? at induction ⊢
      rw [List.find?_cons]
      cases empty : rule.pattern.nullable with
      | true =>
          have matched := (Pattern.nullable_iff _).mp empty
          constructor
          · rintro ⟨⟩
            exact .here matched
          · intro recognized
            exact congrArg some (Recognizes.unique (.here matched) recognized)
      | false =>
          have unmatched : ¬rule.pattern.Matches [] := by
            rw [← Pattern.nullable_iff, empty]
            decide
          constructor
          · exact fun found => .later unmatched (induction.mp found)
          · intro recognized
            cases recognized with
            | here matched => exact absurd matched unmatched
            | later _ recognized => exact induction.mpr recognized

theorem advance_cons (value : UInt8) (rule : LexicalRule) (later : List LexicalRule) :
    advance value (rule :: later) =
      if (rule.pattern.derivative value).alive then
        ⟨rule.kind, rule.pattern.derivative value⟩ :: advance value later
      else advance value later := by
  unfold advance
  rw [List.map_cons, List.filter_cons]

/-- What the rules left after a byte recognize is what the rules recognize behind that byte. -/
theorem recognizes_advance_iff (value : UInt8) :
    Recognizes (advance value rules) bytes kind ↔ Recognizes rules (value :: bytes) kind := by
  induction rules with
  | nil =>
      constructor
      · rintro ⟨⟩
      · rintro ⟨⟩
  | cons rule later induction =>
      have same := Pattern.matches_derivative_iff rule.pattern value bytes
      rw [advance_cons]
      split
      next =>
        constructor
        · intro recognized
          cases recognized with
          | here matched => exact .here (same.mp matched)
          | later unmatched recognized =>
              exact .later (mt same.mpr unmatched) (induction.mp recognized)
        · intro recognized
          cases recognized with
          | here matched =>
              exact @Recognizes.here ⟨rule.kind, rule.pattern.derivative value⟩ _ _
                (same.mpr matched)
          | later unmatched recognized =>
              exact .later (mt same.mp unmatched) (induction.mpr recognized)
      next dead =>
        have unmatched : ¬rule.pattern.Matches (value :: bytes) := fun matched =>
          dead (Pattern.alive_derivative matched)
        rw [induction]
        constructor
        · exact .later unmatched
        · intro recognized
          cases recognized with
          | here matched => exact absurd matched unmatched
          | later _ recognized => exact recognized

/-! ## The longest prefix -/

/-- The lexeme is the longest prefix of the text that a rule matches: nothing that goes on into the
rest is matched. -/
structure Longest (rules : List LexicalRule) (kind : SegmentKind) (lexeme rest : List UInt8) :
    Prop where
  recognized : Recognizes rules lexeme kind
  longest : ∀ front back, rest = front ++ back → front ≠ [] →
    ∀ other, ¬Recognizes rules (lexeme ++ front) other

/-- No rule matches a prefix of the text. -/
def Unrecognized (rules : List LexicalRule) (text : List UInt8) : Prop :=
  ∀ front back, text = front ++ back → front ≠ [] → ∀ kind, ¬Recognizes rules front kind

theorem Longest.unique {other : SegmentKind} {lexeme rest otherLexeme otherRest : List UInt8}
    (longest : Longest rules kind lexeme rest)
    (otherLongest : Longest rules other otherLexeme otherRest)
    (same : lexeme ++ rest = otherLexeme ++ otherRest) :
    lexeme = otherLexeme ∧ rest = otherRest ∧ kind = other := by
  rcases List.append_eq_append_iff.mp same with ⟨more, rfl, rfl⟩ | ⟨more, rfl, rfl⟩
  · cases more with
    | nil =>
        rw [List.append_nil] at otherLongest ⊢
        exact ⟨rfl, rfl, longest.recognized.unique otherLongest.recognized⟩
    | cons first more =>
        exact absurd otherLongest.recognized (longest.longest _ _ rfl (by simp) other)
  · cases more with
    | nil =>
        rw [List.append_nil] at longest ⊢
        exact ⟨rfl, rfl, longest.recognized.unique otherLongest.recognized⟩
    | cons first more =>
        exact absurd longest.recognized (otherLongest.longest _ _ rfl (by simp) kind)

theorem Longest.not_unrecognized {lexeme rest : List UInt8}
    (longest : Longest rules kind lexeme rest) (someByte : lexeme ≠ []) :
    ¬Unrecognized rules (lexeme ++ rest) :=
  fun unrecognized => unrecognized lexeme rest rfl someByte kind longest.recognized

/-! ### Behind a byte -/

section Advance

variable {value : UInt8} {lexeme rest : List UInt8}

theorem unrecognized_cons (notHere : accepted? (advance value rules) = none)
    (behind : Unrecognized (advance value rules) rest) : Unrecognized rules (value :: rest) := by
  intro front back split someByte kind recognized
  cases front with
  | nil => exact someByte rfl
  | cons head front =>
      obtain ⟨rfl, rfl⟩ := List.cons.inj split
      have left := (recognizes_advance_iff value).mpr recognized
      cases front with
      | nil =>
          rw [← accepted?_eq_some_iff, notHere] at left
          cases left
      | cons second front => exact behind _ back rfl (by simp) kind left

theorem unrecognized_of_dead (dead : advance value rules = []) :
    Unrecognized rules (value :: rest) := by
  refine unrecognized_cons (by rw [dead]; rfl) fun front back split someByte kind recognized => ?_
  rw [dead] at recognized
  cases recognized

/-- The byte alone is the longest prefix if it is recognized, but nothing behind it. -/
theorem Longest.single (here : accepted? (advance value rules) = some kind)
    (behind : Unrecognized (advance value rules) rest) : Longest rules kind [value] rest where
  recognized := by rw [← recognizes_advance_iff, ← accepted?_eq_some_iff, here]
  longest := fun front back split someByte other recognized =>
    behind front back split someByte other ((recognizes_advance_iff value).mpr recognized)

theorem Longest.cons (longest : Longest (advance value rules) kind lexeme rest) :
    Longest rules kind (value :: lexeme) rest where
  recognized := (recognizes_advance_iff value).mp longest.recognized
  longest := fun front back split someByte other recognized =>
    longest.longest front back split someByte other
      ((recognizes_advance_iff value).mpr recognized)

end Advance

/-- A lexeme is the longest one if no rule that can start like it mentions the byte behind it. -/
theorem Longest.of_barrier {first : UInt8} {more rest : List UInt8}
    (recognized : Recognizes rules (first :: more) kind)
    (barrier : ∀ value ∈ rest.head?, ∀ rule ∈ rules,
      (rule.pattern.derivative first).alive = true → rule.pattern.mentions value = false) :
    Longest rules kind (first :: more) rest where
  recognized := recognized
  longest := by
    rintro front back rfl someByte other further
    cases front with
    | nil => exact someByte rfl
    | cons value front =>
        rcases further.exists_rule with ⟨rule, member, _, matched⟩
        have inside : value ∈ first :: more ++ value :: front := by simp
        have mentioned := Pattern.mentions_of_matches matched inside
        rw [barrier value rfl rule member (Pattern.alive_derivative matched)] at mentioned
        cases mentioned

end LexicalRule

namespace Munch

open LexicalRule

variable {rules : List LexicalRule}

theorem run_cons (rules : List LexicalRule) (read : Nat) (best : Option (Nat × SegmentKind))
    (value : UInt8) (rest : List UInt8) :
    run rules read best (value :: rest) =
      if advance value rules = [] then ⟨read + 1, best⟩
      else run (advance value rules) (read + 1)
        (((accepted? (advance value rules)).map fun kind => (read + 1, kind)).or best) rest := by
  rw [run]
  split
  next dead => rw [if_pos dead]
  next alive =>
    rw [if_neg alive]
    cases accepted? (advance value rules) <;> rfl

/-- Reading keeps the best match so far exactly if no prefix is recognized, and otherwise ends with
the longest one. -/
theorem best_run (rules : List LexicalRule) (read : Nat) (best : Option (Nat × SegmentKind))
    (text : List UInt8) :
    (Unrecognized rules text ∧ (run rules read best text).best = best) ∨
      ∃ lexeme rest kind, text = lexeme ++ rest ∧ lexeme ≠ [] ∧ Longest rules kind lexeme rest ∧
        (run rules read best text).best = some (read + lexeme.length, kind) := by
  induction text generalizing rules read best with
  | nil =>
      refine .inl ⟨fun front back split someByte => ?_, rfl⟩
      exact absurd (List.append_eq_nil_iff.mp split.symm).1 someByte
  | cons value rest induction =>
      rw [run_cons]
      split
      next dead => exact .inl ⟨unrecognized_of_dead dead, rfl⟩
      next =>
        rcases induction (advance value rules) (read + 1)
          (((accepted? (advance value rules)).map fun kind => (read + 1, kind)).or best) with
          ⟨unrecognized, kept⟩ | ⟨lexeme, rest, kind, rfl, someByte, longest, found⟩
        · -- nothing longer than the byte is recognized, perhaps the byte itself
          rw [kept]
          cases here : accepted? (advance value rules) with
          | none => exact .inl ⟨unrecognized_cons here unrecognized, rfl⟩
          | some kind => exact .inr ⟨[value], rest, kind, rfl, by simp, .single here unrecognized, rfl⟩
        · refine .inr ⟨value :: lexeme, rest, kind, rfl, by simp, longest.cons, ?_⟩
          rw [found, List.length_cons, Nat.add_right_comm, Nat.add_assoc]

theorem kind_outcome (rules : List LexicalRule) (text : List UInt8) :
    (run rules 0 none text).outcome.2 = .unmatched ∨
      ∃ rule ∈ rules, rule.kind = (run rules 0 none text).outcome.2 := by
  unfold outcome
  rcases best_run rules 0 none text with ⟨_, best⟩ | ⟨_, _, kind, _, _, longest, best⟩
  · exact .inl (by rw [best]; rfl)
  · rcases longest.recognized.exists_rule with ⟨rule, member, same, _⟩
    exact .inr ⟨rule, member, by rw [best]; exact same⟩

end Munch

namespace Segment

open LexicalRule

variable {rules : List LexicalRule}

theorem cut_cons {first : UInt8} {rest : List UInt8} {length : Nat} {kind : SegmentKind}
    (outcome : (Munch.run rules 0 none (first :: rest)).outcome = (length, kind)) (offset : Nat) :
    cut rules offset (first :: rest) = ⟨kind, offset, first :: rest.take (length - 1)⟩ ::
      cut rules (offset + (first :: rest.take (length - 1)).length) (rest.drop (length - 1)) := by
  have stop : ∀ taken : List UInt8, offset + 1 + taken.length = offset + (first :: taken).length :=
    fun taken => by rw [List.length_cons, Nat.add_assoc, Nat.add_comm 1]
  rw [cut, outcome]
  simp only [stop]

theorem cut_of_longest {kind : SegmentKind} {lexeme rest : List UInt8}
    (longest : Longest rules kind lexeme rest) (someByte : lexeme ≠ []) (offset : Nat) :
    cut rules offset (lexeme ++ rest) =
      ⟨kind, offset, lexeme⟩ :: cut rules (offset + lexeme.length) rest := by
  have found : (Munch.run rules 0 none (lexeme ++ rest)).outcome = (lexeme.length, kind) := by
    rcases Munch.best_run rules 0 none (lexeme ++ rest) with
      ⟨unrecognized, _⟩ | ⟨other, otherRest, otherKind, same, _, otherLongest, best⟩
    · exact absurd unrecognized (longest.not_unrecognized someByte)
    · obtain ⟨rfl, rfl, rfl⟩ := longest.unique otherLongest same
      rw [Munch.outcome, best, Option.getD_some, Nat.zero_add]
  cases lexeme with
  | nil => exact absurd rfl someByte
  | cons first lexeme =>
      refine (cut_cons found offset).trans ?_
      simp

theorem cut_of_unrecognized {text : List UInt8} (unrecognized : Unrecognized rules text)
    (someByte : text ≠ []) (offset : Nat) :
    ∃ front back, text = front ++ back ∧ front ≠ [] ∧
      cut rules offset text = ⟨.unmatched, offset, front⟩ ::
        cut rules (offset + front.length) back := by
  cases text with
  | nil => exact absurd rfl someByte
  | cons first rest =>
      have kind : ∃ length, (Munch.run rules 0 none (first :: rest)).outcome =
          (length, .unmatched) := by
        rcases Munch.best_run rules 0 none (first :: rest) with
          ⟨_, best⟩ | ⟨lexeme, back, kind, split, someByte, longest, _⟩
        · exact ⟨_, by rw [Munch.outcome, best]; rfl⟩
        · exact absurd (split ▸ unrecognized) (longest.not_unrecognized someByte)
      rcases kind with ⟨length, outcome⟩
      refine ⟨first :: rest.take (length - 1), rest.drop (length - 1), ?_, by simp,
        cut_cons outcome offset⟩
      rw [List.cons_append, List.take_append_drop]

theorem kind_of_mem_cut (offset : Nat) (text : List UInt8) {segment : Segment}
    (member : segment ∈ cut rules offset text) :
    segment.kind = .unmatched ∨ ∃ rule ∈ rules, rule.kind = segment.kind := by
  fun_induction cut rules offset text with
  | case1 => cases member
  | case2 offset first rest length kind outcome more induction =>
      rcases List.mem_cons.mp member with rfl | member
      · have found := Munch.kind_outcome rules (first :: rest)
        rwa [outcome] at found
      · exact induction member

end Segment

end StateTables
