import StateTables.Alphabet.Literal
import StateTables.Proofs.StorageWidths

/-! # Range clauses

A range clause narrows an alphabet to the keys between two literals, or it leaves the alphabet as it
is and says why. Literals beyond the integer type are clamped to it and bounds in the wrong order
are refused. So however often an alphabet has been narrowed, its bounds are keys of the type, the
lower one not above the upper one.
-/

namespace StateTables

def KeyError.boundMessage (problem : KeyError) : String :=
  "alphabet range: " ++ problem.failure.message

theorem Diagnostics.foldl_report (messages : List String) (diagnostics : Diagnostics) :
    messages.foldl .report diagnostics = ⟨diagnostics.messages ++ messages⟩ := by
  induction messages generalizing diagnostics with
  | nil => rw [List.foldl_nil, List.append_nil]
  | cons message messages induction =>
      rw [List.foldl_cons, induction, report, List.append_assoc, List.singleton_append]

namespace Alphabet

variable (alphabet : Alphabet)

/-! ## Keys that are read -/

/-- What was read is a key of the type, also if it had to be clamped. -/
def Hosts (read : Except KeyError Key) : Prop :=
  match read with
  | .ok key => alphabet.host.Represents (alphabet.value key)
  | .error problem => problem.reason = .keyOverflow →
      alphabet.host.Represents (alphabet.value problem.key)

theorem represents_ofInt {number : Int} (represented : alphabet.host.Represents number) :
    alphabet.host.Represents (alphabet.value (.ofInt number)) := by
  have same : alphabet.value (.ofInt number) = number := IntegerType.value_ofInt represented
  rwa [same]

theorem represents_least : alphabet.host.Represents (alphabet.value (.ofInt alphabet.host.least)) :=
  alphabet.represents_ofInt <|
    IntegerType.represents_iff.mpr ⟨Int.le_refl _, IntegerType.least_le_greatest _⟩

theorem represents_greatest :
    alphabet.host.Represents (alphabet.value (.ofInt alphabet.host.greatest)) :=
  alphabet.represents_ofInt <|
    IntegerType.represents_iff.mpr ⟨IntegerType.least_le_greatest _, Int.le_refl _⟩

theorem hosts_keyOf (literal : String) (number : Int) :
    alphabet.Hosts (alphabet.keyOf literal number) := by
  unfold keyOf
  dsimp only
  split
  next => exact fun _ => alphabet.represents_least
  next notBelow =>
    split
    next => exact fun _ => alphabet.represents_greatest
    next notAbove =>
      exact alphabet.represents_ofInt
        (IntegerType.represents_iff.mpr ⟨Int.not_lt.mp notBelow, Int.not_lt.mp notAbove⟩)

theorem hosts_readKey (text : String) : alphabet.Hosts (alphabet.readKey text) := by
  unfold readKey
  dsimp only
  split
  next => rintro ⟨⟩
  next =>
    unfold readCharacter
    split
    next => rintro ⟨⟩
    next =>
      split
      next => exact alphabet.hosts_keyOf ..
      next => rintro ⟨⟩
  next =>
    unfold readNegative
    split
    next => exact alphabet.hosts_keyOf ..
    next => exact fun _ => alphabet.represents_least
    next => rintro ⟨⟩
  all_goals
    unfold readPositive
    split
    next => exact alphabet.hosts_keyOf ..
    next => exact fun _ => alphabet.represents_greatest
    next => rintro ⟨⟩

/-! ## What a clause does -/

/-- The literal gives a key, with the overflow that is to be reported if the key was clamped. -/
inductive Bounds (literal : String) : Key → List KeyError → Prop where
  | exact {key : Key} : alphabet.readKey literal = .ok key → Bounds literal key []
  | clamped {problem : KeyError} : alphabet.readKey literal = .error problem →
      problem.reason = .keyOverflow → Bounds literal problem.key [problem]

/-- Both literals give keys, the lower one not above the upper one. -/
inductive Narrows (low high : String) : Key → Key → List KeyError → Prop where
  | inOrder {lowKey highKey : Key} {lowProblems highProblems : List KeyError} :
      alphabet.Bounds low lowKey lowProblems → alphabet.Bounds high highKey highProblems →
      alphabet.value lowKey ≤ alphabet.value highKey →
      Narrows low high lowKey highKey (lowProblems ++ highProblems)

variable {alphabet : Alphabet} {literal low high : String} {key lowKey highKey : Key}
  {problems lowProblems highProblems : List KeyError}

theorem Bounds.unique {other : Key} {otherProblems : List KeyError}
    (bounds : alphabet.Bounds literal key problems)
    (again : alphabet.Bounds literal other otherProblems) :
    key = other ∧ problems = otherProblems := by
  cases bounds with
  | exact read =>
      cases again with
      | exact readAgain =>
          cases read.symm.trans readAgain
          exact ⟨rfl, rfl⟩
      | clamped readAgain => cases read.symm.trans readAgain
  | clamped read =>
      cases again with
      | exact readAgain => cases read.symm.trans readAgain
      | clamped readAgain =>
          cases read.symm.trans readAgain
          exact ⟨rfl, rfl⟩

theorem Bounds.represents (bounds : alphabet.Bounds literal key problems) :
    alphabet.host.Represents (alphabet.value key) := by
  have hosts := alphabet.hosts_readKey literal
  cases bounds with
  | exact read => rwa [read] at hosts
  | clamped read overflow =>
      rw [read] at hosts
      exact hosts overflow

theorem readBound_cases (alphabet : Alphabet) (literal : String) :
    (∃ key problems, alphabet.Bounds literal key problems ∧
      alphabet.readBound literal = (some key, problems.map KeyError.boundMessage)) ∨
    (∀ key problems, ¬alphabet.Bounds literal key problems) ∧
      ∃ problem : KeyError, alphabet.readBound literal = (none, [problem.boundMessage]) := by
  unfold readBound
  cases read : alphabet.readKey literal with
  | ok key => exact .inl ⟨key, [], .exact read, rfl⟩
  | error problem =>
      by_cases overflow : problem.reason = .keyOverflow
      · exact .inl ⟨problem.key, [problem], .clamped read overflow, by simp [overflow]; rfl⟩
      · refine .inr ⟨fun key problems bounds => ?_, problem, by simp [overflow]; rfl⟩
        cases bounds with
        | exact readAgain => cases read.symm.trans readAgain
        | clamped readAgain isOverflow =>
            cases read.symm.trans readAgain
            exact overflow isOverflow

/-- A clause sets the bounds to the keys of its literals and reports those that were clamped, or it
leaves the alphabet alone and reports something else. -/
theorem narrow_cases (alphabet : Alphabet) (low high : String) (diagnostics : Diagnostics) :
    (∃ lowKey highKey problems, alphabet.Narrows low high lowKey highKey problems ∧
      alphabet.narrow low high diagnostics = (⟨alphabet.host, lowKey, highKey, true⟩,
        ⟨diagnostics.messages ++ problems.map KeyError.boundMessage⟩)) ∨
    (∀ lowKey highKey problems, ¬alphabet.Narrows low high lowKey highKey problems) ∧
      ∃ added, added ≠ [] ∧
        alphabet.narrow low high diagnostics = (alphabet, ⟨diagnostics.messages ++ added⟩) := by
  unfold narrow
  simp only [Diagnostics.foldl_report]
  rcases readBound_cases alphabet low with
    ⟨lowKey, lowProblems, lowBounds, lowRead⟩ | ⟨noBound, problem, lowRead⟩
  · rcases readBound_cases alphabet high with
      ⟨highKey, highProblems, highBounds, highRead⟩ | ⟨noBound, problem, highRead⟩
    · rw [lowRead, highRead]
      dsimp only
      split
      next inverted =>
        refine .inr ⟨?_, (lowProblems ++ highProblems).map KeyError.boundMessage ++ [_], by simp,
          by rw [Diagnostics.report, List.append_assoc, List.map_append]⟩
        rintro _ _ _ ⟨lowAgain, highAgain, inOrder⟩
        obtain ⟨rfl, _⟩ := lowBounds.unique lowAgain
        obtain ⟨rfl, _⟩ := highBounds.unique highAgain
        rw [below_iff] at inverted
        omega
      next inOrder =>
        refine .inl ⟨lowKey, highKey, _, .inOrder lowBounds highBounds (by simpa using inOrder), ?_⟩
        rw [List.map_append]
    · rw [lowRead, highRead]
      refine .inr ⟨?_, _, List.append_ne_nil_of_right_ne_nil _ (List.cons_ne_nil _ []), rfl⟩
      rintro _ _ _ ⟨_, highAgain, _⟩
      exact noBound _ _ highAgain
  · rw [lowRead]
    refine .inr ⟨?_, _, List.cons_ne_nil _ [], rfl⟩
    rintro _ _ _ ⟨lowAgain, _, _⟩
    exact noBound _ _ lowAgain

/-- A clause that gives keys in order sets them, whatever was reported before. -/
theorem Narrows.narrow_eq (narrows : alphabet.Narrows low high lowKey highKey problems)
    (diagnostics : Diagnostics) :
    alphabet.narrow low high diagnostics = (⟨alphabet.host, lowKey, highKey, true⟩,
      ⟨diagnostics.messages ++ problems.map KeyError.boundMessage⟩) := by
  rcases alphabet.narrow_cases low high diagnostics with
    ⟨_, _, _, ⟨lowAgain, highAgain, _⟩, same⟩ | ⟨never, _⟩
  · rcases narrows with ⟨lowBounds, highBounds, _⟩
    obtain ⟨rfl, rfl⟩ := lowBounds.unique lowAgain
    obtain ⟨rfl, rfl⟩ := highBounds.unique highAgain
    exact same
  · exact absurd narrows (never _ _ _)

/-! ## Any number of clauses -/

/-- The alphabets there are: those of integer types, narrowed any number of times. -/
inductive Declared : Alphabet → Prop
  | full (host : IntegerType) : Declared (.full host)
  | narrow {alphabet : Alphabet} (low high : String) (diagnostics : Diagnostics) :
      Declared alphabet → Declared (alphabet.narrow low high diagnostics).1

theorem Declared.upright {alphabet : Alphabet} (declared : alphabet.Declared) :
    alphabet.value alphabet.low ≤ alphabet.value alphabet.high := by
  induction declared with
  | full host =>
      rcases host with ⟨signed, width⟩
      cases signed <;> cases width <;> decide +kernel
  | @narrow alphabet low high diagnostics _ induction =>
      rcases alphabet.narrow_cases low high diagnostics with
        ⟨_, _, _, ⟨_, _, inOrder⟩, same⟩ | ⟨_, _, _, same⟩
      · rw [same]
        exact inOrder
      · rwa [same]

theorem Declared.represents_bounds {alphabet : Alphabet} (declared : alphabet.Declared) :
    alphabet.host.Represents (alphabet.value alphabet.low) ∧
      alphabet.host.Represents (alphabet.value alphabet.high) := by
  induction declared with
  | full host => exact ⟨represents_least (.full host), represents_greatest (.full host)⟩
  | @narrow alphabet low high diagnostics _ induction =>
      rcases alphabet.narrow_cases low high diagnostics with
        ⟨_, _, _, ⟨lowBounds, highBounds, _⟩, same⟩ | ⟨_, _, _, same⟩
      · rw [same]
        exact ⟨lowBounds.represents, highBounds.represents⟩
      · rwa [same]

@[simp] theorem host_narrow (alphabet : Alphabet) (low high : String) (diagnostics : Diagnostics) :
    (alphabet.narrow low high diagnostics).1.host = alphabet.host := by
  rcases alphabet.narrow_cases low high diagnostics with ⟨_, _, _, _, same⟩ | ⟨_, _, _, same⟩ <;>
    rw [same]

def narrowAll (alphabet : Alphabet) (diagnostics : Diagnostics) (clauses : List (String × String)) :
    Alphabet × Diagnostics :=
  clauses.foldl (fun reached clause => reached.1.narrow clause.1 clause.2 reached.2)
    (alphabet, diagnostics)

theorem declared_narrowAll {alphabet : Alphabet} (declared : alphabet.Declared)
    (diagnostics : Diagnostics) (clauses : List (String × String)) :
    (alphabet.narrowAll diagnostics clauses).1.Declared ∧
      (alphabet.narrowAll diagnostics clauses).1.host = alphabet.host := by
  induction clauses generalizing alphabet diagnostics with
  | nil => exact ⟨declared, rfl⟩
  | cons clause clauses induction =>
      have further := induction (.narrow clause.1 clause.2 diagnostics declared)
        (alphabet.narrow clause.1 clause.2 diagnostics).2
      rw [host_narrow] at further
      exact further

/-- After any clauses the bounds are keys of the integer type, the lower one not above the upper
one. One more clause sets the bounds exactly if both of its literals give keys in order, and then
reports the clamped ones; otherwise it reports at least one problem and leaves the alphabet as it
was. -/
theorem range_clauses_narrow_or_report (host : IntegerType) (clauses : List (String × String))
    (diagnostics : Diagnostics) :
    let reached := (full host).narrowAll diagnostics clauses
    (reached.1.host = host ∧ host.least ≤ reached.1.value reached.1.low ∧
      reached.1.value reached.1.low ≤ reached.1.value reached.1.high ∧
      reached.1.value reached.1.high ≤ host.greatest) ∧
    ∀ low high,
      (∀ lowKey highKey problems, reached.1.Narrows low high lowKey highKey problems →
        reached.1.narrow low high reached.2 = (⟨host, lowKey, highKey, true⟩,
          ⟨reached.2.messages ++ problems.map KeyError.boundMessage⟩)) ∧
      ((∀ lowKey highKey problems, ¬reached.1.Narrows low high lowKey highKey problems) →
        ∃ added, added ≠ [] ∧
          reached.1.narrow low high reached.2 = (reached.1, ⟨reached.2.messages ++ added⟩)) := by
  intro reached
  rcases declared_narrowAll (.full host) diagnostics clauses with ⟨declared, sameHost⟩
  change reached.1.host = host at sameHost
  rcases declared.represents_bounds with ⟨lowest, highest⟩
  rw [sameHost, IntegerType.represents_iff] at lowest highest
  refine ⟨⟨sameHost, lowest.1, declared.upright, highest.2⟩, fun low high => ⟨?_, ?_⟩⟩
  · intro lowKey highKey problems narrows
    rw [narrows.narrow_eq, sameHost]
  · intro never
    rcases reached.1.narrow_cases low high reached.2 with ⟨_, _, _, narrows, _⟩ | ⟨_, kept⟩
    · exact absurd narrows (never _ _ _)
    · exact kept

/-- Over unsigned keys of one byte 300 is clamped to 255, and reported. The bounds of the next
clause are in the wrong order. -/
theorem range_clauses_narrow_or_report_sample :
    let reached := (full ⟨false, .one⟩).narrowAll .none [("10", "300")]
    (∃ problem, (full ⟨false, .one⟩).narrow "10" "300" .none =
      (⟨⟨false, .one⟩, .ofInt 10, .ofInt 255, true⟩, ⟨[KeyError.boundMessage problem]⟩)) ∧
    ∃ added, added ≠ [] ∧
      reached.1.narrow "9" "3" reached.2 = (reached.1, ⟨reached.2.messages ++ added⟩) := by
  intro reached
  have overflow : (full ⟨false, .one⟩).readKey "300" =
      .error (.overflow "300" ⟨false, .one⟩ (.ofInt 255)) := rfl
  have clamped : (full ⟨false, .one⟩).Narrows "10" "300" (.ofInt 10) (.ofInt 255) [_] :=
    .inOrder (.exact rfl) (.clamped overflow rfl) (by decide)
  refine ⟨⟨_, ((range_clauses_narrow_or_report ⟨false, .one⟩ [] .none).2 _ _).1 _ _ _ clamped⟩,
    ((range_clauses_narrow_or_report ⟨false, .one⟩ [("10", "300")] .none).2 _ _).2 ?_⟩
  rintro lowKey highKey _ ⟨lowBounds, highBounds, inOrder⟩
  have nine : reached.1.Bounds "9" (.ofInt 9) [] := .exact rfl
  have three : reached.1.Bounds "3" (.ofInt 3) [] := .exact rfl
  obtain ⟨rfl, _⟩ := nine.unique lowBounds
  obtain ⟨rfl, _⟩ := three.unique highBounds
  exact absurd inOrder (by decide)

end Alphabet

end StateTables
