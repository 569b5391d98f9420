import StateTables.Proofs.Columns

/-! # Reproduced values

The second phase of making a column goes through a second production of the values. It accepts the
values of the first phase and nothing else. What it reports otherwise is the first place where the
two productions part, whatever follows behind that place.
-/

namespace StateTables.Column

/-! ## Where two productions part -/

/-- Two productions are equal, or they agree up to a place where they differ or one of them ends. -/
inductive Compared : (analyzed generated : List Int64) → Prop
  | equal (values : List Int64) : Compared values values
  | different (agreed : List Int64) {analyzed generated : Int64}
      (restAnalyzed restGenerated : List Int64) (differ : analyzed ≠ generated) :
      Compared (agreed ++ analyzed :: restAnalyzed) (agreed ++ generated :: restGenerated)
  | longer (analyzed : List Int64) (extra : Int64) (rest : List Int64) :
      Compared analyzed (analyzed ++ extra :: rest)
  | shorter (generated : List Int64) (missing : Int64) (rest : List Int64) :
      Compared (generated ++ missing :: rest) generated

theorem Compared.cons {analyzed generated : List Int64} (value : Int64)
    (compared : Compared analyzed generated) : Compared (value :: analyzed) (value :: generated) := by
  cases compared with
  | equal => exact .equal (value :: analyzed)
  | different agreed restAnalyzed restGenerated differ =>
      exact .different (value :: agreed) restAnalyzed restGenerated differ
  | longer _ extra rest => exact .longer (value :: analyzed) extra rest
  | shorter _ missing rest => exact .shorter (value :: generated) missing rest

theorem compared : (analyzed generated : List Int64) → Compared analyzed generated
  | [], [] => .equal []
  | [], extra :: rest => .longer [] extra rest
  | missing :: rest, [] => .shorter [] missing rest
  | first :: restAnalyzed, second :: restGenerated => by
      by_cases same : first = second
      · exact same ▸ (compared restAnalyzed restGenerated).cons first
      · exact .different [] restAnalyzed restGenerated same

/-- Values that agree are only counted. -/
theorem firstDifference_append (count index : Nat) (agreed analyzed generated : List Int64) :
    firstDifference count index (agreed ++ analyzed) (agreed ++ generated) =
      firstDifference count (index + agreed.length) analyzed generated := by
  induction agreed generalizing index with
  | nil => rfl
  | cons value agreed induction =>
      rw [List.cons_append, List.cons_append, firstDifference, if_pos rfl, induction,
        List.length_cons, Nat.add_right_comm, Nat.add_assoc]

theorem firstDifference_eq_none_iff {count index : Nat} {analyzed generated : List Int64} :
    firstDifference count index analyzed generated = none ↔ analyzed = generated := by
  constructor
  · intro agree
    cases compared analyzed generated with
    | equal => rfl
    | different agreed restAnalyzed restGenerated differ =>
        rw [firstDifference_append, firstDifference, if_neg differ] at agree
        cases agree
    | longer _ extra rest =>
        have parted := firstDifference_append count index analyzed [] (extra :: rest)
        rw [List.append_nil, agree] at parted
        cases parted
    | shorter _ missing rest =>
        have parted := firstDifference_append count index generated (missing :: rest) []
        rw [List.append_nil, agree] at parted
        cases parted
  · rintro rfl
    exact firstDifference_self count index analyzed

/-! ## The second phase -/

theorem generate_eq_ok_iff {analysis : Analysis} {generated : Array Int64} {column : Column} :
    analysis.generate generated = .ok column ↔
      analysis.values = generated ∧ column = ⟨analysis.name, analysis.type, generated⟩ := by
  have agrees : firstDifference analysis.values.size 0 analysis.values.toList generated.toList =
      none ↔ analysis.values = generated :=
    firstDifference_eq_none_iff.trans Array.toList_inj
  unfold Analysis.generate
  split
  next agreed => simp [agrees.mp agreed, eq_comm]
  next difference found =>
    have apart : analysis.values ≠ generated := fun same => by
      rw [agrees.mpr same] at found
      cases found
    simp [apart]

theorem generate_eq_error {analysis : Analysis} {generated : Array Int64} {difference : Desync}
    (found : firstDifference analysis.values.size 0 analysis.values.toList generated.toList =
      some difference) : analysis.generate generated = .error difference := by
  unfold Analysis.generate
  rw [found]

/-- The first place at which a second production has another value than the first one, or a value
that the first one lacks. -/
structure PartsAt (analyzed generated : Array Int64) (index : Nat) : Prop where
  inside : index < generated.size
  differ : generated[index]? ≠ analyzed[index]?
  agree : ∀ earlier < index, generated[earlier]? = analyzed[earlier]?

theorem partsAt_of_append (agreed : List Int64) {analyzed : List Int64} {generated : Int64}
    (restGenerated : List Int64) (differ : analyzed.head? ≠ some generated) :
    PartsAt (agreed ++ analyzed).toArray (agreed ++ generated :: restGenerated).toArray
      agreed.length where
  inside := by simp
  differ := by
    rw [List.head?_eq_getElem?] at differ
    simpa [List.getElem?_append_right] using differ.symm
  agree earlier before := by simp [List.getElem?_append_left before]

/-! ## What the failures name -/

theorem Desync.message_different (name : String) (index : Nat) (generated analyzed : Int64) :
    ∃ rest, ((different index generated analyzed).failure name).message =
      name ++ ": value #" ++ toString index ++ " " ++ rest := by
  refine ⟨"is " ++ toString generated.toInt ++ ", analyzed " ++ toString analyzed.toInt ++ ": " ++
    Reason.desynchronized.sentence, ?_⟩
  have blank : " is " = " " ++ "is " := rfl
  change name ++ ": value #" ++ toString index ++ " is " ++ toString generated.toInt ++
    ", analyzed " ++ toString analyzed.toInt ++ ": " ++ _ = _
  simp only [blank, String.append_assoc]

theorem Desync.message_beyond (name : String) (index count : Nat) :
    ∃ rest, ((beyond index count).failure name).message =
      name ++ ": value #" ++ toString index ++ " " ++ rest := by
  refine ⟨"beyond analyzed count " ++ toString count ++ ": " ++ Reason.desynchronized.sentence, ?_⟩
  have blank : " beyond analyzed count " = " " ++ "beyond analyzed count " := rfl
  change name ++ ": value #" ++ toString index ++ " beyond analyzed count " ++ toString count ++
    ": " ++ _ = _
  simp only [blank, String.append_assoc]

theorem Desync.message_short (name : String) (generated analyzed : Nat) :
    ∃ rest, ((short generated analyzed).failure name).message = name ++ ": generated " ++
      toString generated ++ " values, analyzed " ++ toString analyzed ++ ": " ++ rest :=
  ⟨Reason.desynchronized.sentence, rfl⟩

/-- The second phase gives a column exactly if it sees the values of the first one, and the column
then holds these in the chosen type. Otherwise it fails for desynchronization, and the text of the
failure names the first place where the productions part, or both their lengths if the second one
ends too early. -/
theorem generate_detects_desync (name : String) (analyzed generated : Array Int64)
    (storage : Storage) :
    let analysis := analyze name analyzed storage
    (∀ column, analysis.generate generated = .ok column ↔
      analyzed = generated ∧ column = ⟨name, analysis.type, analyzed⟩) ∧
    (analyzed ≠ generated → ∃ difference, analysis.generate generated = .error difference ∧
      (difference.failure name).reasons = [.desynchronized] ∧
      ((∃ index rest, PartsAt analyzed generated index ∧
          (difference.failure name).message =
            name ++ ": value #" ++ toString index ++ " " ++ rest) ∨
        (generated.toList <+: analyzed.toList ∧ generated.size < analyzed.size ∧
          ∃ rest, (difference.failure name).message = name ++ ": generated " ++
            toString generated.size ++ " values, analyzed " ++ toString analyzed.size ++ ": " ++
              rest))) := by
  intro analysis
  constructor
  · intro column
    rw [generate_eq_ok_iff]
    change analyzed = generated ∧ column = ⟨name, analysis.type, generated⟩ ↔ _
    constructor
    · rintro ⟨rfl, rfl⟩
      exact ⟨rfl, rfl⟩
    · rintro ⟨rfl, rfl⟩
      exact ⟨rfl, rfl⟩
  · intro apart
    rcases analyzed with ⟨analyzed⟩
    rcases generated with ⟨generated⟩
    cases compared analyzed generated with
    | equal => exact absurd rfl apart
    | different agreed restAnalyzed restGenerated differ =>
        rcases Desync.message_different name (0 + agreed.length) _ _ with ⟨rest, message⟩
        refine ⟨_, generate_eq_error ((firstDifference_append ..).trans (if_neg differ)), rfl,
          .inl ⟨0 + agreed.length, rest, ?_, message⟩⟩
        rw [Nat.zero_add]
        exact partsAt_of_append agreed restGenerated (by simpa using differ)
    | longer _ extra rest =>
        have found := firstDifference_append analyzed.length 0 analyzed [] (extra :: rest)
        rw [List.append_nil, Nat.zero_add] at found
        rcases Desync.message_beyond name analyzed.length analyzed.length with ⟨text, message⟩
        refine ⟨_, generate_eq_error found, rfl, .inl ⟨analyzed.length, text, ?_, message⟩⟩
        have atEnd : ([] : List Int64).head? ≠ some extra := by simp
        simpa using partsAt_of_append analyzed rest atEnd
    | shorter _ missing rest =>
        have found := firstDifference_append (generated ++ missing :: rest).length 0 generated
          (missing :: rest) []
        rw [List.append_nil, Nat.zero_add] at found
        exact ⟨_, generate_eq_error found, rfl, .inr ⟨List.prefix_append .., by simp,
          Desync.message_short name _ _⟩⟩

end StateTables.Column
