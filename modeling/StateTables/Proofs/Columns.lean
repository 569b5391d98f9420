import Mathlib.Algebra.Group.Nat.Defs
import StateTables.Machine.Tables

/-! # Columns hold what was laid out

A column that was built holds the values it was built from, in cells wide enough
for them, so reading it gives them back. Rows of several parts that are laid out
one behind the other are found again through the offsets of the parts.
-/

namespace StateTables

/-! ## Computations that succeed -/

section Success

variable {ε α β : Type}

theorem bind_eq_ok {step : Except ε α} {next : α → Except ε β} {result : β} :
    (step >>= next) = .ok result ↔ ∃ value, step = .ok value ∧ next value = .ok result := by
  cases step <;> simp [bind, Except.bind]

theorem bind_eq_error {step : Except ε α} {next : α → Except ε β} {problem : ε} :
    (step >>= next) = .error problem ↔
      step = .error problem ∨ ∃ value, step = .ok value ∧ next value = .error problem := by
  cases step <;> simp [bind, Except.bind]

theorem map_eq_ok {step : Except ε α} {change : α → β} {result : β} :
    (change <$> step) = .ok result ↔ ∃ value, step = .ok value ∧ change value = result := by
  cases step <;> simp [Functor.map, Except.map]

theorem pure_eq_ok {value result : α} :
    (pure value : Except ε α) = .ok result ↔ value = result := by
  simp [pure, Except.pure]

theorem exists_of_isOk {step : Except ε α} (succeeds : step.isOk = true) :
    ∃ value, step = .ok value := by
  cases step with
  | ok value => exact ⟨value, rfl⟩
  | error problem => cases succeeds

theorem toOption_eq_some {step : Except ε α} {value : α} :
    step.toOption = some value ↔ step = .ok value := by
  cases step <;> simp [Except.toOption]

theorem mapM_eq_ok {step : α → Except ε β} {values : List α} {results : List β} :
    values.mapM step = .ok results ↔
      results.length = values.length ∧
        ∀ (index : Nat) (value : α), values[index]? = some value →
          ∃ result, results[index]? = some result ∧ step value = .ok result := by
  induction values generalizing results with
  | nil =>
      simp only [List.mapM_nil, pure_eq_ok, List.length_nil, List.length_eq_zero_iff]
      constructor
      · intro same
        subst same
        exact ⟨rfl, fun index value found => by simp at found⟩
      · intro holds
        rcases holds with ⟨rfl, _⟩
        rfl
  | cons head tail induction =>
      simp only [List.mapM_cons, bind_eq_ok, pure_eq_ok]
      constructor
      · intro steps
        rcases steps with ⟨first, firstStep, rest, restSteps, rfl⟩
        rcases induction.mp restSteps with ⟨length, each⟩
        refine ⟨by simp [length], fun index value found => ?_⟩
        cases index with
        | zero =>
            cases (by simpa using found : head = value)
            exact ⟨first, rfl, firstStep⟩
        | succ index => exact each index value (by simpa using found)
      · intro holds
        rcases holds with ⟨length, each⟩
        rcases each 0 head rfl with ⟨first, firstFound, firstStep⟩
        cases results with
        | nil => simp at length
        | cons result rest =>
            refine ⟨first, firstStep, rest, induction.mpr ⟨by simpa using length, ?_⟩, ?_⟩
            · intro index value found
              exact each (index + 1) value (by simpa using found)
            · simpa using firstFound.symm

theorem mem_of_mapM {step : α → Except ε β} {values : List α} {results : List β}
    (mapped : values.mapM step = .ok results) {result : β} (member : result ∈ results) :
    ∃ value ∈ values, step value = .ok result := by
  rcases mapM_eq_ok.mp mapped with ⟨length, each⟩
  rcases List.mem_iff_getElem?.mp member with ⟨index, found⟩
  rcases List.getElem?_eq_some_iff.mp found with ⟨inside, _⟩
  rw [length] at inside
  rcases each index _ (List.getElem?_eq_getElem inside) with ⟨other, otherFound, made⟩
  rw [found] at otherFound
  exact ⟨_, List.getElem_mem inside, Option.some.inj otherFound ▸ made⟩

theorem exists_of_mapM {step : α → Except ε β} {values : List α} {results : List β}
    (mapped : values.mapM step = .ok results) {value : α} (member : value ∈ values) :
    ∃ result ∈ results, step value = .ok result := by
  rcases List.mem_iff_getElem?.mp member with ⟨index, found⟩
  rcases (mapM_eq_ok.mp mapped).2 index value found with ⟨result, stored, made⟩
  exact ⟨result, List.mem_of_getElem? stored, made⟩

theorem pairwise_of_mapM {step : α → Except ε β} {values : List α} {results : List β}
    {before : α → α → Prop} {after : β → β → Prop}
    (keeps : ∀ first second firstResult secondResult, step first = .ok firstResult →
      step second = .ok secondResult → before first second → after firstResult secondResult)
    (mapped : values.mapM step = .ok results) (ordered : values.Pairwise before) :
    results.Pairwise after := by
  induction values generalizing results with
  | nil =>
      rw [List.mapM_nil, pure_eq_ok] at mapped
      subst mapped
      exact .nil
  | cons head tail induction =>
      simp only [List.mapM_cons, bind_eq_ok, pure_eq_ok] at mapped
      rcases mapped with ⟨first, firstMade, rest, restMade, rfl⟩
      rcases List.pairwise_cons.mp ordered with ⟨headFirst, tailOrdered⟩
      refine .cons ?_ (induction restMade tailOrdered)
      intro result member
      rcases mem_of_mapM restMade member with ⟨value, inside, made⟩
      exact keeps head value first result firstMade made (headFirst value inside)

end Success

/-! ## Reading columns -/

theorem Graph.cellBound_eq : Graph.cellBound = 2 ^ 63 := rfl

namespace Column

def Holds (column : Column) (values : List Int64) : Prop :=
  column.values = values.toArray

/-- The column holds these numbers, each of which fits into a cell. -/
def Counts (column : Column) (numbers : List Nat) : Prop :=
  column.Holds (numbers.map Int64.ofNat) ∧ ∀ number ∈ numbers, number < Graph.cellBound

def Spaces (column : Column) (spaces : List (Option Nat)) : Prop :=
  column.Holds (spaces.map Graph.spaceNumber) ∧
    ∀ space, some space ∈ spaces → space < Graph.cellBound

theorem toInt_ofNat {number : Nat} (fits : number < Graph.cellBound) :
    (Int64.ofNat number).toInt = number := by
  rw [Graph.cellBound_eq] at fits
  exact Int64.toInt_ofNat_of_lt fits

theorem Holds.read {column : Column} {values : List Int64} (holds : column.Holds values)
    {index : Nat} {value : Int64} (found : values[index]? = some value) :
    column.read index = .ok value := by
  unfold Column.read
  rw [holds, List.getElem?_toArray, found]

theorem Counts.read {column : Column} {numbers : List Nat} (counts : column.Counts numbers)
    {index number : Nat} (found : numbers[index]? = some number) :
    column.read index = .ok (Int64.ofNat number) :=
  counts.1.read (by simp [found])

theorem readIndex_of_read {column : Column} {index number : Nat}
    (read : column.read index = .ok (Int64.ofNat number)) (fits : number < Graph.cellBound) :
    column.readIndex index = .ok number := by
  simp only [Column.readIndex, bind, read, Except.bind, toInt_ofNat fits]
  rfl

theorem Counts.readIndex {column : Column} {numbers : List Nat} (counts : column.Counts numbers)
    {index number : Nat} (found : numbers[index]? = some number) :
    column.readIndex index = .ok number :=
  readIndex_of_read (counts.read found) (counts.2 number (List.mem_of_getElem? found))

theorem lt_size_of_read {column : Column} {index : Nat} {value : Int64}
    (read : column.read index = .ok value) : index < column.values.size := by
  unfold Column.read at read
  split at read
  next found => exact (Array.getElem?_eq_some_iff.mp found).1
  next => cases read

theorem mapM_range_eq_ok {ε α : Type} {reading : Nat → Except ε α} {row : List α}
    (reads : ∀ (index : Nat) (value : α), row[index]? = some value → reading index = .ok value) :
    (List.range row.length).mapM reading = .ok row := by
  refine mapM_eq_ok.mpr ⟨by simp, fun index value found => ?_⟩
  rcases List.getElem?_eq_some_iff.mp found with ⟨inside, rfl⟩
  have inside : index < row.length := by simpa using inside
  refine ⟨row[index], List.getElem?_eq_getElem inside, ?_⟩
  simpa using reads index row[index] (List.getElem?_eq_getElem inside)

theorem Counts.readIndices {column : Column} {numbers row : List Nat}
    (counts : column.Counts numbers) {start : Nat}
    (part : ∀ (index number : Nat), row[index]? = some number →
      numbers[start + index]? = some number) :
    column.readIndices start row.length = .ok row :=
  mapM_range_eq_ok fun index number found => counts.readIndex (part index number found)

theorem Holds.readRow {column : Column} {values row : List Int64}
    (holds : column.Holds values) {start : Nat}
    (part : ∀ (index : Nat) (value : Int64), row[index]? = some value →
      values[start + index]? = some value) :
    column.readRow start row.length = .ok row :=
  mapM_range_eq_ok fun index value found => holds.read (part index value found)

/-! ## Building columns -/

theorem firstDifference_self (count index : Nat) (values : List Int64) :
    firstDifference count index values values = none := by
  induction values generalizing index with
  | nil => rfl
  | cons value rest induction =>
      rw [firstDifference, if_pos rfl]
      exact induction (index + 1)

/-- Both phases see the same values, so a column is always made. -/
theorem build_eq_ok (name : String) (values : Array Int64) (storage : Storage) :
    build name values storage = .ok ⟨name, (analyze name values storage).type, values⟩ := by
  unfold build Analysis.generate analyze
  simp only [firstDifference_self]

end Column

namespace Graph

theorem holds_of_column {name : String} {values : List Int64} {storage : Column.Storage}
    {result : Column} (built : column name values storage = .ok result) :
    result.Holds values ∧ values.length < cellBound := by
  unfold column at built
  split at built
  next => cases built
  next room =>
    rw [Column.build_eq_ok] at built
    cases built
    exact ⟨rfl, by omega⟩

theorem counts_of_counts {name : String} {numbers : List Nat} {result : Column}
    (built : counts name numbers = .ok result) :
    result.Counts numbers ∧ numbers.length < cellBound := by
  unfold counts at built
  split at built
  next fits =>
    rcases holds_of_column built with ⟨holds, length⟩
    exact ⟨⟨holds, by simpa using fits⟩, by simpa using length⟩
  next => cases built

theorem spaces_of_spaceColumn {name : String} {spaces : List (Option Nat)} {result : Column}
    (built : spaceColumn name spaces = .ok result) : result.Spaces spaces := by
  unfold spaceColumn at built
  split at built
  next fits =>
    refine ⟨(holds_of_column built).1, fun space member => ?_⟩
    have fit := List.all_eq_true.mp fits (some space) member
    simpa using fit
  next => cases built

theorem toInt_spaceNumber {space : Nat} (fits : space < cellBound) :
    (spaceNumber (some space)).toInt = space :=
  Column.toInt_ofNat fits

/-! ## Parts one behind the other -/

section Parts

variable {α : Type}

theorem getElem?_offsets {parts : List (List α)} (start : Nat) {index : Nat} {part : List α}
    (found : parts[index]? = some part) :
    (offsets start (parts.map List.length))[index]? =
      some (start + (parts.take index).flatten.length) := by
  induction parts generalizing start index with
  | nil => simp at found
  | cons head tail induction =>
      cases index with
      | zero => simp [offsets]
      | succ index =>
          have later := induction (start + head.length) (by simpa using found)
          simp only [List.map_cons, offsets, List.getElem?_cons_succ, List.take_succ_cons,
            List.flatten_cons, List.length_append]
          rw [later, Nat.add_assoc]

theorem getElem?_flatten {parts : List (List α)} {index position : Nat} {part : List α}
    (found : parts[index]? = some part) (inside : position < part.length) :
    parts.flatten[(parts.take index).flatten.length + position]? = part[position]? := by
  induction parts generalizing index with
  | nil => simp at found
  | cons head tail induction =>
      cases index with
      | zero =>
          cases (by simpa using found : head = part)
          simp [List.getElem?_append_left inside]
      | succ index =>
          have later := induction (by simpa using found)
          simp only [List.take_succ_cons, List.flatten_cons, List.length_append]
          rw [List.getElem?_append_right (by omega), ← later]
          congr 1
          omega

theorem getElem?_flatten_of_getElem? {parts : List (List α)} {index position : Nat}
    {part : List α} {value : α} (found : parts[index]? = some part)
    (member : part[position]? = some value) :
    parts.flatten[(parts.take index).flatten.length + position]? = some value := by
  rcases List.getElem?_eq_some_iff.mp member with ⟨inside, _⟩
  rw [getElem?_flatten found inside, member]

theorem getElem?_pairs {β : Type} (first second : α → β) {entries : List α} {index : Nat}
    {entry : α} (found : entries[index]? = some entry) :
    (entries.flatMap fun entry => [first entry, second entry])[2 * index]? =
        some (first entry) ∧
      (entries.flatMap fun entry => [first entry, second entry])[2 * index + 1]? =
        some (second entry) := by
  induction entries generalizing index with
  | nil => simp at found
  | cons head tail induction =>
      cases index with
      | zero =>
          have same : head = entry := by simpa using found
          simp [same]
      | succ index =>
          have later := induction (by simpa using found)
          rw [Nat.mul_succ]
          simpa using later

end Parts

end Graph

end StateTables
