import StateTables.Search

/-! # Bisection finds what is there

A probe is sorted if the wanted entry lies on one side of all entries before a
point, and on the other side of all entries behind it. Bisection with a sorted
probe misses only what is not there. What it finds does not depend on where the
row starts or on how it is read.
-/

namespace StateTables.Search

/-- The search of `position` from any position on. -/
def between (probe : Nat → Ordering) (low high : Nat) : Option Nat :=
  Id.run (bisect (m := Id) probe low high)

/-- Entries behind one that is too high are too high, entries before one that is
too low are too low. -/
def Sorted (probe : Nat → Ordering) (low high : Nat) : Prop :=
  ∀ first second, low ≤ first → first < second → second < high →
    (probe first = .lt → probe second = .lt) ∧ (probe second = .gt → probe first = .gt)

theorem Sorted.narrow {probe : Nat → Ordering} {low high innerLow innerHigh : Nat}
    (sorted : Sorted probe low high) (lowInside : low ≤ innerLow) (highInside : innerHigh ≤ high) :
    Sorted probe innerLow innerHigh :=
  fun first second firstInside order secondInside =>
    sorted first second (by omega) order (by omega)

/-! ## One step -/

theorem between_empty (probe : Nat → Ordering) {low high : Nat} (empty : high ≤ low) :
    between probe low high = none := by
  unfold between
  rw [bisect, if_neg (by omega)]
  rfl

theorem between_step (probe : Nat → Ordering) {low high : Nat} (room : low < high) :
    between probe low high =
      match probe ((low + high - 1) / 2) with
      | .lt => between probe low ((low + high - 1) / 2)
      | .gt => between probe ((low + high - 1) / 2 + 1) high
      | .eq => some ((low + high - 1) / 2) := by
  unfold between
  rw [bisect, if_pos room]
  dsimp only [bind]
  cases probe ((low + high - 1) / 2) <;> rfl

/-! ## What is found -/

theorem between_eq_some {probe : Nat → Ordering} {low high index : Nat}
    (found : between probe low high = some index) :
    low ≤ index ∧ index < high ∧ probe index = .eq := by
  induction length : high - low using Nat.strongRecOn generalizing low high with
  | ind length induction =>
      by_cases room : low < high
      · rw [between_step probe room] at found
        split at found
        next =>
          have inner := induction _ (by omega) found rfl
          exact ⟨inner.1, by omega, inner.2.2⟩
        next =>
          have inner := induction _ (by omega) found rfl
          exact ⟨by omega, inner.2⟩
        next hit => cases found; exact ⟨by omega, by omega, hit⟩
      · rw [between_empty probe (by omega)] at found
        cases found

theorem between_eq_none {probe : Nat → Ordering} {low high : Nat}
    (sorted : Sorted probe low high) (missed : between probe low high = none) (index : Nat)
    (lowInside : low ≤ index) (highInside : index < high) : probe index ≠ .eq := by
  induction length : high - low using Nat.strongRecOn generalizing low high with
  | ind length induction =>
      have room : low < high := by omega
      rw [between_step probe room] at missed
      -- The half that is given up lies on one side of the probe at the middle.
      split at missed
      next tooHigh =>
        by_cases before : index < (low + high - 1) / 2
        · exact induction _ (by omega) (sorted.narrow (by omega) (by omega)) missed
            lowInside before rfl
        · by_cases middle : index = (low + high - 1) / 2
          · simp [middle, tooHigh]
          · have behind := (sorted _ index (by omega) (by omega) highInside).1 tooHigh
            simp [behind]
      next tooLow =>
        by_cases behind : (low + high - 1) / 2 < index
        · exact induction _ (by omega) (sorted.narrow (by omega) (by omega)) missed
            behind highInside rfl
        · by_cases middle : index = (low + high - 1) / 2
          · simp [middle, tooLow]
          · have before := (sorted index _ lowInside (by omega) (by omega)).2 tooLow
            simp [before]
      next => cases missed

/-! ## Rows of entries -/

section Rows

variable {α β : Type} (probe : α → Ordering) (row : Array α)

def among (index : Nat) : Ordering :=
  match row[index]? with
  | some entry => probe entry
  | none => .lt

variable {probe row}

theorem among_of_getElem? {index : Nat} {entry : α} (found : row[index]? = some entry) :
    among probe row index = probe entry := by
  rw [among, found]

/-- In a row, of two entries the wanted one lies behind the first or before the
second. -/
theorem sorted_among
    (apart : row.toList.Pairwise fun first second => probe first = .gt ∨ probe second = .lt) :
    Sorted (among probe row) 0 row.size := by
  intro first second _ order inside
  have firstInside : first < row.size := by omega
  have sides := List.pairwise_iff_getElem.mp apart first second (by simpa) (by simpa) order
  rw [among_of_getElem? (Array.getElem?_eq_getElem firstInside),
    among_of_getElem? (Array.getElem?_eq_getElem inside)]
  simp only [Array.getElem_toList] at sides
  constructor
  · intro tooHigh
    rcases sides with tooLow | behind
    · rw [tooHigh] at tooLow
      cases tooLow
    · exact behind
  · intro tooLow
    rcases sides with before | tooHigh
    · exact before
    · rw [tooLow] at tooHigh
      cases tooHigh

theorem eq_of_among
    (apart : row.toList.Pairwise fun first second => probe first = .gt ∨ probe second = .lt)
    {first second : Nat} (firstHit : among probe row first = .eq)
    (secondHit : among probe row second = .eq) (firstInside : first < row.size)
    (secondInside : second < row.size) : first = second := by
  have sorted := List.pairwise_iff_getElem.mp apart
  rw [among_of_getElem? (Array.getElem?_eq_getElem firstInside)] at firstHit
  rw [among_of_getElem? (Array.getElem?_eq_getElem secondInside)] at secondHit
  rcases Nat.lt_trichotomy first second with before | same | behind
  · have sides := sorted first second (by simpa) (by simpa) before
    simp [firstHit, secondHit] at sides
  · exact same
  · have sides := sorted second first (by simpa) (by simpa) behind
    simp [firstHit, secondHit] at sides

theorem position_among_iff
    (apart : row.toList.Pairwise fun first second => probe first = .gt ∨ probe second = .lt)
    {index : Nat} :
    position (among probe row) row.size = some index ↔
      ∃ entry, row[index]? = some entry ∧ probe entry = .eq := by
  change between (among probe row) 0 row.size = some index ↔ _
  constructor
  · intro found
    rcases between_eq_some found with ⟨_, inside, hit⟩
    have entry := Array.getElem?_eq_getElem inside
    exact ⟨_, entry, (among_of_getElem? entry).symm.trans hit⟩
  · intro hits
    rcases hits with ⟨entry, found, hit⟩
    rcases Array.getElem?_eq_some_iff.mp found with ⟨inside, _⟩
    have hit := (among_of_getElem? found).trans hit
    cases result : between (among probe row) 0 row.size with
    | none =>
        exact absurd hit (between_eq_none (sorted_among apart) result index (by omega) inside)
    | some other =>
        rcases between_eq_some result with ⟨_, otherInside, otherHit⟩
        rw [eq_of_among apart otherHit hit otherInside inside]

/-- Something is found in such a row if and only if it is the entry the probe agrees
with. -/
theorem find_among_iff
    (apart : row.toList.Pairwise fun first second => probe first = .gt ∨ probe second = .lt)
    {part : α → β} {result : β} :
    ((position (among probe row) row.size).bind fun index => row[index]?.map part) =
      some result ↔ ∃ entry ∈ row, probe entry = .eq ∧ part entry = result := by
  simp only [Option.bind_eq_some_iff, position_among_iff apart, Option.map_eq_some_iff]
  constructor
  · intro located
    rcases located with ⟨index, ⟨entry, found, hit⟩, other, otherFound, same⟩
    cases found.symm.trans otherFound
    exact ⟨entry, Array.mem_of_getElem? found, hit, same⟩
  · intro located
    rcases located with ⟨entry, member, hit, same⟩
    rcases Array.mem_iff_getElem?.mp member with ⟨index, found⟩
    exact ⟨index, ⟨entry, found, hit⟩, entry, found, same⟩

end Rows

/-! ## How it is read -/

/-- A search that reads its entries, each of which is there, from `start` on. -/
theorem bisect_eq_pure {m : Type → Type} [Monad m] [LawfulMonad m]
    {reading : Nat → m Ordering} {probe : Nat → Ordering} {start low high : Nat}
    (reads : ∀ index, low ≤ index → index < high →
      reading (start + index) = pure (probe index)) :
    bisect reading (start + low) (start + high) =
      pure ((between probe low high).map (start + ·)) := by
  induction length : high - low using Nat.strongRecOn generalizing low high with
  | ind length induction =>
      by_cases room : low < high
      · have middle : (start + low + (start + high) - 1) / 2 =
            start + (low + high - 1) / 2 := by omega
        rw [bisect, if_pos (by omega), between_step probe room]
        simp only [middle, reads ((low + high - 1) / 2) (by omega) (by omega), pure_bind]
        cases probe ((low + high - 1) / 2) with
        | lt =>
            exact induction _ (by omega) (fun index lower upper => reads index lower (by omega)) rfl
        | gt =>
            rw [Nat.add_assoc]
            exact induction _ (by omega) (fun index lower upper => reads index (by omega) upper) rfl
        | eq => rfl
      · rw [bisect, if_neg (by omega), between_empty probe (by omega)]
        rfl

theorem position_eq_between (probe : Nat → Ordering) (count : Nat) :
    position probe count = between probe 0 count :=
  rfl

/-! ## Numbering -/

section Numbering

variable {α : Type} [DecidableEq α]

def Extends (before after : Array α) : Prop :=
  ∀ (index : Nat) (value : α), before[index]? = some value → after[index]? = some value

omit [DecidableEq α] in
theorem Extends.refl (values : Array α) : Extends values values :=
  fun _ _ found => found

omit [DecidableEq α] in
theorem Extends.trans {first second third : Array α} (left : Extends first second)
    (right : Extends second third) : Extends first third :=
  fun index value found => right index value (left index value found)

omit [DecidableEq α] in
theorem Extends.push (values : Array α) (value : α) : Extends values (values.push value) := by
  intro index other found
  rcases Array.getElem?_eq_some_iff.mp found with ⟨inside, equal⟩
  rw [Array.getElem?_push_lt inside, equal]

omit [DecidableEq α] in
theorem Extends.size_le {before after : Array α} (grows : Extends before after) :
    before.size ≤ after.size := by
  rcases Nat.lt_or_ge after.size before.size with shrinks | room
  · have found := grows after.size _ (Array.getElem?_eq_getElem shrinks)
    simp at found
  · exact room

theorem intern_spec (seen : Array α) (value : α) :
    Extends seen (intern seen value).1 ∧
      (intern seen value).1[(intern seen value).2]? = some value := by
  unfold intern
  split
  next index found =>
    have hit := Array.findIdx?_eq_some_iff_getElem.mp found
    rcases hit with ⟨inside, same, _⟩
    refine ⟨Extends.refl seen, ?_⟩
    rw [Array.getElem?_eq_getElem inside]
    exact congrArg some (by simpa using same)
  next => exact ⟨Extends.push seen value, by simp⟩

theorem mem_of_mem_intern {seen : Array α} {value member : α}
    (inside : member ∈ (intern seen value).1) : member ∈ seen ∨ member = value := by
  unfold intern at inside
  split at inside
  next => exact .inl inside
  next => exact Array.mem_push.mp inside

def distinctStep (state : Array α × Array Nat) (value : α) : Array α × Array Nat :=
  ((intern state.1 value).1, state.2.push (intern state.1 value).2)

theorem distinct_eq_foldl (values : Array α) :
    distinct values = values.toList.foldl distinctStep (#[], #[]) := by
  rw [distinct, ← Array.foldl_toList]
  rfl

/-- What numbering some values leaves behind: every value has a number, under which
it is found, and nothing else was numbered. -/
structure Numbers (values : List α) (state : Array α × Array Nat) : Prop where
  size : state.2.size = values.length
  found : ∀ (index : Nat) (value : α), values[index]? = some value →
    ∃ number, state.2[index]? = some number ∧ state.1[number]? = some value
  only : ∀ value ∈ state.1, value ∈ values

theorem Numbers.step {values : List α} {state : Array α × Array Nat}
    (numbers : Numbers values state) (value : α) :
    Numbers (values ++ [value]) (distinctStep state value) := by
  rcases intern_spec state.1 value with ⟨grows, hit⟩
  constructor
  · simp [distinctStep, numbers.size]
  · intro index other found
    rcases Nat.lt_trichotomy index values.length with before | last | behind
    · rw [List.getElem?_append_left before] at found
      rcases numbers.found index other found with ⟨number, numbered, stored⟩
      refine ⟨number, ?_, grows number other stored⟩
      simpa [distinctStep, Array.getElem?_push, numbers.size, Nat.ne_of_lt before] using numbered
    · subst last
      have equal : value = other := by simpa using found
      subst equal
      exact ⟨(intern state.1 value).2, by simp [distinctStep, ← numbers.size], hit⟩
    · rw [List.getElem?_eq_none (by simp; omega)] at found
      cases found
  · intro other inside
    rcases mem_of_mem_intern inside with old | new
    · exact List.mem_append_left _ (numbers.only other old)
    · simp [new]

theorem Numbers.foldl {values : List α} {state : Array α × Array Nat}
    (numbers : Numbers values state) (more : List α) :
    Numbers (values ++ more) (more.foldl distinctStep state) := by
  induction more generalizing values state with
  | nil => simpa using numbers
  | cons value rest induction =>
      have after := induction (numbers.step value)
      rwa [List.append_assoc] at after

theorem numbers_distinct (values : Array α) : Numbers values.toList (distinct values) := by
  rw [distinct_eq_foldl]
  have empty : Numbers ([] : List α) (#[], #[]) :=
    ⟨rfl, fun index value found => by simp at found, fun value inside => by simp at inside⟩
  exact empty.foldl values.toList

end Numbering

end StateTables.Search
