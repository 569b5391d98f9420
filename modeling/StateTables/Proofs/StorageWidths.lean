import StateTables.Proofs.Columns
import StateTables.Proofs.KeyOrder

/-! # Widths of columns

An integer type represents the numbers that words of its width stand for. The type chosen for some
values represents each of them, and no narrower type does. That is so because the values lie between
the smallest and the largest of them, which are all the choice looks at.
-/

namespace StateTables

namespace IntegerType

/-! ## Words and numbers -/

def reading (type : IntegerType) (word : BitVec type.width.bits) : Int :=
  if type.signed then word.toInt else word.toNat

/-- The pattern a word of the type is carried in: it is extended by its sign or by zeros. -/
def carried (type : IntegerType) (word : BitVec type.width.bits) : Int64 :=
  .ofBitVec (if type.signed then word.signExtend 64 else word.setWidth 64)

/-- Some word of the type stands for the number. -/
def Represents (type : IntegerType) (number : Int) : Prop :=
  ∃ word, type.reading word = number

variable {type : IntegerType} {number : Int} {pattern : Int64}

theorem bits_pos (width : Width) : 0 < width.bits := by
  cases width <;> decide

theorem bits_le (width : Width) : width.bits ≤ 64 := by
  cases width <;> decide

theorem represents_iff : type.Represents number ↔ type.least ≤ number ∧ number ≤ type.greatest := by
  rcases type with ⟨signed, width⟩
  unfold Represents reading least greatest
  dsimp only
  cases signed with
  | true =>
      simp only [if_true, Nat.pow_eq]
      push_cast
      constructor
      · rintro ⟨word, rfl⟩
        have lower := word.le_toInt
        have upper := word.toInt_lt
        omega
      · rintro ⟨lower, upper⟩
        exact ⟨.ofInt _ number, BitVec.toInt_ofInt_eq_self (bits_pos width) lower (by omega)⟩
  | false =>
      simp only [Bool.false_eq_true, if_false, Nat.pow_eq]
      push_cast
      constructor
      · rintro ⟨word, rfl⟩
        have upper : (word.toNat : Int) < 2 ^ width.bits := by exact_mod_cast word.isLt
        omega
      · rintro ⟨lower, upper⟩
        obtain ⟨natural, rfl⟩ := Int.eq_ofNat_of_zero_le lower
        have fits : natural < 2 ^ width.bits := by
          have below : (natural : Int) < 2 ^ width.bits := by omega
          exact_mod_cast below
        exact ⟨.ofNat _ natural, by rw [BitVec.toNat_ofNat, Nat.mod_eq_of_lt fits]⟩

theorem least_le_greatest (type : IntegerType) : type.least ≤ type.greatest := by
  rcases type with ⟨signed, width⟩
  cases signed <;> cases width <;> decide

theorem represents_zero (type : IntegerType) : type.Represents (type.value 0) := by
  rw [represents_iff]
  rcases type with ⟨signed, width⟩
  cases signed <;> cases width <;> decide

theorem Represents.between {low high : Int} (lowest : type.Represents low)
    (highest : type.Represents high) (above : low ≤ number) (below : number ≤ high) :
    type.Represents number := by
  rw [represents_iff] at *
  omega

theorem Represents.unsigned {signed : Bool} {width : Width}
    (represented : (⟨signed, width⟩ : IntegerType).Represents number) (natural : 0 ≤ number) :
    (⟨false, width⟩ : IntegerType).Represents number := by
  rw [represents_iff] at *
  cases signed with
  | false => exact represented
  | true => cases width <;> simp [least, greatest, Width.bits, Width.bytes] at * <;> omega

theorem Represents.natural {width : Width}
    (represented : (⟨false, width⟩ : IntegerType).Represents number) : 0 ≤ number :=
  (represents_iff.mp represented).1

/-! ## Patterns -/

theorem value_eq_toInt (plain : type.signed = true ∨ 0 ≤ pattern.toInt) :
    type.value pattern = pattern.toInt := by
  unfold value
  split
  next => rfl
  next unsigned =>
    have reading := toInt_eq_unsigned pattern
    have bound := pattern.toUInt64.toNat_lt
    have natural : 0 ≤ pattern.toInt := plain.resolve_left unsigned
    split at reading <;> omega

/-- A type can hold a pattern if it represents the number the pattern stands for. -/
theorem holds_iff : type.holds pattern = true ↔ type.Represents (type.value pattern) := by
  rw [represents_iff]
  have reading := toInt_eq_unsigned pattern
  have bound := pattern.toUInt64.toNat_lt
  rcases type with ⟨signed, width⟩
  cases signed <;> cases width <;>
    simp [holds, value, least, greatest, Width.bits, Width.bytes] <;> split at reading <;> omega

theorem covers_iff {low high : Int64} : type.covers low high = true ↔
    type.Represents (type.value low) ∧ type.Represents (type.value high) := by
  rw [covers, Bool.and_eq_true, holds_iff, holds_iff]

theorem ofInt_value (type : IntegerType) (pattern : Int64) :
    Int64.ofInt (type.value pattern) = pattern := by
  unfold value
  split
  next => exact pattern.ofInt_toInt
  next =>
    rw [Int64.ofInt_eq_ofNat]
    apply eq_of_toNat_eq
    rw [Int64.toUInt64_ofNat', UInt64.ofNat_toNat]

theorem value_ofInt (represented : type.Represents number) :
    type.value (Int64.ofInt number) = number := by
  rcases represented with ⟨word, rfl⟩
  unfold reading value
  have wide := bits_le type.width
  split
  next =>
    have lower := word.le_toInt
    have upper := word.toInt_lt
    have power : (2 : Int) ^ (type.width.bits - 1) ≤ 2 ^ 63 := by
      exact_mod_cast Nat.pow_le_pow_right (by decide : 0 < 2) (by omega)
    exact Int64.toInt_ofInt_of_le (by omega) (by omega)
  next =>
    have small : word.toNat < 2 ^ 64 :=
      Nat.lt_of_lt_of_le word.isLt (Nat.pow_le_pow_right (by decide) wide)
    rw [Int64.ofInt_eq_ofNat, Int64.toUInt64_ofNat', UInt64.toNat_ofNat', Nat.mod_eq_of_lt small]

theorem carried_eq {word : BitVec type.width.bits}
    (reads : type.reading word = type.value pattern) : type.carried word = pattern := by
  have wide := bits_le type.width
  unfold reading value at reads
  unfold carried
  split at reads
  next signed =>
    rw [if_pos signed]
    apply Int64.toInt_inj.mp
    rw [Int64.toInt_ofBitVec, BitVec.toInt_signExtend_of_le wide, reads]
  next unsigned =>
    rw [if_neg unsigned]
    apply eq_of_toNat_eq
    have small : word.toNat < 2 ^ 64 :=
      Nat.lt_of_lt_of_le word.isLt (Nat.pow_le_pow_right (by decide) wide)
    rw [← Int64.toNat_toBitVec, Int64.toBitVec_ofBitVec, BitVec.toNat_setWidth,
      Nat.mod_eq_of_lt small]
    exact_mod_cast reads

/-! ## Selected types -/

theorem mem_all (width : Width) : width ∈ Width.all := by
  cases width <;> decide

theorem ascending_all : Width.all.Pairwise fun first second => first.bytes < second.bytes := by
  decide

/-- The narrowest type of a family is selected. A family ends in a type that holds every pattern, so
there is always one. -/
theorem select_eq (low high : Int64) (signed : Bool) :
    ∃ width, select low high signed = ⟨signed || decide (low < 0), width⟩ ∧
      (select low high signed).covers low high = true ∧
      ∀ narrower : Width, narrower.bytes < width.bytes →
        ¬(⟨signed || decide (low < 0), narrower⟩ : IntegerType).covers low high = true := by
  unfold select
  generalize (signed || decide (low < 0)) = family
  dsimp only
  rw [List.find?_map]
  cases found : Width.all.find?
      ((fun type : IntegerType => type.covers low high) ∘ fun width => ⟨family, width⟩) with
  | none =>
      have widest := List.find?_eq_none.mp found .eight (mem_all .eight)
      simp [covers, holds] at widest
  | some width =>
      rcases List.find?_eq_some_iff_append.mp found with ⟨covered, before, after, split, missed⟩
      refine ⟨width, rfl, covered, fun narrower narrow => ?_⟩
      have ascending := ascending_all
      have member := mem_all narrower
      rw [split, List.pairwise_append] at ascending
      rw [split, List.mem_append, List.mem_cons] at member
      rcases member with earlier | rfl | later
      · simpa using missed narrower earlier
      · exact absurd narrow (Nat.lt_irrefl _)
      · have wider := List.rel_of_pairwise_cons ascending.2.1 later
        omega

section Interval

variable {low high : Int64} {signed : Bool}

theorem signed_or_natural (signed : Bool) (fromLow : low ≤ pattern) :
    (signed || decide (low < 0)) = true ∨ 0 ≤ pattern.toInt := by
  rw [Int64.le_iff_toInt_le] at fromLow
  by_cases negative : low < 0
  · exact .inl (by simp [negative])
  · refine .inr (Int.le_trans ?_ fromLow)
    simpa [Int64.lt_iff_toInt_lt] using negative

/-- A selected type represents all of its interval, not only the ends. -/
theorem represents_select (above : low ≤ pattern) (below : pattern ≤ high) :
    (select low high signed).Represents pattern.toInt := by
  rcases select_eq low high signed with ⟨width, same, covered, _⟩
  rw [same, covers_iff, value_eq_toInt (signed_or_natural signed Int64.le_rfl),
    value_eq_toInt (signed_or_natural signed (Int64.le_trans above below))] at covered
  rw [same]
  exact covered.1.between covered.2 (Int64.le_iff_toInt_le.mp above)
    (Int64.le_iff_toInt_le.mp below)

theorem value_select (above : low ≤ pattern) :
    (select low high signed).value pattern = pattern.toInt := by
  rcases select_eq low high signed with ⟨width, same, _⟩
  rw [same]
  exact value_eq_toInt (signed_or_natural signed above)

/-- Without a sign asked for, no number is lost by the choice of the family. -/
theorem Represents.select_family {type : IntegerType} (ordered : low ≤ high)
    (lowest : type.Represents low.toInt) (highest : type.Represents high.toInt) :
    (⟨decide (low < 0), type.width⟩ : IntegerType).Represents low.toInt ∧
      (⟨decide (low < 0), type.width⟩ : IntegerType).Represents high.toInt := by
  rcases type with ⟨typeSigned, width⟩
  by_cases negative : low < 0
  · cases typeSigned with
    | true => simpa [negative] using And.intro lowest highest
    | false =>
        have natural := lowest.natural
        rw [Int64.lt_iff_toInt_lt, Int64.toInt_zero] at negative
        omega
  · have natural : 0 ≤ low.toInt := by simpa [Int64.lt_iff_toInt_lt] using negative
    rw [Int64.le_iff_toInt_le] at ordered
    simpa [negative] using
      And.intro (lowest.unsigned natural) (highest.unsigned (by omega))

/-- A narrower type than the selected one misses an end of the interval, if it is of the same
family or no sign was asked for. -/
theorem not_represents_narrower {type : IntegerType} (ordered : low ≤ high)
    (narrower : type.width.bytes < (select low high signed).width.bytes)
    (comparable : type.signed = (select low high signed).signed ∨ signed = false) :
    ¬(type.Represents low.toInt ∧ type.Represents high.toInt) := by
  rintro ⟨lowest, highest⟩
  rcases select_eq low high signed with ⟨width, same, _, missed⟩
  rw [same] at narrower comparable
  apply missed type.width narrower
  rw [covers_iff, value_eq_toInt (signed_or_natural signed Int64.le_rfl),
    value_eq_toInt (signed_or_natural signed ordered)]
  rcases comparable with family | rfl
  · dsimp only at family
    rw [← family]
    exact ⟨lowest, highest⟩
  · exact lowest.select_family ordered highest

end Interval

end IntegerType

namespace Column

/-! ## The smallest and the largest value -/

/-- What is kept by going through some values and taking each that beats the one kept so far is one
of them, and none beats it. -/
theorem foldl_unbeaten {α : Type} (beats : α → α → Prop) [DecidableRel beats]
    (asymmetric : ∀ first second, beats first second → ¬beats second first)
    (transitive : ∀ first second third, ¬beats first second → ¬beats second third →
      ¬beats first third) (first : α) (rest : List α) :
    let kept := rest.foldl (fun kept value => if beats value kept then value else kept) first
    kept ∈ first :: rest ∧ ∀ value ∈ first :: rest, ¬beats value kept := by
  dsimp only
  induction rest generalizing first with
  | nil => simpa using fun self => asymmetric first first self self
  | cons next rest induction =>
      rw [List.foldl_cons]
      by_cases better : beats next first
      · rw [if_pos better]
        rcases induction next with ⟨member, unbeaten⟩
        refine ⟨List.mem_cons_of_mem first member, fun value inside => ?_⟩
        rcases List.mem_cons.mp inside with rfl | later
        · exact transitive _ _ _ (asymmetric _ _ better) (unbeaten next (by simp))
        · exact unbeaten value later
      · rw [if_neg better]
        rcases induction first with ⟨member, unbeaten⟩
        refine ⟨by grind, fun value inside => ?_⟩
        rcases List.mem_cons.mp inside with rfl | later
        · exact unbeaten value (by simp)
        rcases List.mem_cons.mp later with rfl | behind
        · exact transitive _ _ _ better (unbeaten first (by simp))
        · exact unbeaten value (by simp [behind])

theorem leastOf_mem_and_le {values : Array Int64} (someValue : values ≠ #[]) :
    leastOf values ∈ values ∧ ∀ value ∈ values, leastOf values ≤ value := by
  rcases values with ⟨_ | ⟨first, rest⟩⟩
  · exact absurd rfl someValue
  · have unbeaten := foldl_unbeaten (fun first second : Int64 => first < second)
      (fun _ _ before => Int64.not_lt.mpr (Int64.le_of_lt before))
      (fun _ _ _ before after => Int64.not_lt.mpr
        (Int64.le_trans (Int64.not_lt.mp after) (Int64.not_lt.mp before))) first rest
    simpa [leastOf, Int64.not_lt] using unbeaten

theorem greatestOf_mem_and_le {values : Array Int64} (someValue : values ≠ #[]) :
    greatestOf values ∈ values ∧ ∀ value ∈ values, value ≤ greatestOf values := by
  rcases values with ⟨_ | ⟨first, rest⟩⟩
  · exact absurd rfl someValue
  · have unbeaten := foldl_unbeaten (fun first second : Int64 => second < first)
      (fun _ _ before => Int64.not_lt.mpr (Int64.le_of_lt before))
      (fun _ _ _ before after => Int64.not_lt.mpr
        (Int64.le_trans (Int64.not_lt.mp before) (Int64.not_lt.mp after))) first rest
    simpa [greatestOf, Int64.not_lt] using unbeaten

/-! ## The chosen type -/

def Storage.byValues (signed : Bool) : Storage :=
  if signed then .narrowestSigned else .narrowest

theorem type_analyze (name : String) (values : Array Int64) (signed : Bool) :
    (analyze name values (.byValues signed)).type =
      .select (leastOf values) (greatestOf values) signed := by
  cases signed <;> rfl

/-- The type that is chosen by some values represents each of them. No narrower type does, neither
one of the same family nor, unless a sign was asked for, one of the other. The recorded bounds are
the smallest and the largest value, or zero. -/
theorem width_adequate_and_minimal (name : String) (values : Array Int64) (signed : Bool) :
    let analysis := analyze name values (.byValues signed)
    (∀ value ∈ values, analysis.type.Represents value.toInt) ∧
    (signed = true → analysis.type.signed = true) ∧
    (∀ type : IntegerType, type.width.bytes < analysis.type.width.bytes →
      type.signed = analysis.type.signed ∨ signed = false →
        ∃ value ∈ values, ¬type.Represents value.toInt) ∧
    analysis.values.size = values.size ∧
    (values = #[] → analysis.least = 0 ∧ analysis.greatest = 0) ∧
    (values ≠ #[] →
      (analysis.least ∈ values ∧ ∀ value ∈ values, analysis.least ≤ value) ∧
      (analysis.greatest ∈ values ∧ ∀ value ∈ values, value ≤ analysis.greatest)) := by
  intro analysis
  have selected : analysis.type = .select analysis.least analysis.greatest signed :=
    type_analyze name values signed
  have extremes : values ≠ #[] →
      (analysis.least ∈ values ∧ ∀ value ∈ values, analysis.least ≤ value) ∧
      (analysis.greatest ∈ values ∧ ∀ value ∈ values, value ≤ analysis.greatest) :=
    fun someValue => ⟨leastOf_mem_and_le someValue, greatestOf_mem_and_le someValue⟩
  have noneRecorded : values = #[] → analysis.least = 0 ∧ analysis.greatest = 0 := by
    rintro rfl
    exact ⟨rfl, rfl⟩
  refine ⟨?_, ?_, ?_, rfl, noneRecorded, extremes⟩
  · intro value member
    rcases extremes (Array.ne_empty_of_mem member) with ⟨⟨_, least⟩, _, greatest⟩
    rw [selected]
    exact IntegerType.represents_select (least value member) (greatest value member)
  · rintro rfl
    rcases IntegerType.select_eq analysis.least analysis.greatest true with ⟨width, same, _⟩
    rw [selected, same]
    rfl
  · intro type narrower comparable
    rw [selected] at narrower comparable
    by_cases missing : values = #[]
    · -- Without values the narrowest type of the family is chosen.
      rcases noneRecorded missing with ⟨least, greatest⟩
      have one : (IntegerType.select 0 0 signed).width.bytes = 1 := by cases signed <;> decide
      rw [least, greatest, one] at narrower
      have positive : 0 < type.width.bytes := by cases type.width <;> decide
      omega
    · rcases extremes missing with ⟨⟨isLeast, least⟩, isGreatest, _⟩
      have missed := IntegerType.not_represents_narrower (least _ isGreatest) narrower comparable
      by_cases lowest : type.Represents analysis.least.toInt
      · exact ⟨analysis.greatest, isGreatest, fun highest => missed ⟨lowest, highest⟩⟩
      · exact ⟨analysis.least, isLeast, lowest⟩

end Column

end StateTables
