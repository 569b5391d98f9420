import StateTables.Proofs.Records
import StateTables.Proofs.Validity

/-! # Condition spaces

Condition spaces are looked up by the names of their predicates joined with zero characters. Names
without zero characters are told apart by that, except that no name at all and a single empty one
are joined to the same text. Of lists that are told apart, each has one space, with the number it
was given first, and a list of a forbidden length leaves a problem behind for good.
-/

namespace StateTables

namespace Draft

/-! ## Keys -/

/-- No name contains the character that names are joined with. -/
def Separable (conditions : List String) : Prop :=
  ∀ name ∈ conditions, Char.ofNat 0 ∉ name.toList

theorem toList_spaceKey (conditions : List String) :
    (spaceKey conditions).toList =
      [Char.ofNat 0].intercalate (conditions.map String.toList) := by
  rw [spaceKey, String.toList_intercalate, String.toList_singleton]

/-- The names can be read back from what they are joined to. -/
theorem splitOn_spaceKey {conditions : List String} (separable : Separable conditions)
    (someName : conditions ≠ []) :
    (spaceKey conditions).toList.splitOn (Char.ofNat 0) = conditions.map String.toList := by
  rw [toList_spaceKey]
  apply List.splitOn_intercalate
  · intro characters member
    rcases List.mem_map.mp member with ⟨name, inside, rfl⟩
    exact separable name inside
  · simpa using someName

theorem eq_of_spaceKey {first second : List String} (firstSeparable : Separable first)
    (secondSeparable : Separable second) (same : spaceKey first = spaceKey second) :
    first = second ∨ first = [] ∧ second = [""] ∨ first = [""] ∧ second = [] := by
  have single : ∀ conditions, Separable conditions → conditions ≠ [] →
      spaceKey conditions = spaceKey [] → conditions = [""] := by
    intro conditions separable someName isEmpty
    have read := splitOn_spaceKey separable someName
    rw [isEmpty, toList_spaceKey] at read
    apply List.map_injective_iff.mpr fun _ _ => String.toList_inj.mp
    exact read.symm
  by_cases firstEmpty : first = [] <;> by_cases secondEmpty : second = []
  · exact .inl (firstEmpty.trans secondEmpty.symm)
  · subst firstEmpty
    exact .inr (.inl ⟨rfl, single second secondSeparable secondEmpty same.symm⟩)
  · subst secondEmpty
    exact .inr (.inr ⟨single first firstSeparable firstEmpty same, rfl⟩)
  · have read := splitOn_spaceKey firstSeparable firstEmpty
    rw [same, splitOn_spaceKey secondSeparable secondEmpty] at read
    exact .inl (List.map_injective_iff.mpr (fun _ _ => String.toList_inj.mp) read.symm)

/-! ## Spaces of a draft -/

def KeysApart (operations : List DraftStep) : Prop :=
  ∀ first second, .internSpace first ∈ operations → .internSpace second ∈ operations →
    spaceKey first = spaceKey second → first = second

/-- Spaces stand at their numbers, were asked for, and differ in their predicates; those of a
forbidden size were reported. -/
structure Catalogued (operations : List DraftStep) (draft : Draft) : Prop where
  numbered : ∀ (index : Nat) (space : ConditionSpace), draft.spaces[index]? = some space →
    space.id = index
  asked : ∀ space ∈ draft.spaces, .internSpace space.conditions ∈ operations
  distinct : ∀ first ∈ draft.spaces, ∀ second ∈ draft.spaces,
    first.conditions = second.conditions → first = second
  reported : ∀ space ∈ draft.spaces, space.size = 0 ∨ 32 < space.size →
    .spaceSize space.size ∈ draft.errors

theorem spaces_perform (draft : Draft) {operation : DraftStep}
    (other : ∀ conditions, operation ≠ .internSpace conditions) :
    (draft.perform operation).spaces = draft.spaces := by
  cases plain : configures operation with
  | false => exact (keeps_perform (fun _ => True) draft operation (by simp) plain).spaces
  | true =>
      cases operation with
      | setStart name => exact (keeps_declareState (fun _ => True) draft name).spaces
      | requireError => rfl
      | internSpace conditions => exact absurd rfl (other conditions)
      | _ => cases plain

/-- What the space is that is asked for, and what it leaves of the others. -/
theorem Catalogued.internSpace {operations : List DraftStep} {draft : Draft}
    (catalogued : Catalogued operations draft) {conditions : List String}
    (apart : KeysApart (operations ++ [.internSpace conditions])) :
    Catalogued (operations ++ [.internSpace conditions]) (draft.internSpace conditions).1 ∧
      (draft.internSpace conditions).2 ∈ (draft.internSpace conditions).1.spaces ∧
      (draft.internSpace conditions).2.conditions = conditions := by
  have asked : ∀ space ∈ draft.spaces,
      .internSpace space.conditions ∈ operations ++ [.internSpace conditions] :=
    fun space member => by simp [catalogued.asked space member]
  rcases internSpace_eq draft conditions with ⟨space, member, sameKey, same⟩ | ⟨fresh, same⟩
  · rw [same]
    have found := apart space.conditions conditions (asked space member) (by simp) sameKey
    exact ⟨{ catalogued with asked := asked }, member, found⟩
  · rw [same]
    have unknown : ∀ space ∈ draft.spaces, space.conditions ≠ conditions :=
      fun space member isSame => fresh space member (congrArg spaceKey isSame)
    refine ⟨?_, Array.mem_push_self, rfl⟩
    exact {
      numbered := by
        intro index space found
        rw [Array.getElem?_push] at found
        split at found
        next isLast =>
          cases found
          exact isLast.symm
        next => exact catalogued.numbered index space found
      asked := by
        intro space member
        rcases Array.mem_push.mp member with old | rfl
        · exact asked space old
        · simp
      distinct := by
        intro first firstMember second secondMember isSame
        rcases Array.mem_push.mp firstMember with old | rfl <;>
          rcases Array.mem_push.mp secondMember with alsoOld | rfl
        · exact catalogued.distinct first old second alsoOld isSame
        · exact absurd isSame (unknown first old)
        · exact absurd isSame.symm (unknown second alsoOld)
        · rfl
      reported := by
        intro space member badSize
        rcases Array.mem_push.mp member with old | rfl
        · exact List.mem_append_left _ (catalogued.reported space old badSize)
        · have badSize : conditions.length = 0 ∨ 32 < conditions.length := badSize
          rw [if_pos badSize]
          exact List.mem_append_right _ (List.mem_singleton.mpr rfl) }

theorem KeysApart.front {operations later : List DraftStep}
    (apart : KeysApart (operations ++ later)) : KeysApart operations :=
  fun first second isFirst isSecond =>
    apart first second (by simp [isFirst]) (by simp [isSecond])

section Made

variable {name : String} {alphabet : Alphabet} {operations : List DraftStep}

theorem catalogued_ofSteps (apart : KeysApart operations) :
    Catalogued operations (ofSteps name alphabet operations) := by
  induction operations using List.reverseRecOn with
  | nil => exact ⟨by simp [ofSteps, empty], by simp [ofSteps, empty], by simp [ofSteps, empty],
      by simp [ofSteps, empty]⟩
  | append_singleton operations operation induction =>
      have before := induction apart.front
      rw [ofSteps_concat]
      by_cases interns : ∃ conditions, operation = .internSpace conditions
      · rcases interns with ⟨conditions, rfl⟩
        exact (before.internSpace apart).1
      · have same := spaces_perform (ofSteps name alphabet operations)
          fun conditions isSame => interns ⟨conditions, isSame⟩
        exact {
          numbered := same ▸ before.numbered
          asked := fun space member => by simp [before.asked space (same ▸ member)]
          distinct := same ▸ before.distinct
          reported := fun space member badSize => mem_errors_perform _ operation
            (before.reported space (same ▸ member) badSize) }

theorem mem_spaces_append {space : ConditionSpace} (later : List DraftStep)
    (member : space ∈ (ofSteps name alphabet operations).spaces) :
    space ∈ (ofSteps name alphabet (operations ++ later)).spaces := by
  induction later using List.reverseRecOn with
  | nil => simpa using member
  | append_singleton later operation induction =>
      rw [← List.append_assoc, ofSteps_concat]
      exact (adds_perform (distinct_ofSteps _ _ _) operation).spaces space induction

variable (name alphabet operations) in
/-- What is returned where a condition space is asked for at a position of some operations. -/
def spaceAt (index : Nat) (conditions : List String) : ConditionSpace :=
  ((ofSteps name alphabet (operations.take index)).internSpace conditions).2

theorem spaceAt_mem (apart : KeysApart operations) {index : Nat} {conditions : List String}
    (asked : operations[index]? = some (.internSpace conditions)) :
    spaceAt name alphabet operations index conditions ∈
        (ofSteps name alphabet operations).spaces ∧
      (spaceAt name alphabet operations index conditions).conditions = conditions := by
  have front : operations.take (index + 1) =
      operations.take index ++ [.internSpace conditions] := by
    rw [List.take_add_one, asked]
    rfl
  have parts := List.take_append_drop (index + 1) operations
  rw [front] at parts
  rw [← parts] at apart
  rcases (catalogued_ofSteps apart.front.front).internSpace apart.front with ⟨_, member, content⟩
  refine ⟨?_, content⟩
  have added : spaceAt name alphabet operations index conditions ∈
      (ofSteps name alphabet (operations.take index ++ [.internSpace conditions])).spaces := by
    rw [ofSteps_concat]
    exact member
  have stays := mem_spaces_append (operations.drop (index + 1)) added
  rwa [parts] at stays

end Made

/-- Names are told apart by what they are joined to, if none has a zero character and not both no
name and a single empty one are asked for. -/
theorem keysApart_of_separable {operations : List DraftStep}
    (separable : ∀ conditions, .internSpace conditions ∈ operations → Separable conditions)
    (notBoth : ¬(.internSpace [] ∈ operations ∧ .internSpace [""] ∈ operations)) :
    KeysApart operations := by
  intro first second isFirst isSecond same
  rcases eq_of_spaceKey (separable first isFirst) (separable second isSecond) same with
    isSame | ⟨rfl, rfl⟩ | ⟨rfl, rfl⟩
  · exact isSame
  · exact absurd ⟨isFirst, isSecond⟩ notBoth
  · exact absurd ⟨isSecond, isFirst⟩ notBoth

/-- Whatever else is asked of a draft, a condition space has the predicates it was asked for with,
and stays at its number; two calls return the space of one number exactly if they ask for the same
predicates in the same order; and once predicates were too few or too many, nothing is built. This
is so for names without zero characters, of which no name and a single empty one do not both
occur. -/
theorem spaces_interned_by_content {name : String} {alphabet : Alphabet}
    {operations : List DraftStep}
    (separable : ∀ conditions, .internSpace conditions ∈ operations → Separable conditions)
    (notBoth : ¬(.internSpace [] ∈ operations ∧ .internSpace [""] ∈ operations)) :
    (∀ (index : Nat) conditions, operations[index]? = some (.internSpace conditions) →
      (spaceAt name alphabet operations index conditions).conditions = conditions ∧
      (ofSteps name alphabet operations).spaces[
          (spaceAt name alphabet operations index conditions).id]? =
        some (spaceAt name alphabet operations index conditions)) ∧
    (∀ (i j : Nat) first second, operations[i]? = some (.internSpace first) →
      operations[j]? = some (.internSpace second) →
        ((spaceAt name alphabet operations i first).id =
          (spaceAt name alphabet operations j second).id ↔ first = second)) ∧
    ∀ conditions, .internSpace conditions ∈ operations →
      conditions.length = 0 ∨ 32 < conditions.length →
        ∃ after problems, (ofSteps name alphabet operations).build = (after, .error problems) ∧
          ∃ problem ∈ problems, problem = .spaceSize conditions.length ∧
            problem.reason = .malformedGraph := by
  have apart := keysApart_of_separable separable notBoth
  have catalogued : Catalogued operations (ofSteps name alphabet operations) :=
    catalogued_ofSteps apart
  refine ⟨?_, ?_, ?_⟩
  · intro index conditions asked
    rcases spaceAt_mem apart asked with ⟨member, content⟩
    exact ⟨content, getElem?_id catalogued.numbered member⟩
  · intro i j first second isFirst isSecond
    rcases spaceAt_mem apart isFirst with ⟨firstMember, firstContent⟩
    rcases spaceAt_mem apart isSecond with ⟨secondMember, secondContent⟩
    constructor
    · intro sameId
      have same := getElem?_id catalogued.numbered firstMember
      rw [sameId, getElem?_id catalogued.numbered secondMember] at same
      rw [← firstContent, ← secondContent, Option.some.inj same]
    · intro sameList
      rw [catalogued.distinct _ firstMember _ secondMember
        (firstContent.trans (sameList.trans secondContent.symm))]
  · intro conditions asked badSize
    rcases List.mem_iff_getElem?.mp asked with ⟨index, isAsked⟩
    rcases spaceAt_mem apart isAsked with ⟨member, content⟩
    have reported := catalogued.reported _ member
    rw [ConditionSpace.size, content] at reported
    rcases build_of_problem _ (reported badSize) with ⟨after, problems, built, inside⟩
    exact ⟨after, problems, built, _, inside, rfl, rfl⟩

end Draft

namespace Sample

def interned : List DraftStep := [
  .internSpace ["a", "b"],
  .internSpace ["b", "a"],
  .internSpace ["ab"],
  .internSpace ["a", "b"],
  .internSpace []]

theorem separable_interned : ∀ conditions, .internSpace conditions ∈ interned →
    Draft.Separable conditions := by
  intro conditions asked
  have listed : conditions = ["a", "b"] ∨ conditions = ["b", "a"] ∨ conditions = ["ab"] ∨
      conditions = ["a", "b"] ∨ conditions = [] := by simpa [interned] using asked
  unfold Draft.Separable
  rcases listed with rfl | rfl | rfl | rfl | rfl <;> decide

/-- Lists that are joined to the same text: an empty name and none, two names and one with the
character in between. -/
def confused : List DraftStep := [
  .internSpace [""],
  .internSpace [],
  .internSpace ["a", "b"],
  .internSpace ["a\x00b"],
  .setStart "s",
  .setFallback "s" (.plain ⟨"s", []⟩)]

def confusedDraft : Draft :=
  .ofSteps "spaces" (.full ⟨true, .one⟩) confused

end Sample

/-- The first and the fourth call return the same space, the second returns another one, and because
of the last one nothing is built. -/
theorem spaces_interned_by_content_sample :
    (Draft.spaceAt "spaces" (.full ⟨true, .one⟩) Sample.interned 0 ["a", "b"]).id =
      (Draft.spaceAt "spaces" (.full ⟨true, .one⟩) Sample.interned 3 ["a", "b"]).id ∧
    (Draft.spaceAt "spaces" (.full ⟨true, .one⟩) Sample.interned 0 ["a", "b"]).id ≠
      (Draft.spaceAt "spaces" (.full ⟨true, .one⟩) Sample.interned 1 ["b", "a"]).id ∧
    ∃ after problems,
      (Draft.ofSteps "spaces" (.full ⟨true, .one⟩) Sample.interned).build =
        (after, .error problems) ∧
      ∃ problem ∈ problems, problem = .spaceSize 0 ∧ problem.reason = .malformedGraph := by
  rcases Draft.spaces_interned_by_content Sample.separable_interned (by decide) with
    ⟨_, same, refused⟩
  refine ⟨(same 0 3 _ _ rfl rfl).mpr rfl, ?_, refused [] (by decide) (.inl rfl)⟩
  exact mt (same 0 1 _ _ rfl rfl).mp (by decide)

/-- Different lists get the same space, which has the predicates of one of them only, and a list
without predicates is not noticed. -/
theorem spaces_confused_sample :
    (Draft.spaceAt "spaces" (.full ⟨true, .one⟩) Sample.confused 1 [] =
        Draft.spaceAt "spaces" (.full ⟨true, .one⟩) Sample.confused 0 [""] ∧
      (Draft.spaceAt "spaces" (.full ⟨true, .one⟩) Sample.confused 1 []).conditions = [""]) ∧
    (Draft.spaceAt "spaces" (.full ⟨true, .one⟩) Sample.confused 3 ["a\x00b"] =
        Draft.spaceAt "spaces" (.full ⟨true, .one⟩) Sample.confused 2 ["a", "b"] ∧
      (Draft.spaceAt "spaces" (.full ⟨true, .one⟩) Sample.confused 3 ["a\x00b"]).conditions =
        ["a", "b"]) ∧
    ∃ graph, Sample.confusedDraft.build = (Sample.confusedDraft, .ok graph) :=
  ⟨by decide +kernel, by decide +kernel, _, Draft.build_of_checks (by decide +kernel)⟩

end StateTables
