import StateTables.Proofs.Lookup
import StateTables.Source.Lookup

/-! # What generated comparisons give

A machine of a switch encoding finds a slot by statements: a switch over states, in it a switch over
single keys, branches for the ranges, and a result for the other keys. The statements are read as
they are run. A branch or a case without a result goes on with what follows, so that a key without a
range comes to the result for the other keys, from any depth.
-/

namespace StateTables.Source

/-! ## Running statements -/

abbrev Scope := String → Option Int

/-- How statements end: behind the last one, or with a value they give. -/
inductive Ending where
  | passes
  | gives (value : Int)
deriving DecidableEq, Repr

def Ending.andThen (later : Option Ending) : Ending → Option Ending
  | .passes => later
  | .gives value => some (.gives value)

section Meaning

variable (scope : Scope)

def Expression.integer? : Expression → Option Int
  | .name text => scope text
  | .number value => some value
  | _ => none

/-- Is a condition met? The right side of a connective counts only if the left side leaves it
open. -/
def Expression.holds? : Expression → Option Bool
  | .binary .both left right => do if ← left.holds? then right.holds? else return false
  | .binary .either left right => do if ← left.holds? then return true else right.holds?
  | .binary operator left right => do
    let first ← left.integer? scope
    let second ← right.integer? scope
    match operator with
    | .equal => return first == second
    | .notEqual => return first != second
    | .less => return decide (first < second)
    | .atMost => return decide (first ≤ second)
    | .greater => return decide (second < first)
    | .atLeast => return decide (second ≤ first)
    | _ => none
  | .paren inner => inner.holds?
  | _ => none

mutual

/-- Run a statement. What lookups by comparison do without has no meaning here. -/
def Statement.run? : Statement → Option Ending
  | .result (.cons value .nil) => (value.integer? scope).map .gives
  | .branch ⟨none, condition⟩ body otherwise => do
    if ← condition.holds? scope then body.run? else otherwise.run?
  | .switch (some subject) cases => do cases.run? (← subject.integer? scope) (some .passes)
  | .comment _ => some .passes
  | _ => none

def Otherwise.run? : Otherwise → Option Ending
  | .nothing => some .passes
  | .block body => body.run?
  | .branch ⟨none, condition⟩ body otherwise => do
    if ← condition.holds? scope then body.run? else otherwise.run?
  | .branch ⟨some _, _⟩ _ _ => none

def Block.run? : Block → Option Ending
  | .nil => some .passes
  | .cons head tail => do (← head.run?).andThen tail.run?

/-- Run the first case with the value of the subject, or the case without a label, if there is one.
Only one case is run. -/
def Cases.run? (subject : Int) (unlabelled : Option Ending) : Cases → Option Ending
  | .nil => unlabelled
  | .cons none body tail => tail.run? subject body.run?
  | .cons (some label) body tail => do
    if (← label.integer? scope) = subject then body.run? else tail.run? subject unlabelled

end

end Meaning

/-! ## One statement after the other -/

/-- The end of statements that look for a slot: they pass if there is none. -/
def Ending.ofSlot : Option Nat → Ending
  | none => .passes
  | some slot => .gives slot

theorem Ending.andThen_passes (ending : Ending) : ending.andThen (some .passes) = some ending := by
  cases ending <;> rfl

theorem Ending.andThen_ofSlot (first second : Option Nat) :
    (ofSlot first).andThen (some (ofSlot second)) = some (ofSlot (first.or second)) := by
  cases first <;> rfl

theorem Ending.ite_ofSlot {condition : Prop} [Decidable condition] {found other : Option Nat}
    {ending : Option Ending} (same : ending = some (ofSlot other)) :
    (if condition then some (ofSlot found) else ending) =
      some (ofSlot (if condition then found else other)) := by
  rw [same]
  split <;> rfl

namespace Block

variable (scope : Scope)

theorem run?_single (statement : Statement) :
    (cons statement .nil).run? scope = statement.run? scope := by
  rw [run?, run?]
  cases statement.run? scope with
  | none => rfl
  | some ending => exact ending.andThen_passes

theorem run?_ofList_append (front back : List Statement) :
    (ofList (front ++ back)).run? scope =
      ((ofList front).run? scope).bind (Ending.andThen ((ofList back).run? scope)) := by
  induction front with
  | nil => rfl
  | cons head front induction =>
      rw [List.cons_append, ofList, ofList, run?, run?, induction]
      cases head.run? scope with
      | none => rfl
      | some ending => cases ending <;> rfl

theorem ofList_statements (block : Block) : ofList (Model.statements block) = block := by
  induction block using Model.statements.induct with
  | case1 => rfl
  | case2 head tail induction => rw [Model.statements, ofList, induction]

end Block

theorem run?_switchOn {scope : Scope} {name : String} {value : Int}
    (reads : scope name = some value) (cases : List (Option Expression × List Statement)) :
    (switchOn name cases).run? scope = (Cases.ofList cases).run? scope value (some .passes) := by
  change (do Cases.run? scope (← scope name) (some .passes) _) = _
  rw [reads]
  rfl

namespace Model

theorem run?_chainBlock (scope : Scope) (otherwise : Otherwise) :
    (chainBlock otherwise).run? scope = otherwise.run? scope := by
  cases otherwise with
  | nothing => rfl
  | block body => rfl
  | branch guard body otherwise =>
      rcases guard with ⟨_ | _, condition⟩ <;> exact Block.run?_single scope _

/-! ## Comparisons -/

section Comparisons

variable (model : Model) {scope : Scope} {key : Key}
  (reads : scope "k" = some (model.encoding.alphabet.value key))
include reads

theorem holds?_comparison (bound : Key) :
    (less "k" (model.keyNumber bound)).holds? scope =
        some (model.encoding.alphabet.below key bound) ∧
      (greater "k" (model.keyNumber bound)).holds? scope =
        some (model.encoding.alphabet.above key bound) ∧
      (atLeast "k" (model.keyNumber bound)).holds? scope =
        some (model.encoding.alphabet.atLeast key bound) ∧
      (atMost "k" (model.keyNumber bound)).holds? scope =
        some (model.encoding.alphabet.atMost key bound) := by
  have decided : ∀ {met : Bool} {condition : Prop} [Decidable condition],
      (met = true ↔ condition) → met = decide condition :=
    fun same => Bool.eq_iff_iff.mpr (same.trans decide_eq_true_iff.symm)
  rw [decided (Alphabet.below_iff _ key bound), decided (Alphabet.above_iff _ key bound),
    decided (Alphabet.atLeast_iff _ key bound), decided (Alphabet.atMost_iff _ key bound)]
  simp [less, greater, atLeast, atMost, keyNumber, Expression.holds?, Expression.integer?, reads]

/-- A key passes the check of a node if it is not refused by a comparison that was kept. -/
theorem check_cases (range : SlotRange) (checkLow checkHigh : Bool) :
    (model.check range checkLow checkHigh = none ∧ checkLow = false ∧ checkHigh = false) ∨
    ∃ condition, model.check range checkLow checkHigh = some condition ∧
      condition.holds? scope = some
        (!(checkLow && model.encoding.alphabet.below key range.low) &&
          !(checkHigh && model.encoding.alphabet.above key range.high)) := by
  have low := (model.holds?_comparison reads range.low).2.2.1
  have high := (model.holds?_comparison reads range.high).2.2.2
  cases checkLow with
  | false =>
      cases checkHigh with
      | false => exact .inl ⟨rfl, rfl, rfl⟩
      | true => exact .inr ⟨_, rfl, high⟩
  | true =>
      cases checkHigh with
      | false => exact .inr ⟨_, rfl, by simpa [Alphabet.atLeast] using low⟩
      | true =>
          refine .inr ⟨_, rfl, ?_⟩
          change (do if ← Expression.holds? scope _ then Expression.holds? scope _ else _) = _
          rw [low, high]
          cases below : model.encoding.alphabet.below key range.low <;>
            simp [Alphabet.atLeast, Alphabet.atMost, below]

end Comparisons

theorem run?_chain_toward (model : Model) {scope : Scope} {condition : Expression} {met : Bool}
    (holds : condition.holds? scope = some met) (tree : RangeTree)
    (later : List (Expression × Block)) (last : Otherwise) :
    (chain ((if tree.isMiss then [] else [(condition, model.treeBlock tree)]) ++ later) last).run?
        scope =
      if !tree.isMiss && met then (model.treeBlock tree).run? scope
      else (chain later last).run? scope := by
  cases tree with
  | miss => rfl
  | node range checkLow checkHigh lower higher =>
      change (do if ← condition.holds? scope then _ else _) = _
      rw [holds]
      rfl

/-- The comparisons of a tree give the slot that the tree finds. -/
theorem run?_treeBlock (model : Model) {scope : Scope} {key : Key}
    (reads : scope "k" = some (model.encoding.alphabet.value key)) (tree : RangeTree) :
    (model.treeBlock tree).run? scope =
      some (.ofSlot (tree.find model.encoding.alphabet key)) := by
  induction tree with
  | miss => rfl
  | node range checkLow checkHigh lower higher lowerInduction higherInduction =>
      have below := (model.holds?_comparison reads range.low).1
      have above := (model.holds?_comparison reads range.high).2.1
      rw [treeBlock, run?_chainBlock, RangeTree.find]
      rcases model.check_cases reads range checkLow checkHigh with
        ⟨unchecked, rfl, rfl⟩ | ⟨condition, checked, holds⟩
      · rw [unchecked]
        dsimp only
        rw [run?_chain_toward model below, ← List.append_nil (if higher.isMiss then _ else _),
          run?_chain_toward model above, lowerInduction, higherInduction]
        exact Ending.ite_ofSlot (Ending.ite_ofSlot rfl)
      · rw [checked]
        dsimp only
        rw [List.append_assoc, run?_chain_toward model below, run?_chain_toward model above,
          lowerInduction, higherInduction]
        refine Ending.ite_ofSlot (Ending.ite_ofSlot ?_)
        change (do if ← condition.holds? scope then _ else _) = _
        rw [holds]
        cases checkLow && model.encoding.alphabet.below key range.low <;>
          cases checkHigh && model.encoding.alphabet.above key range.high <;> rfl

/-! ## States -/

section States

variable (model : Model) {scope : Scope} {key : Key}

theorem run?_singles (scope : Scope) (key : Key) (singles : List SwitchCase) :
    (Cases.ofList (singles.map fun single =>
        (some (model.keyNumber single.key), [give (numeral single.slot)]))).run? scope
        (model.encoding.alphabet.value key) (some .passes) =
      some (.ofSlot ((singles.find? fun single => single.key = key).map SwitchCase.slot)) := by
  induction singles with
  | nil => rfl
  | cons single singles induction =>
      change (if model.encoding.alphabet.value single.key = model.encoding.alphabet.value key then
        some (Ending.ofSlot (some single.slot)) else Cases.run? scope _ _ (Cases.ofList _)) = _
      rw [induction, List.find?_cons]
      by_cases same : single.key = key
      · simp [same]
      · rw [if_neg (by rwa [Alphabet.value_inj])]
        simp [same]

variable (reads : scope "k" = some (model.encoding.alphabet.value key))
include reads

theorem run?_stateLookup (state : SwitchState) :
    (Block.ofList (model.stateLookup state)).run? scope =
      some (.ofSlot (state.lookup model.encoding.alphabet key)) := by
  have singles : (Block.ofList (if state.singles.isEmpty then [] else
      [switchOn "k" (state.singles.map fun single =>
        (some (model.keyNumber single.key), [give (numeral single.slot)]))])).run? scope =
      some (.ofSlot
        ((state.singles.find? fun single => single.key = key).map SwitchCase.slot)) := by
    rw [← model.run?_singles scope key]
    cases state.singles with
    | nil => rfl
    | cons => exact (Block.run?_single scope _).trans (run?_switchOn reads _)
  have fallback : (Block.ofList (state.fallback.map fun slot => give (numeral slot)).toList).run?
      scope = some (.ofSlot state.fallback) := by
    cases state.fallback <;> rfl
  rw [stateLookup, Block.run?_ofList_append, Block.run?_ofList_append, Block.ofList_statements,
    singles, model.run?_treeBlock reads, fallback, Option.bind_some, Ending.andThen_ofSlot,
    Option.bind_some, Ending.andThen_ofSlot, SwitchState.lookup, Option.or_assoc]

/-- A switch over states takes the case of the state. A state without a case has no slots. -/
theorem run?_states (states : List SwitchState) (first id : Nat) :
    (Cases.ofList ((states.zipIdx first).filterMap fun (state, id) =>
        let body := model.stateLookup state
        if body.isEmpty then none else some (some (numeral id), body))).run? scope id
        (some .passes) =
      some (.ofSlot (if id < first then none
        else states[id - first]?.bind (·.lookup model.encoding.alphabet key))) := by
  induction states generalizing first with
  | nil => simp [Cases.ofList, Cases.run?, Ending.ofSlot]
  | cons state states induction =>
      have own := model.run?_stateLookup reads state
      have later : id ≠ first →
          (if id < first then none
            else (state :: states)[id - first]?.bind (·.lookup model.encoding.alphabet key)) =
          if id < first + 1 then none
            else states[id - (first + 1)]?.bind (·.lookup model.encoding.alphabet key) := by
        intro other
        by_cases before : id < first
        · rw [if_pos before, if_pos (Nat.lt_succ_of_lt before)]
        · have place : id - first = id - (first + 1) + 1 := by omega
          rw [if_neg before, if_neg (by omega), place, List.getElem?_cons_succ]
      rw [List.zipIdx_cons]
      cases body : model.stateLookup state with
      | nil =>
          rw [List.filterMap_cons_none (by simp [body]), induction]
          by_cases same : id = first
          · subst same
            have missing : state.lookup model.encoding.alphabet key = none := by
              rw [body] at own
              cases found : state.lookup model.encoding.alphabet key with
              | none => rfl
              | some slot =>
                  rw [found] at own
                  cases own
            rw [if_pos (Nat.lt_succ_self id), if_neg (Nat.lt_irrefl id), Nat.sub_self,
              List.getElem?_cons_zero, Option.bind_some, missing]
          · rw [later same]
      | cons statement more =>
          rw [List.filterMap_cons_some (by simp [body]; rfl)]
          change (if (first : Int) = id then (Block.ofList (statement :: more)).run? scope
            else Cases.run? scope id (some .passes) (Cases.ofList _)) = _
          by_cases same : id = first
          · subst same
            rw [if_pos rfl, ← body, own, if_neg (Nat.lt_irrefl id), Nat.sub_self,
              List.getElem?_cons_zero, Option.bind_some]
          · rw [if_neg (by omega), later same]
            exact induction (first + 1)

theorem run?_locateByComparison {id : Nat} (state : scope "cs" = some (id : Int))
    (states : Array SwitchState) :
    (Block.ofList (model.locateByComparison states)).run? scope =
      some (.gives (((states[id]?.bind (·.lookup model.encoding.alphabet key)).map
        Int.ofNat).getD (-1))) := by
  have cases := model.run?_states reads states.toList 0 id
  rw [if_neg (Nat.not_lt_zero id), Nat.sub_zero, Array.getElem?_toList] at cases
  change (do (← (switchOn "cs" _).run? scope).andThen (some (.gives (-1)))) = _
  rw [run?_switchOn state]
  refine (congrArg (Option.bind · _) cases).trans ?_
  cases states[id]?.bind (·.lookup model.encoding.alphabet key) <;> rfl

end States

end Model

/-! ## Switch encodings -/

def Scope.parameters (id : Nat) (value : Int) : Scope := fun name =>
  if name = "cs" then some id else if name = "k" then some value else none

/-- The lookup generated for a switch encoding gives the slot that the encoding has for a state and
a key, and the statements for the state give it already. Without a slot the statements for the state
are passed through, and the lookup gives -1, which does not happen for keys of the alphabet. The
draft of the graph names only condition spaces of its own. -/
theorem comparisons_give_slot {graph : Graph} (built : graph.Built) {options : EncodingOptions}
    {encoding : Encoding} (encoded : graph.encode options = .ok encoding)
    (kind : options.kind = .switch) (settings : Settings) :
    ∃ states body, encoding.lookup = .switch states ∧ states.size = graph.states.size ∧
      (Model.mk encoding settings).locate.declaration = .function settings.type "locate"
        ("cs int, k " ++ encoding.alphabet.host.name) (some "int") body ∧
      ∀ id state, states[id]? = some state → ∀ key : Key,
        (encoding.alphabet.contains key = true →
          ∃ slot, state.lookup encoding.alphabet key = some slot) ∧
        (∀ slot : Nat, state.lookup encoding.alphabet key = some slot →
          (Block.ofList ((Model.mk encoding settings).stateLookup state)).run?
              (.parameters id (encoding.alphabet.value key)) = some (.gives slot) ∧
            body.run? (.parameters id (encoding.alphabet.value key)) = some (.gives slot)) ∧
        (state.lookup encoding.alphabet key = none →
          (Block.ofList ((Model.mk encoding settings).stateLookup state)).run?
              (.parameters id (encoding.alphabet.value key)) = some .passes ∧
            body.run? (.parameters id (encoding.alphabet.value key)) = some (.gives (-1))) := by
  have laid := Graph.laid_of_encode encoded
  have made := laid.lookup
  simp only [Graph.keyLookup, kind, map_eq_ok] at made
  rcases made with ⟨states, steps, lookup⟩
  have count : states.toArray.size = graph.states.size := by
    simpa using (mapM_eq_ok.mp steps).1
  refine ⟨states.toArray, .ofList ((Model.mk encoding settings).locateByComparison states.toArray),
    lookup.symm, count, ?_, fun id state found key => ?_⟩
  · rw [Model.locate, ← lookup]
    rfl
  have reads : Scope.parameters id (encoding.alphabet.value key) "k" =
    some (encoding.alphabet.value key) := rfl
  have ofState := (Model.mk encoding settings).run?_stateLookup reads state
  have ofAll := (Model.mk encoding settings).run?_locateByComparison reads rfl states.toArray
  rw [found, Option.bind_some] at ofAll
  refine ⟨fun contained => ?_, fun slot same => ?_, fun missing => ?_⟩
  · have declared : id < graph.states.size := count ▸ (Array.getElem?_eq_some_iff.mp found).1
    rcases laid.exists_slot built.wired built.valid declared (laid.alphabet ▸ contained) with
      ⟨slot, _, _, located, _, _⟩
    rw [← lookup, KeyLookup.locate, found] at located
    dsimp only at located
    split at located
    next slot same =>
      cases located
      exact ⟨slot, same⟩
    next => cases located
  · rw [same] at ofState ofAll
    exact ⟨ofState, ofAll⟩
  · rw [missing] at ofState ofAll
    exact ⟨ofState, ofAll⟩

/-- The lookup generated for the sample gives a slot for a key of the guarded range. -/
theorem comparisons_give_slot_sample : ∃ encoding body, ∃ slot : Nat,
    Sample.graph.encode { Sample.options with kind := .switch } = .ok encoding ∧
    (Model.mk encoding ⟨"", "", "Sample", .goto, 0, 0⟩).locate.declaration =
      .function "Sample" "locate" "cs int, k int8" (some "int") body ∧
    body.run? (.parameters 1 12) = some (.gives slot) := by
  have succeeds : (Sample.graph.encode { Sample.options with kind := .switch }).isOk = true := by
    decide +kernel
  rcases exists_of_isOk succeeds with ⟨encoding, encoded⟩
  have alphabet : encoding.alphabet = .full ⟨true, .one⟩ :=
    (Graph.laid_of_encode encoded).alphabet.trans (by decide +kernel)
  rcases comparisons_give_slot Sample.built_graph encoded rfl ⟨"", "", "Sample", .goto, 0, 0⟩ with
    ⟨states, body, _, count, written, gives⟩
  rw [alphabet] at written gives
  have declared : 1 < states.size := count ▸ by decide +kernel
  rcases gives 1 _ (Array.getElem?_eq_getElem declared) (.ofInt 12) with ⟨exists_slot, found, _⟩
  rcases exists_slot (by decide +kernel) with ⟨slot, same⟩
  exact ⟨encoding, body, slot, encoded, written, (found slot same).2⟩

end StateTables.Source
