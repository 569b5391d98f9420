import StateTables.Machine.Drivers

/-! # Steps side by side

What the steps of a scan do to a scan, and how two steps are followed side by side:
from every good scan both end alike, in the same scan, and that scan is good again.
-/

namespace StateTables

/-! ## What the program of a graph reads -/

namespace Graph

variable {graph : Graph}

theorem part_eq_ok {α : Type} (table : String) {parts : Array α} {index : Nat} {found : α}
    (here : parts[index]? = some found) : part table parts index = .ok found := by
  rw [part, here]

theorem map_part_eq_ok {α β : Type} (table : String) (view : α → β) {parts : Array α} {index : Nat}
    {found : α} (here : parts[index]? = some found) :
    view <$> part table parts index = .ok (view found) := by
  rw [part_eq_ok table here]
  rfl

theorem getElem?_of_part {α : Type} {table : String} {parts : Array α} {index : Nat} {found : α}
    (read : part table parts index = .ok found) : parts[index]? = some found := by
  unfold part at read
  split at read
  next stored =>
    cases read
    exact stored
  next => cases read

theorem mem_of_part {α : Type} {table : String} {parts : Array α} {index : Nat} {found : α}
    (read : part table parts index = .ok found) : found ∈ parts :=
  Array.mem_of_getElem? (getElem?_of_part read)

theorem program_locate_eq_ok {state : Nat} {key : Key} {number : Nat} :
    graph.program.locate state key = .ok number ↔ graph.locate state key = some number := by
  unfold program
  dsimp only
  cases graph.locate state key <;> simp

theorem program_guardedMove_eq {number : Nat} {transition : Transition}
    (found : graph.transitions[number]? = some transition) (value : ConditionValue) :
    graph.program.guardedMove number value =
      match transition.lookup value with
      | some condition => graph.moveOf condition
      | none => .ok ⟨graph.error.getD 0, 0⟩ := by
  unfold program
  dsimp only [bind]
  rw [part_eq_ok "transitions" found]
  rfl

end Graph

namespace Step

variable {World α β γ δ : Type}

/-! ## What steps do -/

@[simp]
theorem pure_apply (value : α) (scan : Scan World) :
    (pure value : Step World α) scan = .ok (.ok value, scan) :=
  rfl

theorem bind_apply (step : Step World α) (next : α → Step World β) (scan : Scan World) :
    (step >>= next) scan = match step scan with
      | .ok (.ok value, after) => next value after
      | .ok (.error problem, after) => .ok (.error problem, after)
      | .error fault => .error fault := by
  simp only [bind, ExceptT.bind, ExceptT.mk, StateT.bind, Except.bind]
  cases step scan with
  | error fault => rfl
  | ok outcome =>
      rcases outcome with ⟨result, after⟩
      cases result <;> rfl

theorem discard_apply (step : Step World α) (scan : Scan World) :
    (discard step) scan = (step >>= fun _ => pure ()) scan := by
  rfl

/-! ## What a step ensures -/

/-- Where a step succeeds, its value and the scan it leaves have a property. -/
def Ensures (before : Scan World → Prop) (step : Step World α)
    (after : α → Scan World → Prop) : Prop :=
  ∀ scan, before scan → ∀ value next, step scan = .ok (.ok value, next) → after value next

namespace Ensures

variable {before : Scan World → Prop}

theorem pure {after : α → Scan World → Prop} {value : α}
    (property : ∀ scan, before scan → after value scan) :
    Ensures before (pure value) after := by
  intro scan isBefore value next done
  cases done
  exact property scan isBefore

theorem bind {middle : α → Scan World → Prop} {after : β → Scan World → Prop}
    {step : Step World α} {next : α → Step World β} (first : Ensures before step middle)
    (second : ∀ value, Ensures (middle value) (next value) after) :
    Ensures before (step >>= next) after := by
  intro scan isBefore value last done
  rw [bind_apply] at done
  split at done
  next first' between succeeded =>
    exact second _ _ (first scan isBefore _ _ succeeded) value last done
  next => cases done
  next => cases done

theorem weaken {after weaker : α → Scan World → Prop} {step : Step World α}
    (ensures : Ensures before step after)
    (implied : ∀ value scan, after value scan → weaker value scan) :
    Ensures before step weaker :=
  fun scan isBefore value next done => implied value next (ensures scan isBefore value next done)

theorem given {fact : Prop} {after : α → Scan World → Prop} {step : Step World α}
    (ensures : fact → Ensures before step after) :
    Ensures (fun scan => fact ∧ before scan) step after :=
  fun scan isBefore => ensures isBefore.1 scan isBefore.2

theorem bindKnown {known : α} {middle : Scan World → Prop} {after : β → Scan World → Prop}
    {step : Step World α} {next : α → Step World β}
    (first : Ensures before step fun value scan => value = known ∧ middle scan)
    (second : Ensures middle (next known) after) : Ensures before (step >>= next) after := by
  refine first.bind fun value => given fun same => ?_
  rw [same]
  exact second

theorem ofExists {γ : Type} {cases : γ → Scan World → Prop} {after : α → Scan World → Prop}
    {step : Step World α} (each : ∀ which, Ensures (cases which) step after) :
    Ensures (fun scan => ∃ which, cases which scan) step after := by
  intro scan isBefore
  rcases isBefore with ⟨which, isBefore⟩
  exact each which scan isBefore

theorem getBind {next : Scan World → Step World β} {after : β → Scan World → Prop}
    (each : ∀ scan, before scan → Ensures before (next scan) after) :
    Ensures before (get >>= next) after :=
  fun scan isBefore => each scan isBefore scan isBefore

theorem set {scan : Scan World} {after : Unit → Scan World → Prop} (isAfter : after () scan) :
    Ensures before (set scan) after := by
  intro other _ value next done
  cases done
  exact isAfter

theorem modify {change : Scan World → Scan World} {after : Unit → Scan World → Prop}
    (keeps : ∀ scan, before scan → after () (change scan)) :
    Ensures before (modify change) after := by
  intro scan isBefore value next done
  cases done
  exact keeps scan isBefore

theorem throw {after : α → Scan World → Prop} (problem : ScanError) :
    Ensures before (throw problem) after := by
  intro scan _ value next done
  cases done

theorem fault {after : α → Scan World → Prop} (fault : Fault) :
    Ensures before (Step.ask (.error fault)) after := by
  intro scan _ value next done
  cases done

theorem call {callback : Callback World α} {after : α → Scan World → Prop}
    (property : ∀ scan, before scan → ∀ answer world,
      callback scan.view scan.world = .ok (answer, world) →
        after answer { scan with world := world }) :
    Ensures before (Step.call callback) after := by
  intro scan isBefore value next done
  unfold Step.call at done
  split at done
  next answer world called =>
    cases done
    exact property scan isBefore value world called
  next => cases done

theorem discard {middle : α → Scan World → Prop} {after : Unit → Scan World → Prop}
    {step : Step World α} (ensures : Ensures before step middle)
    (implied : ∀ value scan, middle value scan → after () scan) :
    Ensures before (discard step) after :=
  ensures.bind fun value => .pure fun scan => implied value scan

theorem ensuring {middle after : α → Scan World → Prop} {step : Step World α}
    {change : Scan World → Scan World} (ensures : Ensures before step middle)
    (keeps : ∀ value scan, middle value scan → after value (change scan)) :
    Ensures before (step.ensuring change) after := by
  intro scan isBefore value next done
  unfold Step.ensuring at done
  split at done
  next result between stepped =>
    cases done
    exact keeps _ _ (ensures scan isBefore value between stepped)
  next => cases done

/-- What every round keeps holds until the last one, which gives the result. -/
theorem repeated {round : α → Step World (α ⊕ β)} {after : β → Scan World → Prop}
    {keeps : α → Scan World → Prop}
    (each : ∀ current, Ensures (keeps current) (round current) (Sum.elim keeps after)) (fuel : Nat)
    (current : α) :
    Ensures (keeps current) (Step.repeated round fuel current) after := by
  induction fuel generalizing current with
  | zero => exact fault .outOfFuel
  | succ fuel induction =>
      refine (each current).bind fun outcome => ?_
      cases outcome with
      | inl next => exact induction next
      | inr result => exact pure fun _ isAfter => isAfter

theorem anything (step : Step World α) : Ensures before step fun _ _ => True :=
  fun _ _ _ _ _ => trivial

theorem ask {answer : Except Fault α} {after : α → Scan World → Prop}
    (property : ∀ value, answer = .ok value → ∀ scan, before scan → after value scan) :
    Ensures before (Step.ask answer) after := by
  cases answer with
  | ok value =>
      intro scan isBefore result next done
      cases done
      exact property value rfl scan isBefore
  | error problem => exact fault problem

theorem askBind {answer : Except Fault α} {next : α → Step World β}
    {after : β → Scan World → Prop}
    (each : ∀ value, answer = .ok value → Ensures before (next value) after) :
    Ensures before (Step.ask answer >>= next) after := by
  cases answer with
  | ok value => exact each value rfl
  | error problem =>
      intro scan _ value next done
      cases done

end Ensures

/-! ## Two steps side by side -/

/-- Two steps ended alike, in the same good scan. -/
inductive Alike (good : Scan World → Prop) (holds : α → β → Prop) :
    Except Fault (Except ScanError α × Scan World) →
      Except Fault (Except ScanError β × Scan World) → Prop
  | done {value : α} {other : β} {scan : Scan World} :
      good scan → holds value other → Alike good holds (.ok (.ok value, scan)) (.ok (.ok other, scan))
  | problem {problem : ScanError} {scan : Scan World} :
      good scan → Alike good holds (.ok (.error problem, scan)) (.ok (.error problem, scan))
  | fault {fault : Fault} : Alike good holds (.error fault) (.error fault)

/-- From every good scan both steps end alike. -/
def Follows (good : Scan World → Prop) (holds : α → β → Prop) (left : Step World α)
    (right : Step World β) : Prop :=
  ∀ scan, good scan → Alike good holds (left scan) (right scan)

def Both (holds : α → Prop) (left right : α) : Prop :=
  left = right ∧ holds left

def Answers (holds : α → β → Prop) (left : Except Fault α) (right : Except Fault β) : Prop :=
  ∃ value other, left = .ok value ∧ right = .ok other ∧ holds value other

namespace Follows

variable {good : Scan World → Prop}

theorem pure {holds : α → β → Prop} {value : α} {other : β} (related : holds value other) :
    Follows good holds (pure value) (pure other) :=
  fun _ isGood => .done isGood related

theorem bind {middle : α → β → Prop} {holds : γ → δ → Prop} {left : Step World α}
    {right : Step World β} {leftNext : α → Step World γ} {rightNext : β → Step World δ}
    (first : Follows good middle left right)
    (next : ∀ value other, middle value other →
      Follows good holds (leftNext value) (rightNext other)) :
    Follows good holds (left >>= leftNext) (right >>= rightNext) := by
  intro scan isGood
  have alike := first scan isGood
  rw [bind_apply, bind_apply]
  generalize left scan = outcome, right scan = otherOutcome at alike
  cases alike with
  | done stillGood related => exact next _ _ related _ stillGood
  | problem stillGood => exact .problem stillGood
  | fault => exact .fault

theorem bindBoth {property : α → Prop} {holds : γ → δ → Prop} {left right : Step World α}
    {leftNext : α → Step World γ} {rightNext : α → Step World δ}
    (first : Follows good (Both property) left right)
    (next : ∀ value, property value → Follows good holds (leftNext value) (rightNext value)) :
    Follows good holds (left >>= leftNext) (right >>= rightNext) := by
  apply first.bind
  intro value other same
  rcases same with ⟨rfl, isProperty⟩
  exact next value isProperty

theorem bindSame {holds : γ → δ → Prop} {left right : Step World α}
    {leftNext : α → Step World γ} {rightNext : α → Step World δ}
    (first : Follows good Eq left right)
    (next : ∀ value, Follows good holds (leftNext value) (rightNext value)) :
    Follows good holds (left >>= leftNext) (right >>= rightNext) := by
  apply first.bind
  intro value other same
  cases same
  exact next value

theorem getBind {holds : γ → δ → Prop} {leftNext : Scan World → Step World γ}
    {rightNext : Scan World → Step World δ}
    (next : ∀ scan, good scan → Follows good holds (leftNext scan) (rightNext scan)) :
    Follows good holds (get >>= leftNext) (get >>= rightNext) :=
  fun scan isGood => next scan isGood scan isGood

theorem set {scan : Scan World} (isGood : good scan) :
    Follows good Eq (set scan) (set scan) :=
  fun _ _ => .done isGood rfl

theorem modify {change : Scan World → Scan World}
    (keeps : ∀ scan, good scan → good (change scan)) :
    Follows good Eq (modify change) (modify change) :=
  fun scan isGood => .done (keeps scan isGood) rfl

theorem throw {holds : α → β → Prop} (problem : ScanError) :
    Follows good holds (throw problem) (throw problem) :=
  fun _ isGood => .problem isGood

theorem ask {holds : α → β → Prop} {left : Except Fault α} {right : Except Fault β}
    (answers : Answers holds left right) : Follows good holds (Step.ask left) (Step.ask right) := by
  rcases answers with ⟨value, other, rfl, rfl, related⟩
  exact fun _ isGood => .done isGood related

theorem fault {holds : α → β → Prop} (fault : Fault) :
    Follows good holds (Step.ask (.error fault)) (Step.ask (.error fault)) :=
  fun _ _ => .fault

theorem askSame {answer : Except Fault α} (holds : α → Prop)
    (property : ∀ value, answer = .ok value → holds value) :
    Follows good (Both holds) (Step.ask answer) (Step.ask answer) := by
  cases answer with
  | ok value => exact ask ⟨value, value, rfl, rfl, rfl, property value rfl⟩
  | error problem => exact fault problem

theorem call (callback : Callback World α)
    (keeps : ∀ (scan : Scan World) world, good scan → good { scan with world := world }) :
    Follows good Eq (Step.call callback) (Step.call callback) := by
  intro scan isGood
  unfold Step.call
  cases callback scan.view scan.world with
  | ok outcome => exact .done (keeps scan outcome.2 isGood) rfl
  | error problem => exact .fault

theorem ensuring {holds : α → β → Prop} {left : Step World α} {right : Step World β}
    (follows : Follows good holds left right) {change : Scan World → Scan World}
    (keeps : ∀ scan, good scan → good (change scan)) :
    Follows good holds (left.ensuring change) (right.ensuring change) := by
  intro scan isGood
  have alike := follows scan isGood
  unfold Step.ensuring
  generalize left scan = outcome, right scan = otherOutcome at alike
  cases alike with
  | done stillGood related => exact .done (keeps _ stillGood) related
  | problem stillGood => exact .problem (keeps _ stillGood)
  | fault => exact .fault

theorem discard {holds : α → β → Prop} {left : Step World α} {right : Step World β}
    (follows : Follows good holds left right) :
    Follows good Eq (discard left) (discard right) :=
  follows.bind fun _ _ _ => .pure rfl

/-- Rounds that end alike, and go on alike, are repeated alike. -/
theorem repeated {round : α → Step World (α ⊕ γ)} {other : α → Step World (α ⊕ γ)}
    (each : ∀ current, Follows good Eq (round current) (other current)) (fuel : Nat)
    (current : α) :
    Follows good Eq (Step.repeated round fuel current) (Step.repeated other fuel current) := by
  induction fuel generalizing current with
  | zero => exact fault .outOfFuel
  | succ fuel induction =>
      apply (each current).bindSame
      intro outcome
      cases outcome with
      | inl next => exact induction next
      | inr result => exact .pure rfl

end Follows

end Step

end StateTables
