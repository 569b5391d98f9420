import StateTables.Proofs.TableSafety

/-! # Two scans side by side

Two scans of one machine may differ in their chunks, and so in where they stand in them. If
they are coupled, which means that a callback cannot tell them apart, then every step takes
both the same way: with the same result, the same error or a fault that both have. Only an
alternate that is gone from one of the chunks is another matter.
-/

namespace StateTables

/-! ## What callbacks can tell -/

/-- The same fault, but for where a key was missing. -/
def Fault.Alike (left right : Fault) : Prop :=
  left = right ∨ ∃ here there, left = .outsideChunk here ∧ right = .outsideChunk there

theorem Fault.Alike.refl (fault : Fault) : fault.Alike fault :=
  .inl rfl

theorem Fault.Alike.ne_outOfFuel {left right : Fault} (alike : left.Alike right) :
    left ≠ .outOfFuel ↔ right ≠ .outOfFuel := by
  rcases alike with rfl | ⟨here, there, rfl, rfl⟩
  · rfl
  · simp

inductive AnswersAlike {α : Type} : Except Fault α → Except Fault α → Prop
  | answer (value : α) : AnswersAlike (.ok value) (.ok value)
  | fault {left right : Fault} : left.Alike right → AnswersAlike (.error left) (.error right)

theorem AnswersAlike.refl {α : Type} (answer : Except Fault α) : AnswersAlike answer answer := by
  cases answer with
  | ok value => exact .answer value
  | error fault => exact .fault (.refl fault)

theorem AnswersAlike.bind {α β : Type} {left right : Except Fault α}
    (alike : AnswersAlike left right) (next : α → Except Fault β) :
    AnswersAlike (left >>= next) (right >>= next) := by
  cases alike with
  | answer value => exact .refl (next value)
  | fault alike => exact .fault alike

/-- The views are the same, but for the chunk and the key in it. -/
structure View.Corresponds (left right : View) : Prop where
  state : left.state = right.state
  absolute : left.absolute = right.absolute
  accepted : left.accepted = right.accepted
  callDepth : left.callDepth = right.callDepth
  alternateDepth : left.alternateDepth = right.alternateDepth
  trace : left.trace = right.trace

/-- The callback cannot tell two views apart. -/
def Callback.Confuses {World α : Type} (callback : Callback World α) (left right : View) : Prop :=
  ∀ world, AnswersAlike (callback left world) (callback right world)

/-- What can be seen of both scans is the same. -/
structure Scan.Matches {World : Type} (left right : Scan World) : Prop where
  state : left.state = right.state
  absolute : left.absolute = right.absolute
  accepted : left.accepted = right.accepted
  rejected : left.rejected = right.rejected
  calls : left.calls = right.calls
  alternates : left.alternates = right.alternates
  trace : left.trace = right.trace
  world : left.world = right.world

theorem Scan.Matches.corresponds {World : Type} {left right : Scan World}
    (same : left.Matches right) : left.view.Corresponds right.view where
  state := same.state
  absolute := same.absolute
  accepted := same.accepted
  callDepth := congrArg FrameStack.depth same.calls
  alternateDepth := congrArg FrameStack.depth same.alternates
  trace := same.trace

/-- The scan stays where it is in its chunk, and with the same alternates. -/
structure Scan.Stays {World : Type} (before after : Scan World) : Prop where
  position : after.position = before.position
  base : after.base = before.base
  chunk : after.chunk = before.chunk
  ended : after.ended = before.ended
  resumed : after.resumed = before.resumed
  done : after.done = before.done
  accepted : after.accepted = before.accepted
  alternates : after.alternates = before.alternates

theorem Scan.Stays.update {World : Type} (scan : Scan World) (state : Nat) (rejected : Bool)
    (calls : FrameStack) (trace : Array Event) (world : World) :
    scan.Stays { scan with
      state := state, rejected := rejected, calls := calls, trace := trace, world := world } :=
  ⟨rfl, rfl, rfl, rfl, rfl, rfl, rfl, rfl⟩

namespace Step

variable {World α β γ δ : Type}

/-! ## Pairs of outcomes -/

/-- Two steps end together. The first may also miss an alternate. -/
inductive Joined (failed : Scan World → Scan World → Prop)
    (after : α → β → Scan World → Scan World → Prop) :
    Except Fault (Except ScanError α × Scan World) →
      Except Fault (Except ScanError β × Scan World) → Prop
  | done {value : α} {other : β} {left right : Scan World} :
      after value other left right →
        Joined failed after (.ok (.ok value, left)) (.ok (.ok other, right))
  | problem {problem : ScanError} {left right : Scan World} : failed left right →
      Joined failed after (.ok (.error problem, left)) (.ok (.error problem, right))
  | fault {left right : Fault} : left.Alike right → Joined failed after (.error left) (.error right)
  | stale {position base : Int} {left : Scan World}
      {outcome : Except Fault (Except ScanError β × Scan World)} :
      Joined failed after (.ok (.error (.staleAlternate position base), left)) outcome

def Joins (failed before : Scan World → Scan World → Prop) (step : Step World α)
    (other : Step World β) (after : α → β → Scan World → Scan World → Prop) : Prop :=
  ∀ left right, before left right → Joined failed after (step left) (other right)

def Same (after : α → Scan World → Scan World → Prop) :
    α → α → Scan World → Scan World → Prop :=
  fun value other left right => value = other ∧ after value left right

namespace Joins

variable {failed before : Scan World → Scan World → Prop}

theorem pure {after : α → β → Scan World → Scan World → Prop} {value : α} {other : β}
    (property : ∀ left right, before left right → after value other left right) :
    Joins failed before (Pure.pure value) (Pure.pure other) after :=
  fun left right related => .done (property left right related)

theorem bind {middle : α → Scan World → Scan World → Prop}
    {after : γ → δ → Scan World → Scan World → Prop} {step other : Step World α}
    {next : α → Step World γ} {otherNext : α → Step World δ}
    (first : Joins failed before step other (Same middle))
    (second : ∀ value, Joins failed (middle value) (next value) (otherNext value) after) :
    Joins failed before (step >>= next) (other >>= otherNext) after := by
  intro left right related
  have joined := first left right related
  rw [bind_apply, bind_apply]
  generalize step left = outcome, other right = otherOutcome at joined
  cases joined with
  | done both =>
      rcases both with ⟨rfl, between⟩
      exact second _ _ _ between
  | problem failing => exact .problem failing
  | fault alike => exact .fault alike
  | stale => exact .stale

theorem weaken {after weaker : α → β → Scan World → Scan World → Prop} {step : Step World α}
    {other : Step World β} (joins : Joins failed before step other after)
    (implied : ∀ value another left right, after value another left right →
      weaker value another left right) : Joins failed before step other weaker := by
  intro left right related
  have joined := joins left right related
  generalize step left = outcome, other right = otherOutcome at joined
  cases joined with
  | done both => exact .done (implied _ _ _ _ both)
  | problem failing => exact .problem failing
  | fault alike => exact .fault alike
  | stale => exact .stale

theorem strengthen {stronger : Scan World → Scan World → Prop}
    {after : α → β → Scan World → Scan World → Prop} {step : Step World α} {other : Step World β}
    (joins : Joins failed before step other after)
    (implied : ∀ left right, stronger left right → before left right) :
    Joins failed stronger step other after :=
  fun left right related => joins left right (implied left right related)

theorem failing {worse : Scan World → Scan World → Prop}
    {after : α → β → Scan World → Scan World → Prop} {step : Step World α} {other : Step World β}
    (joins : Joins failed before step other after)
    (implied : ∀ left right, failed left right → worse left right) :
    Joins worse before step other after := by
  intro left right related
  have joined := joins left right related
  generalize step left = outcome, other right = otherOutcome at joined
  cases joined with
  | done both => exact .done both
  | problem failing => exact .problem (implied _ _ failing)
  | fault alike => exact .fault alike
  | stale => exact .stale

theorem given {fact : Prop} {after : α → β → Scan World → Scan World → Prop} {step : Step World α}
    {other : Step World β} (joins : fact → Joins failed before step other after) :
    Joins failed (fun left right => fact ∧ before left right) step other after :=
  fun left right related => joins related.1 left right related.2

theorem getBind {after : α → β → Scan World → Scan World → Prop}
    {next : Scan World → Step World α} {otherNext : Scan World → Step World β}
    (each : ∀ left right, before left right →
      Joins failed before (next left) (otherNext right) after) :
    Joins failed before (get >>= next) (get >>= otherNext) after :=
  fun left right related => each left right related left right related

theorem modify {change : Scan World → Scan World} {after : Unit → Scan World → Scan World → Prop}
    (keeps : ∀ left right, before left right → after () (change left) (change right)) :
    Joins failed before (modify change) (modify change) (Same after) :=
  fun left right related => .done ⟨rfl, keeps left right related⟩

theorem set {left right : Scan World} {after : Unit → Scan World → Scan World → Prop}
    (isAfter : after () left right) :
    Joins failed before (set left) (set right) (Same after) :=
  fun _ _ _ => .done ⟨rfl, isAfter⟩

theorem setBind {left right : Scan World} {middle : Scan World → Scan World → Prop}
    {after : α → β → Scan World → Scan World → Prop} {next : Step World α}
    {otherNext : Step World β} (between : middle left right)
    (joins : Joins failed middle next otherNext after) :
    Joins failed before (MonadStateOf.set left >>= fun _ => next)
      (MonadStateOf.set right >>= fun _ => otherNext) after :=
  fun _ _ _ => joins left right between

theorem throw {after : α → β → Scan World → Scan World → Prop} {problem : ScanError}
    (fails : ∀ left right, before left right → failed left right) :
    Joins failed before (throw problem) (throw problem) after :=
  fun left right related => .problem (fails left right related)

theorem ask (answer : Except Fault α) :
    Joins failed before (Step.ask answer) (Step.ask answer)
      (Same fun value left right => answer = .ok value ∧ before left right) := by
  intro left right related
  cases answer with
  | ok value => exact .done ⟨rfl, rfl, related⟩
  | error fault => exact .fault (.refl fault)

theorem askAlike {answer other : Except Fault α} (alike : AnswersAlike answer other) :
    Joins failed before (Step.ask answer) (Step.ask other)
      (Same fun value left right => answer = .ok value ∧ before left right) := by
  intro left right related
  cases alike with
  | answer value => exact .done ⟨rfl, rfl, related⟩
  | fault alike => exact .fault alike

theorem discard {middle : α → Scan World → Scan World → Prop}
    {after : Unit → Scan World → Scan World → Prop} {step other : Step World α}
    (joins : Joins failed before step other (Same middle))
    (implied : ∀ value left right, middle value left right → after () left right) :
    Joins failed before (discard step) (discard other) (Same after) :=
  joins.bind fun value => .pure fun left right between => ⟨rfl, implied value left right between⟩

theorem ensuring {middle after : α → Scan World → Scan World → Prop}
    {missed : Scan World → Scan World → Prop} {step other : Step World α}
    {change : Scan World → Scan World} (joins : Joins missed before step other (Same middle))
    (keeps : ∀ value left right, middle value left right → after value (change left) (change right))
    (fails : ∀ left right, missed left right → failed (change left) (change right)) :
    Joins failed before (step.ensuring change) (other.ensuring change) (Same after) := by
  intro left right related
  have joined := joins left right related
  unfold Step.ensuring
  generalize step left = outcome, other right = otherOutcome at joined
  cases joined with
  | done both => exact .done ⟨both.1, keeps _ _ _ both.2⟩
  | problem failing => exact .problem (fails _ _ failing)
  | fault alike => exact .fault alike
  | stale => exact .stale

end Joins

def Couples (related : Scan World → Scan World → Prop) (step : Step World α) : Prop :=
  Joins related related step step (Same fun _ => related)

theorem Couples.discard {related : Scan World → Scan World → Prop} {step : Step World α}
    (couples : Couples related step) : Couples related (discard step) :=
  Joins.discard couples fun _ _ _ => id

end Step

open Step (Joins Same Couples)

/-! ## Relations that steps keep -/

/-- The relation is one of scans that match, and is about where they stand only. -/
structure Coupling {World : Type} (related : Scan World → Scan World → Prop) : Prop where
  same : ∀ {left right}, related left right → left.Matches right
  keeps : ∀ {left right nextLeft nextRight}, related left right → left.Stays nextLeft →
    right.Stays nextRight → nextLeft.Matches nextRight → related nextLeft nextRight

namespace Machine

variable {World : Type} {machine : Machine World} {related : Scan World → Scan World → Prop}

section Coupling

variable (coupling : Coupling related)
include coupling

theorem couples_record (kind : EventKind) (state action : Nat) :
    Couples related (machine.record kind state action) := by
  unfold record
  split
  next =>
    apply Joins.modify
    intro left right both
    have same := coupling.same both
    refine coupling.keeps both (.update _ _ _ _ _ _) (.update _ _ _ _ _ _) { same with trace := ?_ }
    dsimp only
    rw [same.trace]
  next => exact .pure fun _ _ both => ⟨rfl, both⟩

theorem couples_enter (target : Nat) :
    Couples related (modify fun scan => { scan with state := target }) := by
  apply Joins.modify
  intro left right both
  exact coupling.keeps both (.update _ _ _ _ _ _) (.update _ _ _ _ _ _)
    { coupling.same both with state := rfl }

theorem couples_call {α : Type} {callback : Callback World α}
    (confuses : ∀ left right, related left right → callback.Confuses left.view right.view) :
    Couples related (Step.call callback) := by
  intro left right both
  have same := coupling.same both
  have answers := confuses left right both left.world
  unfold Step.call
  rw [← same.world]
  generalize callback left.view left.world = answer, callback right.view left.world = other
    at answers
  cases answers with
  | fault alike => exact .fault alike
  | answer value =>
      refine .done ⟨rfl, coupling.keeps both (.update _ _ _ _ _ _) (.update _ _ _ _ _ _) ?_⟩
      exact { same with world := rfl }

theorem couples_runHook {id : Nat} (confuses : ∀ hook, machine.hooks[id]?.join = some hook →
    ∀ left right, related left right → hook.Confuses left.view right.view) :
    Couples related (machine.runHook id) := by
  unfold runHook
  cases bound : machine.hooks[id]?.join with
  | none => exact .pure fun _ _ both => ⟨rfl, both⟩
  | some hook =>
      apply (couples_call coupling (confuses hook bound)).bind
      intro answer
      cases answer with
      | done => exact .pure fun _ _ both => ⟨rfl, both⟩
      | reject =>
          apply Joins.modify
          intro left right both
          exact coupling.keeps both (.update _ _ _ _ _ _) (.update _ _ _ _ _ _)
            { coupling.same both with rejected := rfl }

theorem couples_runCall (action : Action) : Couples related (runCall action) := by
  unfold runCall
  apply Joins.getBind
  intro left right both
  have same := coupling.same both
  rw [← same.calls, ← same.state, ← same.absolute]
  cases left.calls.push? ⟨left.state, 0, 0⟩ with
  | none => exact .throw fun _ _ => id
  | some calls =>
      apply (Joins.ask (targetOf action)).bind
      intro target
      refine .set (coupling.keeps both (.update _ _ _ _ _ _) (.update _ _ _ _ _ _) ?_)
      exact { same with state := rfl, calls := rfl }

theorem couples_runReturn (action : Action) : Couples related (runReturn action) := by
  unfold runReturn
  apply Joins.getBind
  intro left right both
  have same := coupling.same both
  rw [← same.calls, ← same.absolute]
  cases left.calls.pop? with
  | none => exact .throw fun _ _ => id
  | some result =>
      refine .set (coupling.keeps both (.update _ _ _ _ _ _) (.update _ _ _ _ _ _) ?_)
      exact { same with state := rfl, calls := rfl }

theorem couples_runActions
    (calm : ∀ action ∈ machine.program.actions, action.kind ≠ .hold ∧ action.kind ≠ .stop)
    {actions : List Nat} (confuses : ∀ id ∈ actions, ∀ hook, machine.hooks[id]?.join = some hook →
      ∀ left right, related left right → hook.Confuses left.view right.view) :
    Couples related (machine.runActions actions) := by
  induction actions with
  | nil => exact .pure fun _ _ both => ⟨rfl, both⟩
  | cons id rest induction =>
      have later := induction fun other member => confuses other (by simp [member])
      have leaves : Couples related (pure Control.again) := .pure fun _ _ both => ⟨rfl, both⟩
      unfold runActions
      apply (Joins.ask (Graph.part "actions" machine.program.actions id)).bind
      intro action
      apply Joins.given
      intro read
      have calmly := calm action (Graph.mem_of_part read)
      apply Joins.getBind
      intro left right both
      rw [← (coupling.same both).state]
      apply (couples_record coupling .action left.state id).bind
      intro _
      cases kind : action.kind with
      | hook => exact (couples_runHook coupling (confuses id (by simp))).bind fun _ => later
      | hold => exact absurd kind calmly.1
      | next =>
          apply (Joins.ask (targetOf action)).bind
          exact fun target => .given fun _ => (couples_enter coupling target).bind fun _ => later
      | goto =>
          apply (Joins.ask (targetOf action)).bind
          exact fun target => .given fun _ => (couples_enter coupling target).bind fun _ => leaves
      | call => exact (couples_runCall coupling action).bind fun _ => leaves
      | ret => exact (couples_runReturn coupling action).bind fun _ => leaves
      | stop => exact absurd kind calmly.2

end Coupling

/-! ## Steps with a key in sight -/

structure Confounded (machine : Machine World) (related : Scan World → Scan World → Prop) : Prop
    extends Coupling related where
  calm : ∀ action ∈ machine.program.actions, action.kind ≠ .hold ∧ action.kind ≠ .stop
  hooks : ∀ hook, some hook ∈ machine.hooks → ∀ left right, related left right →
    hook.Confuses left.view right.view
  conditions : ∀ conditions ∈ machine.conditions, ∀ condition ∈ conditions, ∀ left right,
    related left right → condition.Confuses left.view right.view
  keys : ∀ left right, related left right → left.view.key? = right.view.key?

section Confounded

variable (confounded : machine.Confounded related)
include confounded

theorem couples_runList (location : Nat) : Couples related (machine.runList location) := by
  unfold runList
  split
  next => exact .pure fun _ _ both => ⟨rfl, both⟩
  next =>
    apply (Joins.ask (machine.program.actionsAt location)).bind
    intro actions
    apply Joins.given
    intro _
    apply couples_runActions confounded.toCoupling confounded.calm
    intro id _ hook bound
    exact confounded.hooks hook (Array.mem_of_getElem? (Option.join_eq_some_iff.mp bound))

theorem couples_evaluate (index : Nat) {conditions : List (Callback World Bool)}
    (confuses : ∀ condition ∈ conditions, ∀ left right, related left right →
      condition.Confuses left.view right.view) :
    Couples related (evaluate index conditions) := by
  induction conditions generalizing index with
  | nil => exact .pure fun _ _ both => ⟨rfl, both⟩
  | cons condition rest induction =>
      apply (couples_call confounded.toCoupling (confuses condition (by simp))).bind
      intro holds
      apply (induction (index + 1) fun other member => confuses other (by simp [member])).bind
      intro others
      exact .pure fun _ _ both => ⟨rfl, both⟩

theorem couples_conditionValue (space : Nat) : Couples related (machine.conditionValue space) := by
  apply (Joins.ask (Graph.part "spaces" machine.conditions space)).bind
  intro conditions
  apply Joins.given
  intro read
  exact couples_evaluate confounded 0 (confounded.conditions conditions (Graph.mem_of_part read))

omit confounded in
theorem couples_ask {α : Type} (answer : Except Fault α) :
    Couples related (Step.ask answer) :=
  (Joins.ask answer).weaken fun _ _ _ _ both => ⟨both.1, both.2.2⟩

theorem couples_choose (transition : Nat) : Couples related (machine.choose transition) := by
  apply (couples_ask (machine.program.spaceOf transition)).bind
  intro space?
  cases space? with
  | none => exact couples_ask _
  | some space => exact (couples_conditionValue confounded space).bind fun value => couples_ask _

theorem couples_take (transition : Nat) : Couples related (machine.take transition) := by
  apply (couples_choose confounded transition).bind
  intro move
  apply (couples_enter confounded.toCoupling move.target).bind
  intro _
  apply (couples_record confounded.toCoupling .transition move.target move.actions).bind
  intro _
  exact couples_runList confounded move.actions

omit confounded in
theorem answersAlike_key {left right : View} (same : left.key? = right.key?) :
    AnswersAlike left.key right.key := by
  unfold View.key
  rw [same]
  split
  next key _ => exact .answer key
  next => exact .fault (.inr ⟨_, _, rfl, rfl⟩)

theorem couples_resume : Couples related machine.resume := by
  unfold resume
  apply Joins.getBind
  intro left right both
  rw [← (confounded.same both).state]
  apply (couples_ask (machine.program.fromState left.state)).bind
  intro location
  apply (couples_runList confounded location).bind
  intro control
  split
  next => exact .pure fun _ _ both => ⟨rfl, both⟩
  next =>
    apply Joins.getBind
    intro left right both
    rw [← (confounded.same both).state]
    apply (Joins.askAlike (answersAlike_key (confounded.keys left right both))).bind
    intro key
    apply Joins.given
    intro _
    apply (couples_ask (machine.program.locate left.state key)).bind
    exact fun transition => couples_take confounded transition

theorem couples_again : Couples related machine.again := by
  unfold again
  apply Joins.getBind
  intro left right both
  rw [← (confounded.same both).state]
  apply (couples_ask (machine.program.toState left.state)).bind
  intro location
  apply (couples_runList confounded location).bind
  intro control
  cases control <;> exact .pure fun _ _ both => ⟨rfl, both⟩

theorem couples_eofGuardHolds : Couples related machine.eofGuardHolds := by
  apply Joins.getBind
  intro left right both
  rw [← (confounded.same both).state]
  apply (couples_ask (machine.program.eofGuard left.state)).bind
  intro guard?
  cases guard? with
  | none => exact .pure fun _ _ both => ⟨rfl, both⟩
  | some guard =>
      apply (couples_conditionValue confounded guard.1).bind
      exact fun value => .pure fun _ _ both => ⟨rfl, both⟩

theorem couples_runEofActions : Couples related machine.runEofActions := by
  apply Joins.getBind
  intro left right both
  rw [← (confounded.same both).state]
  apply (couples_ask (machine.program.eofActions left.state)).bind
  intro location
  split
  next => exact .pure fun _ _ both => ⟨rfl, both⟩
  next =>
    apply (couples_eofGuardHolds confounded).bind
    intro holds
    cases holds with
    | false => exact .pure fun _ _ both => ⟨rfl, both⟩
    | true => exact (couples_runList confounded location).discard

end Confounded

theorem joins_inError (coupling : Coupling related) :
    Joins related related machine.inError machine.inError
      (Same fun value left right => related left right ∧ value = left.inError machine.program) := by
  intro left right both
  refine .done ⟨?_, both, rfl⟩
  unfold Scan.inError
  rw [(coupling.same both).state]

end Machine

end StateTables
