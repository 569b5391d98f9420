import StateTables.Proofs.Agreement

/-! # Machines on programs that agree

Of two machines that differ only in their programs each phase follows that of the
other, if the programs agree. What carries the simulation is that a scan never leaves
the states of the program: neither by moves nor by what lies on its stacks.
-/

namespace StateTables

open Step (Answers Both Follows)

theorem FrameStack.mem_of_push? {stack after : FrameStack} {frame other : Frame}
    (pushed : stack.push? frame = some after) (member : other ∈ after.frames) :
    other = frame ∨ other ∈ stack.frames := by
  unfold push? at pushed
  split at pushed
  next => cases pushed
  next =>
    cases pushed
    simpa using member

theorem FrameStack.frames_of_pop? {stack after : FrameStack} {frame : Frame}
    (popped : stack.pop? = some (frame, after)) : stack.frames = frame :: after.frames := by
  unfold pop? at popped
  split at popped
  next => cases popped
  next frames => cases popped; exact frames

theorem View.mem_of_key {view : View} {key : Key} (read : view.key = .ok key) :
    key ∈ view.chunk := by
  unfold View.key View.key? at read
  split at read
  next found =>
    cases read
    split at found
    next => exact Array.mem_of_getElem? found
    next => cases found
  next => cases read

namespace Machine

variable {World : Type}

def running (machine : Machine World) (program : Program) : Machine World :=
  { machine with program := program }

/-- The scan is in a state that exists and goes on in such states only, and the chunk
has only keys of the alphabet. -/
structure Inside (machine : Machine World) (bounds : Bounds) (scan : Scan World) : Prop where
  state : scan.state < bounds.states
  keys : ∀ key ∈ scan.chunk, machine.program.alphabet.contains key = true
  calls : ∀ frame ∈ scan.calls.frames, frame.state.toNat < bounds.states
  alternates : ∀ frame ∈ scan.alternates.frames,
    frame.state.toNat < bounds.states ∧ bounds.IsPlace frame.popTest.toNat

def Small (machine : Machine World) : Prop :=
  ∀ conditions ∈ machine.conditions, conditions.length ≤ 32

variable {machine : Machine World} {other : Program} {bounds : Bounds}
  {related : Nat → Nat → Prop}

/-! ## Actions -/

theorem follows_record (kind : EventKind) (state action : Nat) :
    Follows (machine.Inside bounds) Eq (machine.record kind state action)
      ((machine.running other).record kind state action) := by
  change Follows _ _ (if machine.recording then _ else _) (if machine.recording then _ else _)
  split
  next => exact .modify fun _ inside => { inside with }
  next => exact .pure rfl

theorem follows_runHook (id : Nat) :
    Follows (machine.Inside bounds) Eq (machine.runHook id)
      ((machine.running other).runHook id) := by
  unfold runHook running
  cases machine.hooks[id]?.join with
  | none => exact .pure rfl
  | some hook =>
      apply (Follows.call hook fun _ _ inside => { inside with }).bindSame
      intro answer
      cases answer with
      | done => exact .pure rfl
      | reject => exact .modify fun _ inside => { inside with }

theorem follows_runReturn (action : Action) :
    Follows (machine.Inside bounds) Eq (runReturn action) (runReturn action) := by
  unfold runReturn
  apply Follows.getBind
  intro scan inside
  cases popped : scan.calls.pop? with
  | none => exact .throw _
  | some result =>
      rcases result with ⟨frame, calls⟩
      have frames := FrameStack.frames_of_pop? popped
      refine .set { inside with
        state := inside.calls frame (by simp [frames])
        calls := fun other member => inside.calls other (by simp [frames, member]) }

theorem follows_enter {target : Nat} (inside : target < bounds.states) :
    Follows (machine.Inside bounds) Eq (modify fun scan => { scan with state := target })
      (modify fun scan => { scan with state := target }) :=
  .modify fun _ before => { before with state := inside }

/-! ## Condition values -/

theorem follows_evaluate {index : Nat} {conditions : List (Callback World Bool)}
    (few : index + conditions.length ≤ 32) :
    Follows (machine.Inside bounds) (Both fun value => value.toNat < 2 ^ 32)
      (evaluate index conditions) (evaluate index conditions) := by
  induction conditions generalizing index with
  | nil => exact .pure ⟨rfl, by decide⟩
  | cons condition rest induction =>
      rw [List.length_cons] at few
      apply (Follows.call condition fun _ _ inside => { inside with }).bindSame
      intro isTrue
      apply (induction (by omega : index + 1 + rest.length ≤ 32)).bindBoth
      intro others small
      refine .pure ⟨rfl, ?_⟩
      cases isTrue with
      | false => exact small
      | true =>
          have bit : (ConditionValue.bit index).toNat < 2 ^ 32 := by
            rw [ConditionValue.toNat_bit (by omega)]
            exact Nat.pow_lt_pow_right (by omega) (by omega)
          rw [if_pos rfl, UInt64.toNat_or]
          exact Nat.or_lt_two_pow bit small

theorem follows_conditionValue (small : machine.Small) (space : Nat) :
    Follows (machine.Inside bounds) (Both fun value => value.toNat < 2 ^ 32)
      (machine.conditionValue space) ((machine.running other).conditionValue space) := by
  apply (Follows.askSame (· ∈ machine.conditions) fun _ => Graph.mem_of_part).bindBoth
  intro conditions member
  exact follows_evaluate (by rw [Nat.zero_add]; exact small conditions member)

theorem Inside.pathEnded {scan : Scan World} (inside : machine.Inside bounds scan) :
    machine.Inside bounds (machine.pathEnded scan) := by
  unfold Machine.pathEnded
  split <;> exact { inside with }

theorem Inside.dropAlternate {scan : Scan World} (inside : machine.Inside bounds scan) :
    machine.Inside bounds scan.dropAlternate := by
  unfold Scan.dropAlternate
  split
  next popped =>
    have frames := FrameStack.frames_of_pop? popped
    exact { inside with
      alternates := fun frame member => inside.alternates frame (by simp [frames, member]) }
  next => exact inside

theorem Inside.rejected (agrees : machine.program.Agrees bounds related other)
    {scan : Scan World} (inside : machine.Inside bounds scan) :
    machine.Inside bounds { scan with state := machine.program.error.getD scan.state } := by
  have state : machine.program.error.getD scan.state < bounds.states := by
    cases error : machine.program.error with
    | none => exact inside.state
    | some state => exact agrees.errorInside state error
  exact { inside with state := state }

theorem Inside.clampPosition {scan : Scan World} (inside : machine.Inside bounds scan) :
    machine.Inside bounds (clampPosition scan) := by
  unfold Machine.clampPosition
  split
  next => exact { inside with }
  next => split <;> exact { inside with }

theorem contained_of_strayKey {chunk : Array Key} (fine : machine.strayKey chunk = none) :
    ∀ key ∈ chunk, machine.program.alphabet.contains key = true := by
  unfold strayKey at fine
  split at fine
  next nowhere =>
    intro key member
    simpa using Array.findIdx?_eq_none_iff.mp nowhere key member
  next index found =>
    rcases Array.findIdx?_eq_some_iff_getElem.mp found with ⟨inside, _⟩
    simp [Array.getElem?_eq_getElem inside] at fine

/-! ## Results -/

theorem follows_finish : Follows (machine.Inside bounds) Eq finish finish := by
  apply (Follows.modify fun _ inside => { inside with }).bindSame
  intro _
  exact .getBind fun _ _ => .pure rfl

theorem follows_suspend : Follows (machine.Inside bounds) Eq suspend suspend := by
  apply (Follows.modify fun _ inside => { inside with }).bindSame
  intro _
  exact .getBind fun _ _ => .pure rfl

theorem follows_leave : Follows (machine.Inside bounds) Eq leave leave :=
  .getBind fun _ _ => .pure rfl

theorem follows_advance : Follows (machine.Inside bounds) Eq advance advance :=
  .modify fun _ inside => { inside with }

section Agreeing

variable (agrees : machine.program.Agrees bounds related other)
include agrees

theorem follows_targetOf {action : Action} (member : action ∈ machine.program.actions) :
    Follows (machine.Inside bounds) (Both (· < bounds.states)) (Step.ask (targetOf action))
      (Step.ask (targetOf action)) := by
  apply Follows.askSame
  intro target found
  unfold targetOf at found
  split at found
  next own =>
    cases found
    exact agrees.targetsInside action member target own
  next => cases found

theorem follows_runCall {action : Action} (member : action ∈ machine.program.actions) :
    Follows (machine.Inside bounds) Eq (runCall action) (runCall action) := by
  unfold runCall
  apply Follows.getBind
  intro scan inside
  cases pushed : scan.calls.push? ⟨scan.state, 0, 0⟩ with
  | none => exact .throw _
  | some calls =>
      apply (follows_targetOf agrees member).bindBoth
      intro target targetInside
      refine .set { inside with state := targetInside, calls := ?_ }
      intro frame isFrame
      rcases FrameStack.mem_of_push? pushed isFrame with rfl | old
      · exact inside.state
      · exact inside.calls frame old

theorem follows_runActions (actions : List Nat) :
    Follows (machine.Inside bounds) Eq (machine.runActions actions)
      ((machine.running other).runActions actions) := by
  induction actions with
  | nil => exact .pure rfl
  | cons id rest induction =>
      unfold runActions
      have sameActions : (machine.running other).program.actions = machine.program.actions :=
        agrees.actions.symm
      rw [sameActions]
      apply (Follows.askSame (· ∈ machine.program.actions) fun _ => Graph.mem_of_part).bindBoth
      intro action member
      apply Follows.getBind
      intro scan _
      apply (follows_record .action scan.state id).bindSame
      intro _
      cases action.kind with
      | hook => exact (follows_runHook id).bindSame fun _ => induction
      | hold => exact (Follows.modify fun _ inside => { inside with }).bindSame fun _ => induction
      | next =>
          apply (follows_targetOf agrees member).bindBoth
          intro target inside
          exact (follows_enter inside).bindSame fun _ => induction
      | goto =>
          apply (follows_targetOf agrees member).bindBoth
          intro target inside
          exact (follows_enter inside).bindSame fun _ => .pure rfl
      | call => exact (follows_runCall agrees member).bindSame fun _ => .pure rfl
      | ret => exact (follows_runReturn action).bindSame fun _ => .pure rfl
      | stop =>
          exact (Follows.modify fun _ inside => { inside with }).bindSame fun _ => .pure rfl

theorem follows_runList {location : Nat} (place : bounds.IsPlace location) :
    Follows (machine.Inside bounds) Eq (machine.runList location)
      ((machine.running other).runList location) := by
  unfold runList
  split
  next => exact .pure rfl
  next used =>
    apply (Follows.ask (agrees.actionsAt location place used)).bindSame
    intro actions
    exact follows_runActions agrees actions

/-! ## Alternates -/

theorem follows_pushAlternate {pending : PendingMove} (target : pending.target < bounds.states)
    (push : bounds.IsPlace pending.push) (popTest : bounds.IsPlace pending.popTest) :
    Follows (machine.Inside bounds) Eq (machine.pushAlternate pending)
      ((machine.running other).pushAlternate pending) := by
  unfold pushAlternate
  apply Follows.getBind
  intro scan inside
  cases pushed : scan.alternates.push? ⟨pending.target, scan.absolute, pending.popTest⟩ with
  | none =>
      change Follows _ _ (if machine.fatalOverflow then _ else _)
        (if machine.fatalOverflow then _ else _)
      split
      next => exact .fault _
      next => exact .throw _
  | some alternates =>
      have frames : ∀ frame ∈ alternates.frames, frame.state.toNat < bounds.states ∧
          bounds.IsPlace frame.popTest.toNat := by
        intro frame isFrame
        rcases FrameStack.mem_of_push? pushed isFrame with rfl | old
        · exact ⟨target, popTest⟩
        · exact inside.alternates frame old
      apply (Follows.set { inside with alternates := frames }).bindSame
      intro _
      apply (follows_record .push pending.target 0).bindSame
      intro _
      exact (follows_runList agrees push).discard

theorem follows_pushAll {pending : List PendingMove} (inside : bounds.ContainsAll pending) :
    Follows (machine.Inside bounds) Eq (machine.pushAll pending)
      ((machine.running other).pushAll pending) := by
  induction pending with
  | nil => exact .pure rfl
  | cons first rest induction =>
      rcases inside first (by simp) with ⟨target, push, popTest⟩
      apply (follows_pushAlternate agrees target push popTest).bindSame
      intro _
      exact induction fun move member => inside move (by simp [member])

theorem follows_pushAlternates :
    Follows (machine.Inside bounds) Eq machine.pushAlternates
      (machine.running other).pushAlternates := by
  unfold pushAlternates
  apply Follows.getBind
  intro scan inside
  split
  next => exact .set { inside with }
  next =>
    apply (Follows.ask (agrees.alternates scan.state inside.state)).bindBoth
    intro pending contained
    exact follows_pushAll agrees contained

/-! ## Transitions -/

theorem follows_choose (small : machine.Small) {transition otherTransition : Nat}
    (same : related transition otherTransition) :
    Follows (machine.Inside bounds) (Both bounds.Contains) (machine.choose transition)
      ((machine.running other).choose otherTransition) := by
  rcases agrees.spaceOf transition otherTransition same with ⟨space, _, left, right, rfl⟩
  change Follows _ _ (Step.ask (machine.program.spaceOf transition) >>= _)
    (Step.ask (other.spaceOf otherTransition) >>= _)
  rw [left, right]
  cases space with
  | none => exact .ask (agrees.plainMove transition otherTransition same left)
  | some space =>
      apply (follows_conditionValue small space).bindBoth
      intro value valueSmall
      exact .ask (agrees.guardedMove transition otherTransition same value valueSmall)

theorem follows_take (small : machine.Small) {transition otherTransition : Nat}
    (same : related transition otherTransition) :
    Follows (machine.Inside bounds) Eq (machine.take transition)
      ((machine.running other).take otherTransition) := by
  apply (follows_choose agrees small same).bindBoth
  intro move inside
  apply (follows_enter inside.1).bindSame
  intro _
  apply (follows_record .transition move.target move.actions).bindSame
  intro _
  exact follows_runList agrees inside.2

theorem follows_resume (small : machine.Small) :
    Follows (machine.Inside bounds) Eq machine.resume (machine.running other).resume := by
  unfold resume
  apply Follows.getBind
  intro before beforeInside
  apply (Follows.ask (agrees.fromState before.state beforeInside.state)).bindBoth
  intro location place
  apply (follows_runList agrees place).bindSame
  intro control
  split
  next => exact .pure rfl
  next =>
    apply Follows.getBind
    intro scan inside
    apply (Follows.askSame (· ∈ scan.chunk) fun key => View.mem_of_key).bindBoth
    intro key member
    apply (Follows.ask (agrees.locate scan.state inside.state key (inside.keys key member))).bind
    intro transition otherTransition same
    exact follows_take agrees small same

theorem follows_again :
    Follows (machine.Inside bounds) Eq machine.again (machine.running other).again := by
  unfold again
  apply Follows.getBind
  intro scan inside
  apply (Follows.ask (agrees.toState scan.state inside.state)).bindBoth
  intro location place
  apply (follows_runList agrees place).bindSame
  intro control
  cases control <;> exact .pure rfl

/-! ## End of input -/

theorem follows_eofGuardHolds (small : machine.Small) :
    Follows (machine.Inside bounds) Eq machine.eofGuardHolds
      (machine.running other).eofGuardHolds := by
  unfold eofGuardHolds
  apply Follows.getBind
  intro scan inside
  apply (Follows.ask (agrees.eofGuard scan.state inside.state)).bindSame
  intro guard
  cases guard with
  | none => exact .pure rfl
  | some guard =>
      apply (follows_conditionValue small guard.1).bindBoth
      intro value _
      exact .pure rfl

theorem follows_runEofActions (small : machine.Small) :
    Follows (machine.Inside bounds) Eq machine.runEofActions
      (machine.running other).runEofActions := by
  unfold runEofActions
  apply Follows.getBind
  intro before beforeInside
  apply (Follows.ask (agrees.eofActions before.state beforeInside.state)).bindBoth
  intro location place
  split
  next => exact .pure rfl
  next =>
    apply (follows_eofGuardHolds agrees small).bindSame
    intro passes
    split
    next => exact (follows_runList agrees place).discard
    next => exact .pure rfl

theorem follows_endInput (small : machine.Small) :
    Follows (machine.Inside bounds) Eq machine.endInput (machine.running other).endInput := by
  unfold endInput
  apply Follows.getBind
  intro scan inside
  apply (follows_record .eof scan.state 0).bindSame
  intro _
  apply (Follows.ask (agrees.eofTransition scan.state inside.state)).bind
  intro transition otherTransition same
  cases same with
  | none =>
      refine Follows.bind (.ensuring (follows_runEofActions agrees small) ?_) ?_
      · exact fun _ inside => { inside with }
      · exact fun _ _ _ => .pure rfl
  | some same =>
      apply (follows_take agrees small same).discard.bindSame
      intro _
      apply ((follows_again agrees).ensuring fun _ => Inside.clampPosition).discard.bindSame
      intro _
      exact .pure rfl

/-! ## Ends of paths -/

theorem pathEnded_running :
    (machine.running other).pathEnded = machine.pathEnded := by
  funext scan
  change (if scan.ended && scan.position == scan.size &&
    decide (other.firstFinal ≤ scan.state) && !scan.inError other then _ else _) = _
  unfold Scan.inError
  rw [← agrees.firstFinal, ← agrees.error]
  rfl

theorem follows_enterAlternate {frame : Frame} (state : frame.state.toNat < bounds.states)
    (popTest : bounds.IsPlace frame.popTest.toNat) :
    Follows (machine.Inside bounds) Eq (machine.enterAlternate frame)
      ((machine.running other).enterAlternate frame) := by
  unfold enterAlternate
  apply Follows.getBind
  intro scan inside
  split
  next => exact fun _ isGood => .problem isGood
  next =>
    apply (Follows.set { inside with state := state }).bindSame
    intro _
    apply (follows_record .pop frame.state.toNat frame.popTest.toNat).bindSame
    intro _
    apply (follows_runList agrees popTest).discard.bindSame
    intro _
    apply Follows.getBind
    intro after _
    exact .pure rfl

theorem follows_popAlternates {frames : List Frame}
    (inside : ∀ frame ∈ frames, frame.state.toNat < bounds.states ∧
      bounds.IsPlace frame.popTest.toNat) :
    Follows (machine.Inside bounds) Eq (machine.popAlternates frames)
      ((machine.running other).popAlternates frames) := by
  induction frames with
  | nil => exact .pure rfl
  | cons frame rest induction =>
      unfold popAlternates
      rcases inside frame (by simp) with ⟨state, popTest⟩
      have sameError : (machine.running other).program.error = machine.program.error :=
        agrees.error.symm
      rw [pathEnded_running agrees, sameError]
      apply (Follows.modify fun _ => Inside.dropAlternate).bindSame
      intro _
      apply (follows_enterAlternate agrees state popTest).bindSame
      intro entered
      split
      next => exact .pure rfl
      next =>
        apply (Follows.modify fun scan inside => Inside.pathEnded (inside.rejected agrees)).bindSame
        intro _
        exact induction fun frame member => inside frame (by simp [member])

theorem follows_endPath :
    Follows (machine.Inside bounds) Eq machine.endPath (machine.running other).endPath := by
  unfold endPath
  rw [pathEnded_running agrees]
  apply (Follows.modify fun _ => Inside.pathEnded).bindSame
  intro _
  apply Follows.getBind
  intro scan inside
  exact follows_popAlternates agrees inside.alternates

/-! ## Drivers -/

theorem follows_inError :
    Follows (machine.Inside bounds) Eq machine.inError (machine.running other).inError := by
  unfold inError
  apply Follows.getBind
  intro scan _
  refine .pure ?_
  change (machine.program.error == _) = (other.error == _)
  rw [agrees.error]

theorem follows_gotoOut :
    Follows (machine.Inside bounds) Eq machine.gotoOut (machine.running other).gotoOut := by
  apply (follows_endPath agrees).bindSame
  intro goesOn
  split
  next => exact .pure rfl
  next => exact follows_finish.bindSame fun _ => .pure rfl

theorem follows_gotoTestEof (small : machine.Small) :
    Follows (machine.Inside bounds) Eq machine.gotoTestEof
      (machine.running other).gotoTestEof := by
  apply Follows.getBind
  intro scan _
  split
  next => exact follows_suspend.bindSame fun _ => .pure rfl
  next =>
    apply (follows_endInput agrees small).bindSame
    intro taken
    split
    next => exact .pure rfl
    next => exact follows_gotoOut agrees

theorem follows_gotoResume (small : machine.Small) (current : Unit) :
    Follows (machine.Inside bounds) Eq (machine.gotoResume current)
      ((machine.running other).gotoResume current) := by
  apply (follows_pushAlternates agrees).bindSame
  intro _
  apply Follows.getBind
  intro scan _
  split
  next => exact follows_gotoTestEof agrees small
  next =>
    apply (follows_inError agrees).bindSame
    intro before
    split
    next => exact follows_gotoOut agrees
    next =>
      apply (follows_resume agrees small).bindSame
      intro control
      split
      next => exact follows_leave.bindSame fun _ => .pure rfl
      next =>
        apply (follows_again agrees).bindSame
        intro control
        split
        next => exact follows_leave.bindSame fun _ => .pure rfl
        next =>
          apply (follows_inError agrees).bindSame
          intro after
          split
          next => exact follows_gotoOut agrees
          next => exact follows_advance.bindSame fun _ => .pure rfl

theorem follows_phase (small : machine.Small) (phase : Phase) :
    Follows (machine.Inside bounds) Eq (machine.phase phase)
      ((machine.running other).phase phase) := by
  cases phase with
  | resume =>
      apply (follows_pushAlternates agrees).bindSame
      intro _
      apply Follows.getBind
      intro scan _
      split
      next => exact .pure rfl
      next =>
        apply (follows_inError agrees).bindSame
        intro before
        split
        next => exact .pure rfl
        next =>
          apply (follows_resume agrees small).bindSame
          intro control
          split
          next => exact follows_leave.bindSame fun _ => .pure rfl
          next =>
            apply (follows_again agrees).bindSame
            intro control
            split
            next => exact follows_leave.bindSame fun _ => .pure rfl
            next =>
              apply (follows_inError agrees).bindSame
              intro after
              split
              next => exact .pure rfl
              next => exact follows_advance.bindSame fun _ => .pure rfl
  | testEof =>
      apply Follows.getBind
      intro scan _
      split
      next => exact follows_suspend.bindSame fun _ => .pure rfl
      next =>
        apply (follows_endInput agrees small).bindSame
        intro taken
        exact .pure rfl
  | out =>
      apply (follows_endPath agrees).bindSame
      intro goesOn
      split
      next => exact .pure rfl
      next => exact follows_finish.bindSame fun _ => .pure rfl

theorem follows_pathEndsAtKey (small : machine.Small) :
    Follows (machine.Inside bounds) Eq machine.pathEndsAtKey
      (machine.running other).pathEndsAtKey := by
  apply (follows_inError agrees).bindSame
  intro before
  split
  next => exact .pure rfl
  next =>
    apply (follows_resume agrees small).discard.bindSame
    intro _
    apply (follows_again agrees).discard.bindSame
    intro _
    apply (follows_inError agrees).bindSame
    intro after
    split
    next => exact .pure rfl
    next => exact follows_advance.bindSame fun _ => .pure rfl

theorem follows_flaggedEnd (out : Bool) :
    Follows (machine.Inside bounds) Eq (machine.flaggedEnd out)
      ((machine.running other).flaggedEnd out) := by
  cases out with
  | false => exact .pure rfl
  | true =>
      apply (follows_endPath agrees).bindSame
      intro goesOn
      cases goesOn with
      | true => exact .pure rfl
      | false => exact follows_finish.bindSame fun _ => .pure rfl

theorem follows_flaggedRound (small : machine.Small) (current : Unit) :
    Follows (machine.Inside bounds) Eq (machine.flaggedRound current)
      ((machine.running other).flaggedRound current) := by
  apply (follows_pushAlternates agrees).bindSame
  intro _
  apply Follows.getBind
  intro scan _
  split
  next =>
    apply Follows.getBind
    intro scan _
    split
    next => exact follows_suspend.bindSame fun _ => .pure rfl
    next =>
      apply (follows_endInput agrees small).bindSame
      intro taken
      exact follows_flaggedEnd agrees _
  next =>
    apply (follows_pathEndsAtKey agrees small).bindSame
    intro out
    exact follows_flaggedEnd agrees out

theorem follows_driveBy (small : machine.Small) (kind : DriverKind) (fuel : Nat) :
    Follows (machine.Inside bounds) Eq (machine.driveBy kind fuel)
      ((machine.running other).driveBy kind fuel) := by
  cases kind with
  | goto => exact .repeated (follows_gotoResume agrees small) fuel ()
  | phased => exact .repeated (follows_phase agrees small) fuel .resume
  | flagged => exact .repeated (follows_flaggedRound agrees small) fuel ()

/-! ## Scanning -/

/-- Both machines scan a chunk alike, and the scan stays inside. -/
theorem execute_running (small : machine.Small) {scan : Scan World}
    (inside : machine.Inside bounds scan) (fuel : Nat) (chunk : Array Key) (ended : Bool) :
    (machine.running other).execute fuel scan chunk ended =
        machine.execute fuel scan chunk ended ∧
      ∀ report after, machine.execute fuel scan chunk ended = .ok (report, after) →
        machine.Inside bounds after := by
  have stray : (machine.running other).strayKey chunk = machine.strayKey chunk := by
    have alphabet : (machine.running other).program.alphabet = machine.program.alphabet :=
      agrees.alphabet.symm
    unfold strayKey
    rw [alphabet]
  unfold execute
  rw [stray]
  by_cases done : scan.done = true
  · rw [if_pos done, if_pos done]
    refine ⟨rfl, fun report after same => ?_⟩
    cases same
    exact inside
  rw [if_neg done, if_neg done]
  cases found : machine.strayKey chunk with
  | some problem =>
      refine ⟨rfl, fun report after same => ?_⟩
      cases same
      exact inside
  | none =>
      have started : machine.Inside bounds { scan with
          base := scan.base + scan.position, chunk := chunk, position := 0, ended := ended } :=
        { inside with keys := contained_of_strayKey found }
      have alike := follows_driveBy agrees small machine.driver fuel _ started
      have driver : (machine.running other).driver = machine.driver := rfl
      dsimp only
      rw [driver]
      generalize machine.driveBy machine.driver fuel _ = outcome,
        (machine.running other).driveBy machine.driver fuel _ = otherOutcome at alike
      cases alike with
      | done stillInside same =>
          subst same
          refine ⟨rfl, fun report after same => ?_⟩
          cases same
          exact stillInside
      | problem stillInside =>
          refine ⟨rfl, fun report after same => ?_⟩
          cases same
          exact stillInside
      | fault => exact ⟨rfl, fun report after same => by cases same⟩

end Agreeing

end Machine

end StateTables
