import StateTables.Proofs.Outcomes

/-! # Every pending alternate is accounted for

Pushes and pops of alternates are recorded. An alternate that was pushed is pending, was popped,
or was found to be stale: then it is taken off the stack unrecorded, and the call ends with an
error. So in every run pushes are pops, alternates that are still pending and stale ones.
-/

namespace StateTables

/-! ## Accounts -/

/-- How many alternates are lost with an error. -/
def ScanError.lost : ScanError → Nat
  | .staleAlternate _ _ => 1
  | .keyOutsideAlphabet _ _ | .callOverflow _ _ | .callUnderflow _ _ | .alternateOverflow _ _ => 0

def Machine.Report.lost (report : Machine.Report) : Nat :=
  (report.error.map ScanError.lost).getD 0

namespace Scan

variable {World : Type}

def recorded (kind : EventKind) (scan : Scan World) : Nat :=
  scan.trace.countP fun event => event.kind == kind

/-- What only alternates and the ends of paths change: the alternates that are pending, what was
recorded of them, and whether a path was accepted and the scan is over. -/
structure Account where
  alternates : FrameStack
  pushes : Nat
  pops : Nat
  accepted : Bool
  done : Bool

def account (scan : Scan World) : Account where
  alternates := scan.alternates
  pushes := scan.recorded .push
  pops := scan.recorded .pop
  accepted := scan.accepted
  done := scan.done

/-- What was pushed was popped, is pending or was lost, and no more are pending than allowed. -/
structure Account.Balanced (limit : Int) (lost : Nat) (account : Account) : Prop where
  pushes : account.pushes = account.pops + account.alternates.depth + lost
  limited : account.alternates.limit = limit
  bounded : (account.alternates.depth : Int) ≤ max limit 0

structure Account.Open (limit : Int) (lost : Nat) (account : Account) : Prop
    extends account.Balanced limit lost where
  unfinished : account.done = false

/-- A call failed: what was lost with the error is lost. -/
def Failed (limit : Int) (lost : Nat) (problem : ScanError) (scan : Scan World) : Prop :=
  scan.account.Open limit (lost + problem.lost)

/-- A call ended: the scan was suspended or left, or it is over and nothing is pending. -/
structure Ended (limit : Int) (lost : Nat) (result : ScanResult) (scan : Scan World) : Prop where
  balanced : scan.account.Balanced limit lost
  done : scan.done = (!result.suspended && !result.broke)
  empty : scan.done = true → scan.alternates.frames = []

theorem Account.Open.ended {limit : Int} {lost : Nat} {scan : Scan World}
    (isOpen : scan.account.Open limit lost) {result : ScanResult}
    (stays : (!result.suspended && !result.broke) = false) : scan.Ended limit lost result where
  balanced := isOpen.toBalanced
  done := isOpen.unfinished.trans stays.symm
  empty isDone := absurd (isOpen.unfinished.symm.trans isDone) (by decide)

end Scan

open Scan (Account)

namespace Step

variable {World α β : Type}

/-! ## What steps leave behind -/

/-- What a step leaves behind from every scan with a property, if no fault stops it. Errors are
told apart. -/
def Leaves (failed : ScanError → Scan World → Prop) (before : Scan World → Prop)
    (step : Step World α) (after : α → Scan World → Prop) : Prop :=
  ∀ scan, before scan → ∀ result next, step scan = .ok (result, next) →
    match result with
    | .ok value => after value next
    | .error problem => failed problem next

namespace Leaves

variable {failed : ScanError → Scan World → Prop} {before : Scan World → Prop}

theorem pure {after : α → Scan World → Prop} {value : α}
    (property : ∀ scan, before scan → after value scan) :
    Leaves failed before (pure value) after := by
  intro scan isBefore result next stepped
  cases stepped
  exact property scan isBefore

theorem bind {middle : α → Scan World → Prop} {after : β → Scan World → Prop}
    {step : Step World α} {next : α → Step World β} (first : Leaves failed before step middle)
    (second : ∀ value, Leaves failed (middle value) (next value) after) :
    Leaves failed before (step >>= next) after := by
  intro scan isBefore result last stepped
  rw [bind_apply] at stepped
  split at stepped
  next value between succeeded =>
    exact second value between (first scan isBefore _ _ succeeded) result last stepped
  next problem between missed =>
    cases stepped
    exact first scan isBefore _ _ missed
  next => cases stepped

theorem weaken {after weaker : α → Scan World → Prop} {step : Step World α}
    (leaves : Leaves failed before step after)
    (implied : ∀ value scan, after value scan → weaker value scan) :
    Leaves failed before step weaker := by
  intro scan isBefore result next stepped
  have left := leaves scan isBefore result next stepped
  cases result with
  | ok value => exact implied value next left
  | error problem => exact left

theorem getBind {next : Scan World → Step World β} {after : β → Scan World → Prop}
    (each : ∀ scan, before scan → Leaves failed before (next scan) after) :
    Leaves failed before (get >>= next) after :=
  fun scan isBefore => each scan isBefore scan isBefore

theorem set {scan : Scan World} {after : Unit → Scan World → Prop} (isAfter : after () scan) :
    Leaves failed before (set scan) after := by
  intro _ _ result next stepped
  cases stepped
  exact isAfter

theorem modify {change : Scan World → Scan World} {after : Unit → Scan World → Prop}
    (keeps : ∀ scan, before scan → after () (change scan)) :
    Leaves failed before (modify change) after := by
  intro scan isBefore result next stepped
  cases stepped
  exact keeps scan isBefore

theorem throw {after : α → Scan World → Prop} {problem : ScanError}
    (fails : ∀ scan, before scan → failed problem scan) :
    Leaves failed before (throw problem) after := by
  intro scan isBefore result next stepped
  cases stepped
  exact fails scan isBefore

theorem ask {answer : Except Fault α} {after : α → Scan World → Prop}
    (each : ∀ value scan, before scan → after value scan) :
    Leaves failed before (Step.ask answer) after := by
  intro scan isBefore result next stepped
  cases answer with
  | error fault => cases stepped
  | ok value =>
      cases stepped
      exact each value scan isBefore

theorem call {callback : Callback World α} {after : α → Scan World → Prop}
    (keeps : ∀ answer world scan, before scan → after answer { scan with world := world }) :
    Leaves failed before (Step.call callback) after := by
  intro scan isBefore result next stepped
  unfold Step.call at stepped
  split at stepped
  next =>
    cases stepped
    exact keeps _ _ scan isBefore
  next => cases stepped

theorem ensuring {after : α → Scan World → Prop} {step : Step World α}
    {change : Scan World → Scan World} (leaves : Leaves failed before step after)
    (keeps : ∀ value scan, after value scan → after value (change scan))
    (fails : ∀ problem scan, failed problem scan → failed problem (change scan)) :
    Leaves failed before (step.ensuring change) after := by
  intro scan isBefore result next stepped
  unfold Step.ensuring at stepped
  split at stepped
  next outcome between ended =>
    cases stepped
    have left := leaves scan isBefore _ _ ended
    cases result with
    | ok value => exact keeps value between left
    | error problem => exact fails problem between left
  next => cases stepped

theorem repeated {round : α → Step World (α ⊕ β)} {after : β → Scan World → Prop}
    (each : ∀ current, Leaves failed before (round current) (Sum.elim (fun _ => before) after))
    (fuel : Nat) (current : α) :
    Leaves failed before (Step.repeated round fuel current) after := by
  induction fuel generalizing current with
  | zero =>
      intro scan _ result next stepped
      cases stepped
  | succ fuel induction =>
      apply (each current).bind
      intro outcome
      cases outcome with
      | inl next => exact induction next
      | inr result => exact pure fun _ isAfter => isAfter

end Leaves

/-- The step neither changes the account nor loses an alternate. -/
def Quiet (step : Step World α) : Prop :=
  ∀ account : Account, Leaves (fun problem scan => problem.lost = 0 ∧ scan.account = account)
    (fun scan => scan.account = account) step fun _ scan => scan.account = account

namespace Quiet

theorem pure (value : α) : Quiet (pure value : Step World α) :=
  fun _ => .pure fun _ same => same

theorem bind {step : Step World α} {next : α → Step World β} (first : Quiet step)
    (second : ∀ value, Quiet (next value)) : Quiet (step >>= next) :=
  fun account => (first account).bind fun value => second value account

theorem getBind {next : Scan World → Step World β} (each : ∀ scan, Quiet (next scan)) :
    Quiet (get >>= next) :=
  fun account => .getBind fun scan _ => each scan account

theorem modify {change : Scan World → Scan World}
    (keeps : ∀ scan, (change scan).account = scan.account) : Quiet (modify change) :=
  fun _ => .modify fun scan same => (keeps scan).trans same

theorem ask (answer : Except Fault α) : Quiet (Step.ask answer : Step World α) :=
  fun _ => .ask fun _ _ same => same

theorem call (callback : Callback World α) : Quiet (Step.call callback) :=
  fun _ => .call fun _ _ _ same => same

theorem discard {step : Step World α} (quiet : Quiet step) : Quiet (discard step) :=
  quiet.bind fun _ => pure ()

theorem ensuring {step : Step World α} {change : Scan World → Scan World} (quiet : Quiet step)
    (keeps : ∀ scan, (change scan).account = scan.account) : Quiet (step.ensuring change) :=
  fun account => (quiet account).ensuring (fun _ scan same => (keeps scan).trans same)
    fun _ scan same => ⟨same.1, (keeps scan).trans same.2⟩

theorem keepsFrames {step : Step World α} (quiet : Quiet step) {limit : Int} {lost : Nat}
    {frames : List Frame} :
    Leaves (Scan.Failed limit lost)
      (fun scan => scan.account.Open limit lost ∧ scan.account.alternates.frames = frames) step
      fun _ scan => scan.account.Open limit lost ∧ scan.account.alternates.frames = frames := by
  intro scan isOpen result next stepped
  have left := quiet scan.account scan rfl result next stepped
  cases result with
  | ok value =>
      dsimp only at left ⊢
      rwa [left]
  | error problem =>
      dsimp only [Scan.Failed] at left ⊢
      rw [left.1, left.2]
      exact isOpen.1

theorem keepsOpen {step : Step World α} (quiet : Quiet step) {limit : Int} {lost : Nat} :
    Leaves (Scan.Failed limit lost) (fun scan => scan.account.Open limit lost) step
      fun _ scan => scan.account.Open limit lost :=
  fun scan isOpen => quiet.keepsFrames.weaken (fun _ _ holds => holds.1) scan ⟨isOpen, rfl⟩

end Quiet

end Step

open Step (Leaves Quiet)

namespace Machine

variable {World : Type} {machine : Machine World}

/-! ## Steps that neither push nor pop -/

theorem quiet_record {kind : EventKind} (other : kind ≠ .push ∧ kind ≠ .pop)
    (state action : Nat) : Quiet (machine.record kind state action) := by
  unfold record
  split
  next =>
    apply Quiet.modify
    intro scan
    simp [Scan.account, Scan.recorded, other.1, other.2]
  next => exact .pure ()

theorem quiet_runHook (id : Nat) : Quiet (machine.runHook id) := by
  unfold runHook
  split
  next => exact .pure ()
  next hook _ =>
    apply (Quiet.call hook).bind
    intro answer
    cases answer with
    | done => exact .pure ()
    | reject => exact .modify fun _ => rfl

theorem quiet_runCall (action : Action) : Quiet (runCall action : Step World Unit) := by
  intro account
  unfold runCall
  apply Leaves.getBind
  intro scan same
  cases scan.calls.push? ⟨scan.state, 0, 0⟩ with
  | none => exact .throw fun _ still => ⟨rfl, still⟩
  | some calls => exact (Quiet.ask _ account).bind fun target => .set same

theorem quiet_runReturn (action : Action) : Quiet (runReturn action : Step World Unit) := by
  intro account
  unfold runReturn
  apply Leaves.getBind
  intro scan same
  cases scan.calls.pop? with
  | none => exact .throw fun _ still => ⟨rfl, still⟩
  | some result => exact .set same

theorem quiet_runActions (actions : List Nat) : Quiet (machine.runActions actions) := by
  induction actions with
  | nil => exact .pure _
  | cons id rest induction =>
      unfold runActions
      apply (Quiet.ask _).bind
      intro action
      apply Quiet.getBind
      intro scan
      apply (quiet_record (by decide) scan.state id).bind
      intro _
      cases action.kind with
      | hook => exact (quiet_runHook id).bind fun _ => induction
      | hold => exact .bind (.modify fun _ => rfl) fun _ => induction
      | next => exact (Quiet.ask _).bind fun _ => .bind (.modify fun _ => rfl) fun _ => induction
      | goto => exact (Quiet.ask _).bind fun _ => .bind (.modify fun _ => rfl) fun _ => .pure _
      | call => exact (quiet_runCall action).bind fun _ => .pure _
      | ret => exact (quiet_runReturn action).bind fun _ => .pure _
      | stop => exact .bind (.modify fun _ => rfl) fun _ => .pure _

theorem quiet_runList (location : Nat) : Quiet (machine.runList location) := by
  unfold runList
  split
  next => exact .pure _
  next => exact (Quiet.ask _).bind fun actions => quiet_runActions actions

theorem quiet_evaluate (index : Nat) (conditions : List (Callback World Bool)) :
    Quiet (evaluate index conditions) := by
  induction conditions generalizing index with
  | nil => exact .pure _
  | cons condition rest induction =>
      apply (Quiet.call condition).bind
      intro holds
      exact (induction (index + 1)).bind fun others => .pure _

theorem quiet_conditionValue (space : Nat) : Quiet (machine.conditionValue space) :=
  (Quiet.ask _).bind fun conditions => quiet_evaluate 0 conditions

theorem quiet_choose (transition : Nat) : Quiet (machine.choose transition) := by
  apply (Quiet.ask _).bind
  intro space?
  cases space? with
  | none => exact .ask _
  | some space => exact (quiet_conditionValue space).bind fun value => .ask _

theorem quiet_take (transition : Nat) : Quiet (machine.take transition) := by
  apply (quiet_choose transition).bind
  intro move
  refine .bind (.modify fun _ => rfl) fun _ => ?_
  exact (quiet_record (by decide) move.target move.actions).bind fun _ =>
    quiet_runList move.actions

theorem quiet_resume : Quiet machine.resume := by
  apply Quiet.getBind
  intro before
  apply (Quiet.ask _).bind
  intro location
  apply (quiet_runList location).bind
  intro control
  split
  next => exact .pure _
  next =>
    apply Quiet.getBind
    intro scan
    apply (Quiet.ask _).bind
    intro key
    exact (Quiet.ask _).bind fun transition => quiet_take transition

theorem quiet_again : Quiet machine.again := by
  apply Quiet.getBind
  intro scan
  apply (Quiet.ask _).bind
  intro location
  apply (quiet_runList location).bind
  intro control
  cases control <;> exact .pure _

theorem quiet_eofGuardHolds : Quiet machine.eofGuardHolds := by
  apply Quiet.getBind
  intro scan
  apply (Quiet.ask _).bind
  intro guard?
  cases guard? with
  | none => exact .pure _
  | some guard => exact (quiet_conditionValue guard.1).bind fun value => .pure _

theorem quiet_runEofActions : Quiet machine.runEofActions := by
  apply Quiet.getBind
  intro scan
  apply (Quiet.ask _).bind
  intro location
  split
  next => exact .pure ()
  next =>
    apply quiet_eofGuardHolds.bind
    intro holds
    split
    next => exact (quiet_runList location).discard
    next => exact .pure ()

theorem account_clampPosition (scan : Scan World) :
    (clampPosition scan).account = scan.account := by
  unfold clampPosition
  split
  next => rfl
  next => split <;> rfl

theorem quiet_endInput : Quiet machine.endInput := by
  apply Quiet.getBind
  intro scan
  apply (quiet_record (by decide) scan.state 0).bind
  intro _
  apply (Quiet.ask _).bind
  intro transition?
  cases transition? with
  | none =>
      exact .bind (quiet_runEofActions.ensuring fun _ => rfl) fun _ => .pure _
  | some transition =>
      apply (quiet_take transition).discard.bind
      intro _
      apply (quiet_again.ensuring account_clampPosition).discard.bind
      exact fun _ => .pure _

theorem quiet_inError : Quiet machine.inError :=
  .getBind fun _ => .pure _

theorem quiet_advance : Quiet (advance : Step World Unit) :=
  .modify fun _ => rfl

theorem quiet_pathEndsAtKey : Quiet machine.pathEndsAtKey := by
  apply quiet_inError.bind
  intro before
  split
  next => exact .pure _
  next =>
    apply quiet_resume.discard.bind
    intro _
    apply quiet_again.discard.bind
    intro _
    apply quiet_inError.bind
    intro after
    split
    next => exact .pure _
    next => exact quiet_advance.bind fun _ => .pure _

/-! ## Steps that push and pop -/

/-- After a round of a driver the account is open still, or the call has ended. -/
def After (α : Type) (limit : Int) (lost : Nat) : α ⊕ ScanResult → Scan World → Prop :=
  Sum.elim (fun _ scan => scan.account.Open limit lost) (Scan.Ended limit lost)

section Recording

variable {limit : Int} {lost : Nat} (recording : machine.recording = true)
include recording

theorem leaves_record_push (state action : Nat) :
    Leaves (Scan.Failed limit lost)
      (fun scan => { scan.account with pushes := scan.account.pushes + 1 }.Open limit lost)
      (machine.record .push state action) fun _ scan => scan.account.Open limit lost := by
  unfold record
  rw [if_pos recording]
  apply Leaves.modify
  intro scan isOpen
  simpa [Scan.account, Scan.recorded] using isOpen

theorem leaves_record_pop {frames : List Frame} (state action : Nat) :
    Leaves (Scan.Failed limit lost)
      (fun scan => scan.account.Open limit (lost + 1) ∧ scan.account.alternates.frames = frames)
      (machine.record .pop state action)
      fun _ scan => scan.account.Open limit lost ∧ scan.account.alternates.frames = frames := by
  unfold record
  rw [if_pos recording]
  apply Leaves.modify
  intro scan isOpen
  refine ⟨{ isOpen.1 with pushes := ?_ }, isOpen.2⟩
  have pushes := isOpen.1.pushes
  simp only [Scan.account, Scan.recorded, Array.countP_push] at pushes ⊢
  simp
  omega

theorem leaves_pushAlternate (pending : PendingMove) :
    Leaves (Scan.Failed limit lost) (fun scan => scan.account.Open limit lost)
      (machine.pushAlternate pending) fun _ scan => scan.account.Open limit lost := by
  unfold pushAlternate
  apply Leaves.getBind
  intro scan isOpen
  split
  next =>
    split
    next => exact .ask fun _ _ => id
    next => exact .throw fun _ still => still
  next alternates pushed =>
    have room : ¬scan.alternates.limit ≤ scan.alternates.depth := by
      intro full
      rw [FrameStack.push?, if_pos full] at pushed
      cases pushed
    rw [FrameStack.push?, if_neg room] at pushed
    cases pushed
    refine .bind (.set ?_) fun _ => (leaves_record_push recording pending.target 0).bind fun _ =>
      (quiet_runList pending.push).discard.keepsOpen
    have pushes := isOpen.pushes
    have limited := isOpen.limited
    refine { pushes := ?_, limited, bounded := ?_, unfinished := isOpen.unfinished }
    · simp only [Scan.account, Scan.recorded, FrameStack.depth, List.length_cons] at pushes ⊢
      omega
    · simp only [Scan.account, FrameStack.depth, List.length_cons] at limited room ⊢
      omega

theorem leaves_pushAll (pending : List PendingMove) :
    Leaves (Scan.Failed limit lost) (fun scan => scan.account.Open limit lost)
      (machine.pushAll pending) fun _ scan => scan.account.Open limit lost := by
  induction pending with
  | nil => exact .pure fun _ => id
  | cons first rest induction =>
      exact (leaves_pushAlternate recording first).bind fun _ => induction

theorem leaves_pushAlternates :
    Leaves (Scan.Failed limit lost) (fun scan => scan.account.Open limit lost)
      machine.pushAlternates fun _ scan => scan.account.Open limit lost := by
  apply Leaves.getBind
  intro scan isOpen
  split
  next => exact .set isOpen
  next =>
    apply (Quiet.ask _).keepsOpen.bind
    exact leaves_pushAll recording

/-- A frame that was taken off the stack is recorded, unless it is stale. -/
theorem leaves_enterAlternate {frames : List Frame} (frame : Frame) :
    Leaves (Scan.Failed limit lost)
      (fun scan => scan.account.Open limit (lost + 1) ∧ scan.account.alternates.frames = frames)
      (machine.enterAlternate frame)
      fun _ scan => scan.account.Open limit lost ∧ scan.account.alternates.frames = frames := by
  unfold enterAlternate
  apply Leaves.getBind
  intro scan isOpen
  split
  next => exact .throw fun _ still => still.1
  next =>
    refine .bind (.set isOpen) fun _ =>
      (leaves_record_pop recording frame.state.toNat frame.popTest.toNat).bind fun _ => ?_
    apply (quiet_runList frame.popTest.toNat).discard.keepsFrames.bind
    exact fun _ => .getBind fun _ _ => .pure fun _ => id

omit recording in
theorem open_pathEnded {scan : Scan World} (isOpen : scan.account.Open limit lost) :
    (machine.pathEnded scan).account.Open limit lost := by
  unfold pathEnded
  split
  next => exact { isOpen with }
  next => exact isOpen

theorem leaves_popAlternates (frames : List Frame) :
    Leaves (Scan.Failed limit lost)
      (fun scan => scan.account.Open limit lost ∧ scan.account.alternates.frames = frames)
      (machine.popAlternates frames) fun goesOn scan =>
        scan.account.Open limit lost ∧ (goesOn = false → scan.account.alternates.frames = []) := by
  induction frames with
  | nil => exact .pure fun _ holds => ⟨holds.1, fun _ => holds.2⟩
  | cons frame rest induction =>
      have dropped : Leaves (Scan.Failed limit lost)
          (fun scan => scan.account.Open limit lost ∧
            scan.account.alternates.frames = frame :: rest)
          (modify (Scan.dropAlternate : Scan World → Scan World)) fun _ scan =>
            scan.account.Open limit (lost + 1) ∧ scan.account.alternates.frames = rest := by
        apply Leaves.modify
        rintro scan ⟨isOpen, same⟩
        have pushes := isOpen.pushes
        have bounded := isOpen.bounded
        rw [Scan.dropAlternate_eq same]
        refine ⟨{ isOpen with pushes := ?_, bounded := ?_ }, rfl⟩ <;>
          simp only [FrameStack.depth, same, List.length_cons] at pushes bounded
        · simp only [Scan.account, Scan.recorded, FrameStack.depth] at pushes ⊢
          omega
        · simp only [Scan.account, FrameStack.depth] at bounded ⊢
          omega
      apply dropped.bind
      intro _
      apply (leaves_enterAlternate recording frame).bind
      intro entered
      split
      next isEntered => exact .pure fun _ holds => ⟨holds.1, fun refused => by simp_all⟩
      next =>
        refine .bind (.modify fun scan holds => ?_) fun _ => induction
        exact ⟨open_pathEnded { holds.1 with },
          (congrArg FrameStack.frames (pathEnded_alternates _)).trans holds.2⟩

theorem leaves_endPath :
    Leaves (Scan.Failed limit lost) (fun scan => scan.account.Open limit lost) machine.endPath
      fun goesOn scan => scan.account.Open limit lost ∧
        (goesOn = false → scan.account.alternates.frames = []) := by
  have ended : Leaves (Scan.Failed limit lost) (fun scan => scan.account.Open limit lost)
      (modify machine.pathEnded) fun _ scan => scan.account.Open limit lost :=
    .modify fun _ => open_pathEnded
  apply ended.bind
  intro _ scan isOpen
  exact leaves_popAlternates recording scan.alternates.frames scan ⟨isOpen, rfl⟩

/-! ## Drivers -/

omit recording in
theorem leaves_finish :
    Leaves (Scan.Failed limit lost)
      (fun scan : Scan World => scan.account.Open limit lost ∧ scan.account.alternates.frames = [])
      finish (Scan.Ended limit lost) := by
  have finished : Leaves (Scan.Failed limit lost)
      (fun scan : Scan World => scan.account.Open limit lost ∧ scan.account.alternates.frames = [])
      (modify fun scan => { scan with done := true }) fun _ scan =>
        Scan.Ended limit lost scan.result scan :=
    .modify fun _ holds => ⟨{ holds.1.toBalanced with }, rfl, fun _ => holds.2⟩
  exact finished.bind fun _ => .getBind fun _ _ => .pure fun _ ended => { ended with }

omit recording in
theorem leaves_suspend :
    Leaves (Scan.Failed limit lost) (fun scan : Scan World => scan.account.Open limit lost)
      suspend (Scan.Ended limit lost) := by
  have marked : Quiet (modify fun scan : Scan World => { scan with resumed := true }) :=
    .modify fun _ => rfl
  exact marked.keepsOpen.bind fun _ => .getBind fun _ _ => .pure fun _ isOpen => isOpen.ended rfl

omit recording in
theorem leaves_leave :
    Leaves (Scan.Failed limit lost) (fun scan : Scan World => scan.account.Open limit lost)
      leave (Scan.Ended limit lost) :=
  .getBind fun _ _ => .pure fun _ isOpen => isOpen.ended rfl

omit recording in
theorem leaves_last {α : Type} {before : Scan World → Prop} {step : Step World ScanResult}
    (leaves : Leaves (Scan.Failed limit lost) before step (Scan.Ended limit lost)) :
    Leaves (Scan.Failed limit lost) before (do return .inr (← step)) (After α limit lost) :=
  leaves.bind fun _ => .pure fun _ => id

omit recording in
theorem leaves_unless_stop {α : Type} {step : Step World Control} (quiet : Quiet step)
    {next : Step World (α ⊕ ScanResult)}
    (leaves : Leaves (Scan.Failed limit lost) (fun scan => scan.account.Open limit lost) next
      (After α limit lost)) :
    Leaves (Scan.Failed limit lost) (fun scan => scan.account.Open limit lost)
      (do if (← step) = .stop then return .inr (← leave) else next) (After α limit lost) := by
  apply quiet.keepsOpen.bind
  intro control
  split
  next => exact leaves_last leaves_leave
  next => exact leaves

theorem leaves_gotoOut :
    Leaves (Scan.Failed limit lost) (fun scan => scan.account.Open limit lost) machine.gotoOut
      (After Unit limit lost) := by
  apply (leaves_endPath recording).bind
  intro goesOn
  cases goesOn with
  | true => exact .pure fun _ holds => holds.1
  | false => exact leaves_last fun scan holds => leaves_finish scan ⟨holds.1, holds.2 rfl⟩

theorem leaves_gotoTestEof :
    Leaves (Scan.Failed limit lost) (fun scan => scan.account.Open limit lost)
      machine.gotoTestEof (After Unit limit lost) := by
  apply Leaves.getBind
  intro scan _
  split
  next => exact leaves_last leaves_suspend
  next =>
    apply quiet_endInput.keepsOpen.bind
    intro taken
    split
    next => exact .pure fun _ => id
    next => exact leaves_gotoOut recording

theorem leaves_phase (phase : Phase) :
    Leaves (Scan.Failed limit lost) (fun scan => scan.account.Open limit lost)
      (machine.phase phase) (After Phase limit lost) := by
  cases phase with
  | resume =>
      apply (leaves_pushAlternates recording).bind
      intro _
      apply Leaves.getBind
      intro scan _
      split
      next => exact .pure fun _ => id
      next =>
        apply quiet_inError.keepsOpen.bind
        intro before
        split
        next => exact .pure fun _ => id
        next =>
          apply leaves_unless_stop quiet_resume
          apply leaves_unless_stop quiet_again
          apply quiet_inError.keepsOpen.bind
          intro after
          split
          next => exact .pure fun _ => id
          next => exact quiet_advance.keepsOpen.bind fun _ => .pure fun _ => id
  | testEof =>
      apply Leaves.getBind
      intro scan _
      split
      next => exact leaves_last leaves_suspend
      next => exact quiet_endInput.keepsOpen.bind fun _ => .pure fun _ => id
  | out =>
      apply (leaves_endPath recording).bind
      intro goesOn
      cases goesOn with
      | true => exact .pure fun _ holds => holds.1
      | false => exact leaves_last fun scan holds => leaves_finish scan ⟨holds.1, holds.2 rfl⟩

theorem leaves_gotoResume :
    Leaves (Scan.Failed limit lost) (fun scan => scan.account.Open limit lost)
      (machine.gotoResume ()) (After Unit limit lost) := by
  rw [← phase_resume_jump]
  apply (leaves_phase recording .resume).bind
  intro outcome
  match outcome with
  | .inr result => exact .pure fun _ => id
  | .inl .resume => exact .pure fun _ => id
  | .inl .testEof => exact leaves_gotoTestEof recording
  | .inl .out => exact leaves_gotoOut recording

theorem leaves_flaggedEnd (out : Bool) :
    Leaves (Scan.Failed limit lost) (fun scan => scan.account.Open limit lost)
      (machine.flaggedEnd out) (After Unit limit lost) := by
  cases out with
  | true => exact leaves_gotoOut recording
  | false => exact .pure fun _ => id

theorem leaves_flaggedRound :
    Leaves (Scan.Failed limit lost) (fun scan => scan.account.Open limit lost)
      (machine.flaggedRound ()) (After Unit limit lost) := by
  apply (leaves_pushAlternates recording).bind
  intro _
  apply Leaves.getBind
  intro scan _
  split
  next =>
    apply Leaves.getBind
    intro scan _
    split
    next => exact leaves_last leaves_suspend
    next => exact quiet_endInput.keepsOpen.bind fun _ => leaves_flaggedEnd recording _
  next => exact quiet_pathEndsAtKey.keepsOpen.bind (leaves_flaggedEnd recording)

theorem leaves_driveBy (kind : DriverKind) (fuel : Nat) :
    Leaves (Scan.Failed limit lost) (fun scan => scan.account.Open limit lost)
      (machine.driveBy kind fuel) (Scan.Ended limit lost) := by
  cases kind with
  | goto => exact .repeated (fun _ => leaves_gotoResume recording) fuel ()
  | phased => exact .repeated (leaves_phase recording) fuel .resume
  | flagged => exact .repeated (fun _ => leaves_flaggedRound recording) fuel ()

end Recording

/-- The scans a machine comes to, with the number of calls so far that ended with a stale
alternate. -/
inductive Loses (machine : Machine World) : Nat → Scan World → Prop
  | start (world : World) : Loses machine 0 (machine.start world)
  | execute {lost fuel : Nat} {scan after : Scan World} {chunk : Array Key} {ended : Bool}
      {report : Report} : Loses machine lost scan →
        machine.execute fuel scan chunk ended = .ok (report, after) →
          Loses machine (lost + report.lost) after

/-- What a call leaves behind. -/
structure Settled (limit : Int) (lost : Nat) (scan : Scan World) : Prop where
  balanced : scan.account.Balanced limit lost
  empty : scan.done = true → scan.alternates.frames = []

theorem settled_start (machine : Machine World) (world : World) :
    Settled machine.alternateLimit 0 (machine.start world) where
  balanced := ⟨rfl, rfl, Int.le_max_right _ _⟩
  empty _ := rfl

theorem lost_of_strayKey {chunk : Array Key} {problem : ScanError}
    (stray : machine.strayKey chunk = some problem) : problem.lost = 0 := by
  unfold strayKey at stray
  split at stray
  next => cases stray
  next index _ =>
    rcases Option.map_eq_some_iff.mp stray with ⟨key, _, rfl⟩
    rfl

/-- A call settles the account, and if it ends the scan nothing is pending. -/
theorem settled_execute (recording : machine.recording = true) {limit : Int} {lost fuel : Nat}
    {scan after : Scan World} {chunk : Array Key} {ended : Bool} {report : Report}
    (settled : Settled limit lost scan)
    (executed : machine.execute fuel scan chunk ended = .ok (report, after)) :
    Settled limit (lost + report.lost) after ∧
      (report.error = none → report.result.suspended = false → report.result.broke = false →
        after.done = true) := by
  cases isDone : scan.done with
  | true =>
      rw [execute, if_pos isDone] at executed
      cases executed
      exact ⟨settled, fun _ _ _ => isDone⟩
  | false =>
      cases stray : machine.strayKey chunk with
      | some problem =>
          rw [execute, if_neg (by simp [isDone]), stray] at executed
          cases executed
          have unlost : Report.lost ⟨scan.result, some problem⟩ = 0 := lost_of_strayKey stray
          rw [unlost]
          exact ⟨settled, fun impossible => by cases impossible⟩
      | none =>
          have isOpen : (scan.begin chunk ended).account.Open limit lost :=
            { settled.balanced with unfinished := isDone }
          have driven := leaves_driveBy recording machine.driver fuel
            (scan.begin chunk ended) isOpen
          rw [execute_eq isDone stray] at executed
          split at executed
          next => cases executed
          next result next stepped =>
            cases executed
            have finished := driven _ _ stepped
            refine ⟨⟨finished.balanced, finished.empty⟩, fun _ goesOn stays => ?_⟩
            rw [finished.done, goesOn, stays]
            rfl
          next problem next stepped =>
            cases executed
            have failed : after.account.Open limit (lost + problem.lost) := driven _ _ stepped
            refine ⟨⟨failed.toBalanced, fun closes => ?_⟩, fun impossible => by cases impossible⟩
            exact absurd (failed.unfinished.symm.trans closes) (by decide)

theorem Loses.settled (recording : machine.recording = true) {lost : Nat} {scan : Scan World}
    (loses : machine.Loses lost scan) : Settled machine.alternateLimit lost scan := by
  induction loses with
  | start world => exact settled_start machine world
  | execute _ executed settled => exact (settled_execute recording settled executed).1

/-- After every call, what was pushed and not popped is pending, but for one alternate for
every call that ended with a stale one. No more are pending than allowed, and none once the
scan is over. -/
theorem pushes_eq_pops_add_pending (machine : Machine World) (recording : machine.recording = true)
    {lost fuel : Nat} {scan after : Scan World} {chunk : Array Key} {ended : Bool}
    {report : Report} (loses : machine.Loses lost scan)
    (executed : machine.execute fuel scan chunk ended = .ok (report, after)) :
    after.recorded .push = after.recorded .pop + after.alternates.depth + (lost + report.lost) ∧
      (after.alternates.depth : Int) ≤ max machine.alternateLimit 0 ∧
      (report.error = none → report.result.suspended = false → report.result.broke = false →
        after.alternates.depth = 0) := by
  have settled := settled_execute recording (loses.settled recording) executed
  refine ⟨settled.1.balanced.pushes, settled.1.balanced.bounded, fun fine goesOn stays => ?_⟩
  have empty := settled.1.empty (settled.2 fine goesOn stays)
  rw [FrameStack.depth, empty, List.length_nil]

end Machine

namespace Sample

/-- Three calls on a machine with a pending alternate, which the second one finds to be stale. -/
structure StaleRun where
  encoding : Encoding
  machine : Machine Nat
  first : Machine.Report × Scan Nat
  second : Machine.Report × Scan Nat
  third : Machine.Report × Scan Nat
  encoded : graph.encode options = .ok encoding
  created : Machine.create encoding.program machineOptions bindings = .ok machine
  begun : machine.execute 16 (machine.start 0) #[.ofInt (-5)] false = .ok first
  failed : machine.execute 16 first.2 #[] true = .ok second
  ended : machine.execute 16 second.2 #[] true = .ok third

def staleRun? : Option StaleRun :=
  match encoded : graph.encode options with
  | .error _ => none
  | .ok encoding =>
    match created : Machine.create encoding.program machineOptions bindings with
    | .error _ => none
    | .ok machine =>
      match begun : machine.execute 16 (machine.start 0) #[.ofInt (-5)] false with
      | .error _ => none
      | .ok first =>
        match failed : machine.execute 16 first.2 #[] true with
        | .error _ => none
        | .ok second =>
          match ended : machine.execute 16 second.2 #[] true with
          | .error _ => none
          | .ok third =>
            some ⟨encoding, machine, first, second, third, encoded, created, begun, failed, ended⟩

theorem exists_staleRun : ∃ run : StaleRun, run.machine.recording = true ∧ run.first.1.lost = 0 ∧
    run.second.1.lost = 1 ∧ run.third.1.error = none ∧ run.third.1.result.suspended = false ∧
    run.third.1.result.broke = false ∧ run.third.2.recorded .push = 1 ∧
    run.third.2.recorded .pop = 0 ∧ run.third.2.alternates.depth = 0 := by
  have found : staleRun?.any (fun run => run.machine.recording && run.first.1.lost == 0 &&
      run.second.1.lost == 1 && run.third.1.error == none && !run.third.1.result.suspended &&
      !run.third.1.result.broke && run.third.2.recorded .push == 1 &&
      run.third.2.recorded .pop == 0 && run.third.2.alternates.depth == 0) = true := by
    decide +kernel
  rw [Option.any_eq_true] at found
  rcases found with ⟨run, _, passed⟩
  exact ⟨run, by simpa [and_assoc] using passed⟩

theorem StaleRun.loses (run : StaleRun) :
    run.machine.Loses (0 + run.first.1.lost + run.second.1.lost) run.second.2 :=
  .execute (.execute (.start 0) run.begun) run.failed

end Sample

/-- A scan that is over has lost the alternate that was stale in the call before. -/
theorem pushes_eq_pops_add_pending_sample : ∃ run : Sample.StaleRun,
    run.third.1.error = none ∧
      run.third.2.recorded .push = run.third.2.recorded .pop + run.third.2.alternates.depth + 1 ∧
      (run.third.2.alternates.depth : Int) ≤ max run.machine.alternateLimit 0 ∧
      run.third.2.alternates.depth = 0 := by
  rcases Sample.exists_staleRun with ⟨run, recording, first, second, fine, goesOn, stays, _⟩
  have balance := run.machine.pushes_eq_pops_add_pending recording run.loses run.ended
  have third : run.third.1.lost = 0 := by rw [Machine.Report.lost, fine]; rfl
  rw [first, second, third] at balance
  exact ⟨run, fine, balance.1, balance.2.1, balance.2.2 fine goesOn stays⟩

/-- Not everything that was pushed and not popped is pending after a call without an error. -/
theorem pushes_exceed_pending_sample : ∃ run : Sample.StaleRun,
    run.machine.recording = true ∧ run.third.1.error = none ∧
      run.third.2.recorded .push ≠ run.third.2.recorded .pop + run.third.2.alternates.depth := by
  rcases Sample.exists_staleRun with ⟨run, recording, _, _, fine, _, _, pushes, pops, pending⟩
  refine ⟨run, recording, fine, ?_⟩
  rw [pushes, pops, pending]
  decide

end StateTables
