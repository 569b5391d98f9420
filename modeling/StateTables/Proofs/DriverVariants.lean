import StateTables.Proofs.Refinement

/-! # All drivers do the same

The drivers visit the same phases in the same order, but count their rounds
differently: a round of the driver that jumps is up to three phases of the other, and
the same as one with flags if no action can stop a scan. With enough fuel they
cannot be told apart.
-/

namespace StateTables

/-! ## More fuel -/

namespace Step

variable {World α β : Type}

def goOn (round : α → Step World (α ⊕ β)) (fuel : Nat) : α ⊕ β → Step World β
  | .inl next => Step.repeated round fuel next
  | .inr result => pure result

theorem repeated_succ (round : α → Step World (α ⊕ β)) (fuel : Nat) (current : α) :
    Step.repeated round (fuel + 1) current = round current >>= goOn round fuel := by
  unfold Step.repeated
  refine bind_congr fun outcome => ?_
  cases outcome <;> rfl

def Approximates (left right : Step World α) : Prop :=
  ∀ scan, left scan = .error .outOfFuel ∨ left scan = right scan

namespace Approximates

theorem refl (step : Step World α) : Approximates step step :=
  fun _ => .inr rfl

theorem trans {first second third : Step World α} (left : Approximates first second)
    (right : Approximates second third) : Approximates first third := by
  intro scan
  rcases left scan with exhausted | same
  · exact .inl exhausted
  · rw [same]
    exact right scan

theorem exhausted (step : Step World α) : Approximates (Step.ask (.error .outOfFuel)) step :=
  fun _ => .inl rfl

theorem bind {left right : Step World α} {leftNext rightNext : α → Step World β}
    (first : Approximates left right)
    (next : ∀ value, Approximates (leftNext value) (rightNext value)) :
    Approximates (left >>= leftNext) (right >>= rightNext) := by
  intro scan
  rw [bind_apply, bind_apply]
  rcases first scan with exhausted | same
  · exact .inl (by rw [exhausted])
  · rw [← same]
    split
    next value after _ => exact next value after
    next => exact .inr rfl
    next => exact .inr rfl

theorem repeated (round : α → Step World (α ⊕ β)) (fuel : Nat) (current : α) :
    Approximates (Step.repeated round fuel current) (Step.repeated round (fuel + 1) current) := by
  induction fuel generalizing current with
  | zero => exact exhausted _
  | succ fuel induction =>
      rw [repeated_succ, repeated_succ]
      refine (refl _).bind fun outcome => ?_
      cases outcome with
      | inl next => exact induction next
      | inr result => exact refl _

theorem repeated_of_le (round : α → Step World (α ⊕ β)) {fuel more : Nat} (enough : fuel ≤ more)
    (current : α) :
    Approximates (Step.repeated round fuel current) (Step.repeated round more current) := by
  induction enough with
  | refl => exact refl _
  | step _ induction => exact induction.trans (repeated round _ current)

end Approximates

end Step

namespace Machine

variable {World : Type} (machine : Machine World)

/-! ## Labels and phases -/

def label : Phase → Step World (Unit ⊕ ScanResult)
  | .resume => pure (.inl ())
  | .testEof => machine.gotoTestEof
  | .out => machine.gotoOut

def jump : Phase ⊕ ScanResult → Step World (Unit ⊕ ScanResult)
  | .inl next => machine.label next
  | .inr result => pure (.inr result)

theorem phase_out_jump : machine.phase .out >>= machine.jump = machine.gotoOut := by
  unfold phase gotoOut
  rw [bind_assoc]
  refine bind_congr fun goesOn => ?_
  split
  next => rfl
  next => rw [bind_assoc]; rfl

theorem phase_testEof_jump : machine.phase .testEof >>= machine.jump = machine.gotoTestEof := by
  unfold phase gotoTestEof
  rw [bind_assoc]
  refine bind_congr fun scan => ?_
  split
  next => rw [bind_assoc]; rfl
  next =>
    rw [bind_assoc]
    refine bind_congr fun taken => ?_
    cases taken <;> rfl

theorem phase_resume_jump : machine.phase .resume >>= machine.jump = machine.gotoResume () := by
  unfold phase gotoResume
  rw [bind_assoc]
  refine bind_congr fun _ => ?_
  rw [bind_assoc]
  refine bind_congr fun scan => ?_
  split
  next => rfl
  next =>
    rw [bind_assoc]
    refine bind_congr fun before => ?_
    split
    next => rfl
    next =>
      rw [bind_assoc]
      refine bind_congr fun control => ?_
      split
      next => rw [bind_assoc]; rfl
      next =>
        rw [bind_assoc]
        refine bind_congr fun control => ?_
        split
        next => rw [bind_assoc]; rfl
        next =>
          rw [bind_assoc]
          refine bind_congr fun after => ?_
          split
          next => rfl
          next => rw [bind_assoc]; rfl

open Step (Approximates goOn repeated_succ)

/-! ## Jumps for phases -/

theorem goOn_succ (fuel : Nat) (outcome : Unit ⊕ ScanResult) :
    Approximates (goOn machine.gotoResume fuel outcome)
      (goOn machine.gotoResume (fuel + 1) outcome) := by
  cases outcome with
  | inl next => exact .repeated machine.gotoResume fuel next
  | inr result => exact .refl _

/-- Phase after phase does what follows the label of the first one. -/
theorem phases_approximate (fuel : Nat) (phase : Phase) :
    Approximates (Step.repeated machine.phase fuel phase)
      (machine.label phase >>= goOn machine.gotoResume fuel) := by
  induction fuel generalizing phase with
  | zero => exact .exhausted _
  | succ fuel induction =>
      have jumped : Approximates (Step.repeated machine.phase (fuel + 1) phase)
          (machine.phase phase >>= machine.jump >>= goOn machine.gotoResume fuel) := by
        rw [repeated_succ, bind_assoc]
        refine (Approximates.refl _).bind fun outcome => ?_
        cases outcome with
        | inl next => exact induction next
        | inr result => exact .refl _
      refine jumped.trans ?_
      cases phase with
      | resume =>
          rw [phase_resume_jump, ← repeated_succ]
          exact .refl _
      | testEof =>
          rw [phase_testEof_jump]
          exact (Approximates.refl _).bind (machine.goOn_succ fuel)
      | out =>
          rw [phase_out_jump]
          exact (Approximates.refl _).bind (machine.goOn_succ fuel)

/-! ## Phases for jumps -/

section Jumps

variable {machine} {fuel enough : Nat}
  (resumes : Approximates (Step.repeated machine.gotoResume fuel ())
    (Step.repeated machine.phase enough .resume))
include resumes

theorem gotoOut_approximates :
    Approximates (machine.gotoOut >>= goOn machine.gotoResume fuel)
      (Step.repeated machine.phase (enough + 1) .out) := by
  rw [repeated_succ]
  unfold gotoOut phase
  rw [bind_assoc, bind_assoc]
  refine (Approximates.refl _).bind fun goesOn => ?_
  split
  next => exact resumes
  next => rw [bind_assoc, bind_assoc]; exact .refl _

theorem gotoTestEof_approximates :
    Approximates (machine.gotoTestEof >>= goOn machine.gotoResume fuel)
      (Step.repeated machine.phase (enough + 2) .testEof) := by
  rw [repeated_succ]
  unfold gotoTestEof phase
  rw [bind_assoc, bind_assoc]
  refine (Approximates.refl _).bind fun scan => ?_
  split
  next => rw [bind_assoc, bind_assoc]; exact .refl _
  next =>
    rw [bind_assoc, bind_assoc]
    refine (Approximates.refl _).bind fun taken => ?_
    cases taken with
    | true => exact resumes.trans (.repeated machine.phase enough .resume)
    | false => exact gotoOut_approximates resumes

theorem label_approximates (phase : Phase) :
    Approximates (machine.label phase >>= goOn machine.gotoResume fuel)
      (Step.repeated machine.phase (enough + 2) phase) := by
  cases phase with
  | resume => exact resumes.trans (.repeated_of_le machine.phase (by omega) .resume)
  | testEof => exact gotoTestEof_approximates resumes
  | out => exact (gotoOut_approximates resumes).trans (.repeated machine.phase _ .out)

end Jumps

theorem gotoResume_approximates (fuel : Nat) :
    Approximates (Step.repeated machine.gotoResume fuel ())
      (Step.repeated machine.phase (3 * fuel) .resume) := by
  induction fuel with
  | zero => exact .exhausted _
  | succ fuel induction =>
      rw [Nat.mul_succ, repeated_succ, repeated_succ, ← phase_resume_jump, bind_assoc]
      refine (Approximates.refl _).bind fun outcome => ?_
      cases outcome with
      | inl next => exact label_approximates induction next
      | inr result => exact .refl _

/-! ## Flags for jumps -/

/-- A list of actions never has the driver leave the scan. -/
def NeverStops (step : Step World Control) : Prop :=
  step.Ensures (fun _ => True) fun control _ => control ≠ .stop

theorem NeverStops.pure {control : Control} (goes : control ≠ .stop) :
    NeverStops (pure control : Step World Control) :=
  Step.Ensures.pure fun _ _ => goes

theorem NeverStops.bind {α : Type} {step : Step World α} {next : α → Step World Control}
    (each : ∀ value, NeverStops (next value)) : NeverStops (step >>= next) :=
  (Step.Ensures.anything step).bind each

theorem NeverStops.bind_eq {α : Type} {step : Step World Control} (never : NeverStops step)
    (leaves goesOn : Step World α) :
    (do if (← step) = .stop then leaves else goesOn) = (do discard step; goesOn) := by
  funext scan
  rw [Step.bind_apply, Step.bind_apply, Step.discard_apply, Step.bind_apply]
  cases stepped : step scan with
  | error fault => rfl
  | ok outcome =>
      rcases outcome with ⟨result, after⟩
      cases result with
      | error problem => rfl
      | ok control =>
          have goes := never scan trivial control after stepped
          simp only [if_neg goes, Step.pure_apply]

section Unstoppable

variable {machine} (unstoppable : ∀ action ∈ machine.program.actions, action.kind ≠ .stop)
include unstoppable

theorem neverStops_runActions (actions : List Nat) : NeverStops (machine.runActions actions) := by
  induction actions with
  | nil => exact .pure (by decide)
  | cons id rest induction =>
      unfold runActions
      refine Step.Ensures.askBind fun action found => ?_
      have notStop := unstoppable action (Graph.mem_of_part found)
      refine NeverStops.bind fun scan => .bind fun _ => ?_
      cases kind : action.kind with
      | hook => exact .bind fun _ => induction
      | hold => exact .bind fun _ => induction
      | next => exact .bind fun _ => .bind fun _ => induction
      | goto => exact .bind fun _ => .bind fun _ => .pure (by decide)
      | call => exact .bind fun _ => .pure (by decide)
      | ret => exact .bind fun _ => .pure (by decide)
      | stop => exact absurd kind notStop

theorem neverStops_runList (location : Nat) : NeverStops (machine.runList location) := by
  unfold runList
  split
  next => exact .pure (by decide)
  next => exact .bind fun actions => neverStops_runActions unstoppable actions

theorem neverStops_take (transition : Nat) : NeverStops (machine.take transition) :=
  .bind fun move => .bind fun _ => .bind fun _ => neverStops_runList unstoppable move.actions

theorem neverStops_resume : NeverStops machine.resume := by
  refine .bind fun before => .bind fun location => ?_
  refine Step.Ensures.bind (neverStops_runList unstoppable location) fun control => ?_
  split
  next => exact .pure fun _ goes => goes
  next =>
    refine (Step.Ensures.anything _).bind fun scan => NeverStops.bind fun key => ?_
    exact .bind fun transition => neverStops_take unstoppable transition

theorem neverStops_again : NeverStops machine.again := by
  refine .bind fun before => .bind fun location => ?_
  refine Step.Ensures.bind (neverStops_runList unstoppable location) fun control => ?_
  cases control with
  | stop => exact fun _ goes => absurd rfl goes
  | next => exact .pure fun _ _ => by decide
  | again => exact .pure fun _ _ => by decide

/-- Without an action that stops the scan a round with flags is a round that jumps. -/
theorem flaggedRound_eq : machine.flaggedRound () = machine.gotoResume () := by
  unfold flaggedRound gotoResume
  refine bind_congr fun _ => bind_congr fun scan => ?_
  split
  next =>
    refine bind_congr fun scan => ?_
    split
    next => rfl
    next =>
      refine bind_congr fun taken => ?_
      cases taken <;> rfl
  next =>
    rw [pathEndsAtKey, bind_assoc]
    refine bind_congr fun before => ?_
    split
    next => rfl
    next =>
      rw [(neverStops_resume unstoppable).bind_eq, bind_assoc]
      refine bind_congr fun _ => ?_
      rw [(neverStops_again unstoppable).bind_eq, bind_assoc]
      refine bind_congr fun _ => ?_
      rw [bind_assoc]
      refine bind_congr fun after => ?_
      split
      next => rfl
      next => rw [bind_assoc]; rfl

end Unstoppable

/-! ## Ends of scans -/

/-- With enough fuel, a driver brings a scan to an outcome: a fault, or a result or an error
together with the scan that is left behind. -/
def Ends (kind : DriverKind) (scan : Scan World)
    (outcome : Except Fault (Except ScanError ScanResult × Scan World)) : Prop :=
  outcome ≠ .error .outOfFuel ∧ ∃ fuel, machine.driveBy kind fuel scan = outcome

variable {machine} {kind other : DriverKind} {scan : Scan World}
  {outcome : Except Fault (Except ScanError ScanResult × Scan World)}

theorem Ends.of_approximates {more : Nat → Nat}
    (approximates : ∀ fuel, Approximates (machine.driveBy kind fuel)
      (machine.driveBy other (more fuel)))
    (ends : machine.Ends kind scan outcome) : machine.Ends other scan outcome := by
  rcases ends with ⟨fueled, fuel, driven⟩
  refine ⟨fueled, more fuel, ?_⟩
  rcases approximates fuel scan with exhausted | same
  · exact absurd (driven.symm.trans exhausted) fueled
  · rw [← same, driven]

theorem driveBy_of_le {fuel more : Nat} (enough : fuel ≤ more) :
    Approximates (machine.driveBy kind fuel) (machine.driveBy kind more) := by
  cases kind with
  | goto => exact .repeated_of_le machine.gotoResume enough ()
  | phased => exact .repeated_of_le machine.phase enough .resume
  | flagged => exact .repeated_of_le machine.flaggedRound enough ()

/-- A driver ends a scan in one way only. -/
theorem Ends.unique {otherOutcome : Except Fault (Except ScanError ScanResult × Scan World)}
    (first : machine.Ends kind scan outcome) (second : machine.Ends kind scan otherOutcome) :
    outcome = otherOutcome := by
  rcases first with ⟨fueled, fuel, rfl⟩
  rcases second with ⟨otherFueled, otherFuel, rfl⟩
  rcases Nat.le_total fuel otherFuel with enough | enough
  · exact (driveBy_of_le enough scan).resolve_left fueled
  · exact ((driveBy_of_le enough scan).resolve_left otherFueled).symm

theorem ends_phased_iff : machine.Ends .phased scan outcome ↔ machine.Ends .goto scan outcome :=
  ⟨Ends.of_approximates fun fuel => machine.phases_approximate fuel .resume,
    Ends.of_approximates machine.gotoResume_approximates⟩

theorem ends_flagged_iff
    (unstoppable : ∀ action ∈ machine.program.actions, action.kind ≠ .stop) :
    machine.Ends .flagged scan outcome ↔ machine.Ends .goto scan outcome := by
  have rounds : machine.flaggedRound = machine.gotoResume := by
    funext current
    exact flaggedRound_eq unstoppable
  unfold Ends driveBy
  rw [rounds]

/-- Jumps and phases bring every scan to the same end, and so do flags if there are no
actions that call, return or stop. -/
theorem ends_iff_of_drivers (machine : Machine World) (scan : Scan World)
    (outcome : Except Fault (Except ScanError ScanResult × Scan World)) :
    (machine.Ends .goto scan outcome ↔ machine.Ends .phased scan outcome) ∧
      ((∀ action ∈ machine.program.actions, action.kind.isControl = false) →
        (machine.Ends .goto scan outcome ↔ machine.Ends .flagged scan outcome)) := by
  refine ⟨ends_phased_iff.symm, fun uncontrolled => (ends_flagged_iff ?_).symm⟩
  intro action member isStop
  have free := uncontrolled action member
  rw [isStop] at free
  cases free

end Machine

namespace Sample

def machine : Machine Nat where
  program := graph.program
  driver := .goto
  hooks := graph.actions.map fun action => bindings.hook? action.name
  conditions := graph.spaces.map fun space => (Machine.conditionsOf bindings space).1
  callLimit := defaultCallLimit
  alternateLimit := defaultAlternateLimit
  recording := true
  fatalOverflow := false

def scan : Scan Nat :=
  { machine.start 0 with chunk := #[.ofInt 30, .ofInt 12, .ofInt (-5)], ended := true }

theorem exists_end : ∃ outcome, machine.Ends .goto scan outcome := by
  have ended : (machine.driveBy .goto 16 scan).isOk = true := by decide +kernel
  rcases exists_of_isOk ended with ⟨outcome, driven⟩
  exact ⟨.ok outcome, (by intro exhausted; cases exhausted), 16, driven⟩

end Sample

/-- All drivers bring the scan of the sample to the same end. -/
theorem ends_iff_of_drivers_sample : ∃ outcome, Sample.machine.Ends .goto Sample.scan outcome ∧
    Sample.machine.Ends .phased Sample.scan outcome ∧
    Sample.machine.Ends .flagged Sample.scan outcome := by
  rcases Sample.exists_end with ⟨outcome, ends⟩
  have drivers := Machine.ends_iff_of_drivers Sample.machine Sample.scan outcome
  exact ⟨outcome, ends, drivers.1.mp ends, (drivers.2 (by decide +kernel)).mp ends⟩

end StateTables
