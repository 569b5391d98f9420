import StateTables.Proofs.DriverVariants

/-! # Outcomes of steps, and the scans a machine comes to

A step succeeds, fails with an error of the scan, or is stopped by a fault. A contract says
what may be expected in each of these cases. What a round of a driver keeps holds of every
scan the driver comes to, and what a call keeps holds of every scan a machine can reach.
-/

namespace StateTables

namespace Step

variable {World α β : Type}

/-! ## Contracts -/

/-- What a step does from every scan with a property: if it succeeds, its value and the scan
it leaves belong together; if it fails, the scan it leaves has failed; its faults are
harmless. -/
def Meets (failed : Scan World → Prop) (harmless : Fault → Prop) (before : Scan World → Prop)
    (step : Step World α) (after : α → Scan World → Prop) : Prop :=
  ∀ scan, before scan → match step scan with
    | .ok (.ok value, next) => after value next
    | .ok (.error _, next) => failed next
    | .error fault => harmless fault

namespace Meets

variable {failed : Scan World → Prop} {harmless : Fault → Prop} {before : Scan World → Prop}

theorem pure {after : α → Scan World → Prop} {value : α}
    (property : ∀ scan, before scan → after value scan) :
    Meets failed harmless before (pure value) after :=
  property

theorem bind {middle : α → Scan World → Prop} {after : β → Scan World → Prop}
    {step : Step World α} {next : α → Step World β}
    (first : Meets failed harmless before step middle)
    (second : ∀ value, Meets failed harmless (middle value) (next value) after) :
    Meets failed harmless before (step >>= next) after := by
  intro scan isBefore
  have met := first scan isBefore
  rw [bind_apply]
  generalize step scan = outcome at met
  match outcome, met with
  | .ok (.ok value, between), met => exact second value between met
  | .ok (.error _, _), met => exact met
  | .error _, met => exact met

theorem weaken {after weaker : α → Scan World → Prop} {step : Step World α}
    (meets : Meets failed harmless before step after)
    (implied : ∀ value scan, after value scan → weaker value scan) :
    Meets failed harmless before step weaker := by
  intro scan isBefore
  have met := meets scan isBefore
  split at met
  next => exact implied _ _ met
  next => exact met
  next => exact met

theorem strengthen {stronger : Scan World → Prop} {after : α → Scan World → Prop}
    {step : Step World α} (meets : Meets failed harmless before step after)
    (implied : ∀ scan, stronger scan → before scan) :
    Meets failed harmless stronger step after :=
  fun scan isStronger => meets scan (implied scan isStronger)

theorem failing {worse : Scan World → Prop} {after : α → Scan World → Prop} {step : Step World α}
    (meets : Meets failed harmless before step after)
    (implied : ∀ scan, failed scan → worse scan) : Meets worse harmless before step after := by
  intro scan isBefore
  have met := meets scan isBefore
  split at met
  next => exact met
  next => exact implied _ met
  next => exact met

theorem given {fact : Prop} {after : α → Scan World → Prop} {step : Step World α}
    (meets : fact → Meets failed harmless before step after) :
    Meets failed harmless (fun scan => fact ∧ before scan) step after :=
  fun scan isBefore => meets isBefore.1 scan isBefore.2

theorem getBind {next : Scan World → Step World β} {after : β → Scan World → Prop}
    (each : ∀ scan, before scan → Meets failed harmless before (next scan) after) :
    Meets failed harmless before (get >>= next) after :=
  fun scan isBefore => each scan isBefore scan isBefore

theorem set {scan : Scan World} {after : Unit → Scan World → Prop} (isAfter : after () scan) :
    Meets failed harmless before (set scan) after :=
  fun _ _ => isAfter

theorem setBind {scan : Scan World} {middle : Scan World → Prop} {next : Step World α}
    {after : α → Scan World → Prop} (between : middle scan)
    (meets : Meets failed harmless middle next after) :
    Meets failed harmless before (MonadStateOf.set scan >>= fun _ => next) after :=
  fun _ _ => meets scan between

theorem modify {change : Scan World → Scan World} {after : Unit → Scan World → Prop}
    (keeps : ∀ scan, before scan → after () (change scan)) :
    Meets failed harmless before (modify change) after :=
  keeps

theorem throw {after : α → Scan World → Prop} {problem : ScanError}
    (fails : ∀ scan, before scan → failed scan) :
    Meets failed harmless before (throw problem) after :=
  fails

theorem fault {after : α → Scan World → Prop} {fault : Fault} (isHarmless : harmless fault) :
    Meets failed harmless before (Step.ask (.error fault)) after :=
  fun _ _ => isHarmless

theorem faultBind {next : α → Step World β} {after : β → Scan World → Prop} {fault : Fault}
    (isHarmless : harmless fault) :
    Meets failed harmless before (Step.ask (.error fault) >>= next) after :=
  fun _ _ => isHarmless

theorem askBind {answer : Except Fault α} {next : α → Step World β}
    {after : β → Scan World → Prop} {value : α} (answered : answer = .ok value)
    (meets : Meets failed harmless before (next value) after) :
    Meets failed harmless before (Step.ask answer >>= next) after := by
  rw [answered]
  exact meets

theorem question {answer : Except Fault α} {next : α → Step World β}
    {after : β → Scan World → Prop}
    (each : ∀ value, answer = .ok value → Meets failed harmless before (next value) after)
    (unanswered : ∀ fault, answer = .error fault → harmless fault) :
    Meets failed harmless before (Step.ask answer >>= next) after := by
  cases answer with
  | ok value => exact askBind rfl (each value rfl)
  | error fault => exact faultBind (unanswered fault rfl)

theorem ask {answer : Except Fault α} {after : α → Scan World → Prop}
    (each : ∀ value, answer = .ok value → ∀ scan, before scan → after value scan)
    (unanswered : ∀ fault, answer = .error fault → harmless fault) :
    Meets failed harmless before (Step.ask answer) after := by
  cases answer with
  | ok value => exact pure (each value rfl)
  | error problem => exact fault (unanswered problem rfl)

theorem call {callback : Callback World α} {after : α → Scan World → Prop}
    (answers : ∀ scan, before scan → ∀ answer world,
      callback scan.view scan.world = .ok (answer, world) →
        after answer { scan with world := world })
    (faults : ∀ scan, before scan → ∀ fault,
      callback scan.view scan.world = .error fault → harmless fault) :
    Meets failed harmless before (Step.call callback) after := by
  intro scan isBefore
  unfold Step.call
  cases called : callback scan.view scan.world with
  | ok answer => exact answers scan isBefore _ _ called
  | error fault => exact faults scan isBefore fault called

theorem discard {middle : α → Scan World → Prop} {after : Unit → Scan World → Prop}
    {step : Step World α} (meets : Meets failed harmless before step middle)
    (implied : ∀ value scan, middle value scan → after () scan) :
    Meets failed harmless before (discard step) after :=
  meets.bind fun value => .pure fun scan => implied value scan

theorem ensuring {middle after : α → Scan World → Prop} {missed : Scan World → Prop}
    {step : Step World α} {change : Scan World → Scan World}
    (meets : Meets missed harmless before step middle)
    (keeps : ∀ value scan, middle value scan → after value (change scan))
    (fails : ∀ scan, missed scan → failed (change scan)) :
    Meets failed harmless before (step.ensuring change) after := by
  intro scan isBefore
  have met := meets scan isBefore
  unfold Step.ensuring
  split at met
  next stepped =>
    rw [stepped]
    exact keeps _ _ met
  next stepped =>
    rw [stepped]
    exact fails _ met
  next stepped =>
    rw [stepped]
    exact met

theorem ensured {always : α → Prop} {after : α → Scan World → Prop} {step : Step World α}
    (meets : Meets failed harmless before step after)
    (ensures : Step.Ensures (fun _ => True) step fun value _ => always value) :
    Meets failed harmless before step fun value scan => always value ∧ after value scan := by
  intro scan isBefore
  have met := meets scan isBefore
  split at met
  next stepped => exact ⟨ensures scan trivial _ _ stepped, met⟩
  next => exact met
  next => exact met

/-- What every round keeps holds until the last one, which gives the result. -/
theorem repeated {round : α → Step World (α ⊕ β)} {after : β → Scan World → Prop}
    {keeps : α → Scan World → Prop} (exhaustion : harmless .outOfFuel)
    (each : ∀ current, Meets failed harmless (keeps current) (round current) (Sum.elim keeps after))
    (fuel : Nat) (current : α) :
    Meets failed harmless (keeps current) (Step.repeated round fuel current) after := by
  induction fuel generalizing current with
  | zero => exact fault exhaustion
  | succ fuel induction =>
      apply (each current).bind
      intro outcome
      cases outcome with
      | inl next => exact induction next
      | inr result => exact pure fun _ isAfter => isAfter

end Meets

end Step

open Step (Meets)

/-! ## The scans a machine comes to -/

def Scan.begin {World : Type} (scan : Scan World) (chunk : Array Key) (ended : Bool) :
    Scan World :=
  { scan with base := scan.base + scan.position, chunk := chunk, position := 0, ended := ended }

theorem Scan.dropAlternate_eq {World : Type} {scan : Scan World} {frame : Frame}
    {rest : List Frame} (holds : scan.alternates.frames = frame :: rest) :
    scan.dropAlternate = { scan with alternates := { scan.alternates with frames := rest } } := by
  unfold Scan.dropAlternate FrameStack.pop?
  rw [holds]

namespace Machine

variable {World : Type} (machine : Machine World)

/-- The driver, which began with a scan, comes to a phase with another one. Only a driver that
works in phases stops at others than that of the next key. -/
inductive Visits (begun : Scan World) : Phase → Scan World → Prop
  | begin : Visits begun .resume begun
  | jump {scan next : Scan World} : machine.driver = .goto → Visits begun .resume scan →
      machine.gotoResume () scan = .ok (.ok (.inl ()), next) → Visits begun .resume next
  | phase {phase following : Phase} {scan next : Scan World} : machine.driver = .phased →
      Visits begun phase scan → machine.phase phase scan = .ok (.ok (.inl following), next) →
        Visits begun following next
  | flags {scan next : Scan World} : machine.driver = .flagged → Visits begun .resume scan →
      machine.flaggedRound () scan = .ok (.ok (.inl ()), next) → Visits begun .resume next

/-- The scans that calls to initialise a machine and to scan chunks lead to. To initialise a
machine is to begin anew with the world as it has become. -/
inductive Reaches : Scan World → Prop
  | start (world : World) : Reaches (machine.start world)
  | execute {scan after : Scan World} {fuel : Nat} {chunk : Array Key} {ended : Bool}
      {report : Report} : Reaches scan →
        machine.execute fuel scan chunk ended = .ok (report, after) → Reaches after

variable {machine}

theorem pathEnded_alternates (scan : Scan World) :
    (machine.pathEnded scan).alternates = scan.alternates := by
  unfold pathEnded
  split <;> rfl

theorem execute_eq {scan : Scan World} {chunk : Array Key} (unfinished : scan.done = false)
    (proper : machine.strayKey chunk = none) (fuel : Nat) (ended : Bool) :
    machine.execute fuel scan chunk ended =
      match machine.driveBy machine.driver fuel (scan.begin chunk ended) with
      | .error fault => .error fault
      | .ok (.ok result, after) => .ok (⟨result, none⟩, after)
      | .ok (.error problem, after) => .ok (⟨after.result, some problem⟩, after) := by
  unfold execute
  rw [if_neg (by simp [unfinished]), proper]
  rfl

/-- A call that is refused changes nothing. -/
theorem execute_refused {scan after : Scan World} {chunk : Array Key} {fuel : Nat} {ended : Bool}
    {report : Report} (refused : ¬(scan.done = false ∧ machine.strayKey chunk = none)) :
    machine.execute fuel scan chunk ended = .ok (report, after) → after = scan := by
  intro executed
  unfold execute at executed
  split at executed
  next => cases executed; rfl
  next unfinished =>
    split at executed
    next => cases executed; rfl
    next proper => exact absurd ⟨by simpa using unfinished, proper⟩ refused

theorem ensures_phase_out : Step.Ensures (fun _ => True) (machine.phase .out) fun outcome _ =>
    ∀ following, outcome = .inl following → following = .resume := by
  refine (Step.Ensures.anything machine.endPath).bind fun goesOn => ?_
  split
  next => exact .pure fun _ _ following same => (Sum.inl.inj same).symm
  next =>
    refine (Step.Ensures.anything finish).bind fun _ => ?_
    exact .pure fun _ _ following impossible => by cases impossible

theorem ensures_phase_testEof : Step.Ensures (fun _ => True) (machine.phase .testEof)
    fun outcome _ => ∀ following, outcome = .inl following → following ≠ .testEof := by
  apply Step.Ensures.getBind
  intro scan _
  split
  next =>
    refine (Step.Ensures.anything suspend).bind fun _ => ?_
    exact .pure fun _ _ following impossible => by cases impossible
  next =>
    refine (Step.Ensures.anything machine.endInput).bind fun taken => ?_
    refine .pure fun _ _ following same => ?_
    cases same
    cases taken <;> decide

/-- What a driver does to a scan, and how: every phase keeps a property. -/
structure Rounds (failed : Scan World → Prop) (harmless : Fault → Prop)
    (keeps : Phase → Scan World → Prop) (after : ScanResult → Scan World → Prop)
    (machine : Machine World) : Prop where
  jump : Meets failed harmless (keeps .resume) (machine.gotoResume ())
    (Sum.elim (fun _ => keeps .resume) after)
  phase : ∀ phase, Meets failed harmless (keeps phase) (machine.phase phase)
    (Sum.elim keeps after)
  flags : machine.driver = .flagged → Meets failed harmless (keeps .resume)
    (machine.flaggedRound ()) (Sum.elim (fun _ => keeps .resume) after)

namespace Rounds

variable {failed : Scan World → Prop} {harmless : Fault → Prop}
  {keeps : Phase → Scan World → Prop} {after : ScanResult → Scan World → Prop}

section Phases

variable (phases : ∀ phase, Meets failed harmless (keeps phase) (machine.phase phase)
  (Sum.elim keeps after))
include phases

theorem meets_gotoOut : Meets failed harmless (keeps .out) machine.gotoOut
    (Sum.elim (fun _ => keeps .resume) after) := by
  rw [← phase_out_jump]
  apply ((phases .out).ensured ensures_phase_out).bind
  intro outcome
  apply Meets.given
  intro follows
  cases outcome with
  | inr result => exact .pure fun _ => id
  | inl following =>
      cases follows following rfl
      exact .pure fun _ => id

theorem meets_gotoTestEof : Meets failed harmless (keeps .testEof) machine.gotoTestEof
    (Sum.elim (fun _ => keeps .resume) after) := by
  rw [← phase_testEof_jump]
  apply ((phases .testEof).ensured ensures_phase_testEof).bind
  intro outcome
  apply Meets.given
  intro follows
  match outcome with
  | .inr result => exact .pure fun _ => id
  | .inl .resume => exact .pure fun _ => id
  | .inl .testEof => exact absurd rfl (follows .testEof rfl)
  | .inl .out => exact meets_gotoOut phases

theorem meets_gotoResume : Meets failed harmless (keeps .resume) (machine.gotoResume ())
    (Sum.elim (fun _ => keeps .resume) after) := by
  rw [← phase_resume_jump]
  apply (phases .resume).bind
  intro outcome
  match outcome with
  | .inr result => exact .pure fun _ => id
  | .inl .resume => exact .pure fun _ => id
  | .inl .testEof => exact meets_gotoTestEof phases
  | .inl .out => exact meets_gotoOut phases

/-- It is enough to know the phases, which the other drivers only join otherwise. -/
theorem of_phases (unstoppable : machine.driver = .flagged →
    ∀ action ∈ machine.program.actions, action.kind ≠ .stop) :
    Rounds failed harmless keeps after machine where
  jump := meets_gotoResume phases
  phase := phases
  flags isFlagged := by
    rw [flaggedRound_eq (unstoppable isFlagged)]
    exact meets_gotoResume phases

end Phases

theorem visits (rounds : Rounds failed harmless keeps after machine) {begun : Scan World}
    (begins : keeps .resume begun) {phase : Phase} {scan : Scan World}
    (visited : machine.Visits begun phase scan) : keeps phase scan := by
  induction visited with
  | begin => exact begins
  | jump _ _ stepped kept => simpa [stepped] using rounds.jump _ kept
  | phase _ _ stepped kept => simpa [stepped] using rounds.phase _ _ kept
  | flags isFlagged _ stepped kept => simpa [stepped] using rounds.flags isFlagged _ kept

theorem driveBy (rounds : Rounds failed harmless keeps after machine)
    (exhaustion : harmless .outOfFuel) (fuel : Nat) :
    Meets failed harmless (keeps .resume) (machine.driveBy machine.driver fuel) after := by
  unfold Machine.driveBy
  cases kind : machine.driver with
  | goto => exact .repeated exhaustion (fun _ => rounds.jump) fuel ()
  | phased => exact .repeated exhaustion rounds.phase fuel .resume
  | flagged => exact .repeated exhaustion (fun _ => rounds.flags kind) fuel ()

/-- However a call ends, it leaves a scan with a property, or else the fault is harmless. -/
theorem execute (rounds : Rounds failed harmless keeps after machine)
    (exhaustion : harmless .outOfFuel) {property : Scan World → Prop}
    (fails : ∀ scan, failed scan → property scan)
    (ends : ∀ result scan, after result scan → property scan) {scan : Scan World}
    {chunk : Array Key} {ended : Bool} (stays : property scan)
    (begins : machine.strayKey chunk = none → keeps .resume (scan.begin chunk ended)) (fuel : Nat) :
    (∀ report next, machine.execute fuel scan chunk ended = .ok (report, next) → property next) ∧
      ∀ fault, machine.execute fuel scan chunk ended = .error fault → harmless fault := by
  by_cases accepted : scan.done = false ∧ machine.strayKey chunk = none
  · have met := rounds.driveBy exhaustion fuel _ (begins accepted.2)
    rw [execute_eq accepted.1 accepted.2]
    generalize machine.driveBy machine.driver fuel (scan.begin chunk ended) = outcome at met
    match outcome with
    | .ok (.ok _, _) => exact ⟨by rintro _ _ ⟨⟩; exact ends _ _ met, by rintro _ ⟨⟩⟩
    | .ok (.error _, _) => exact ⟨by rintro _ _ ⟨⟩; exact fails _ met, by rintro _ ⟨⟩⟩
    | .error _ => exact ⟨by rintro _ _ ⟨⟩, by rintro _ ⟨⟩; exact met⟩
  · refine ⟨fun report next executed => execute_refused accepted executed ▸ stays, ?_⟩
    intro fault raised
    unfold Machine.execute at raised
    split at raised
    next => cases raised
    next unfinished =>
      split at raised
      next => cases raised
      next proper => exact absurd ⟨by simpa using unfinished, proper⟩ accepted

end Rounds

/-! ## Machines on programs that agree -/

section Agreeing

variable {other : Program} {bounds : Bounds} {related : Nat → Nat → Prop}

theorem inside_begin {scan : Scan World} (inside : machine.Inside bounds scan)
    {chunk : Array Key} (proper : machine.strayKey chunk = none) (ended : Bool) :
    machine.Inside bounds (scan.begin chunk ended) :=
  { inside with keys := contained_of_strayKey proper }

theorem eq_of_follows {α : Type} {good : Scan World → Prop} {left right : Step World α}
    (follows : Step.Follows good Eq left right) {scan : Scan World} (isGood : good scan) :
    right scan = left scan := by
  have alike := follows scan isGood
  generalize left scan = outcome, right scan = otherOutcome at alike
  cases alike with
  | done _ same => rw [same]
  | problem => rfl
  | fault => rfl

theorem good_of_follows {α : Type} {good : Scan World → Prop} {left right : Step World α}
    (follows : Step.Follows good Eq left right) {scan next : Scan World} (isGood : good scan)
    {value : α} (stepped : left scan = .ok (.ok value, next)) : good next := by
  have alike := follows scan isGood
  rw [stepped] at alike
  generalize right scan = otherOutcome at alike
  cases alike with
  | done stillGood => exact stillGood

theorem visits_running (agrees : machine.program.Agrees bounds related other)
    (small : machine.Small) {begun : Scan World} (inside : machine.Inside bounds begun)
    {phase : Phase} {scan : Scan World} (visited : machine.Visits begun phase scan) :
    (machine.running other).Visits begun phase scan ∧ machine.Inside bounds scan := by
  induction visited with
  | begin => exact ⟨.begin, inside⟩
  | jump isGoto _ stepped kept =>
      have follows := follows_gotoResume agrees small ()
      exact ⟨.jump isGoto kept.1 ((eq_of_follows follows kept.2).trans stepped),
        good_of_follows follows kept.2 stepped⟩
  | @phase phase _ _ _ isPhased _ stepped kept =>
      have follows := follows_phase agrees small phase
      exact ⟨.phase isPhased kept.1 ((eq_of_follows follows kept.2).trans stepped),
        good_of_follows follows kept.2 stepped⟩
  | flags isFlagged _ stepped kept =>
      have follows := follows_flaggedRound agrees small ()
      exact ⟨.flags isFlagged kept.1 ((eq_of_follows follows kept.2).trans stepped),
        good_of_follows follows kept.2 stepped⟩

end Agreeing

end Machine

end StateTables
