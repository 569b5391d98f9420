import Mathlib.Logic.Relation
import StateTables.Proofs.Pending
import StateTables.Proofs.TableSafety

/-! # What a scan accepts

A path that ends in a final state at the end of input is accepted. An alternate that its test
rejects does not become a path: it is put into the error state, where nothing is accepted, and the
next one is tried. Without an error state it stays where it is, and if that is a final state at the
end of input, it is accepted in spite of its test.
-/

namespace StateTables

open Step (Leaves Quiet)

namespace Scan

variable {World : Type}

/-- The scan stands in a final state at the end of input. -/
structure Accepting (program : Program) (scan : Scan World) : Prop where
  ended : scan.ended = true
  position : scan.position = scan.size
  final : program.firstFinal ≤ scan.state
  alive : program.error ≠ some scan.state

theorem accepting_congr {program other : Program}
    (firstFinal : program.firstFinal = other.firstFinal) (error : program.error = other.error)
    (scan : Scan World) :
    scan.Accepting program ↔ scan.Accepting other := by
  constructor
  · intro accepting
    exact { accepting with final := firstFinal ▸ accepting.final, alive := error ▸ accepting.alive }
  · intro accepting
    exact { accepting with
      final := firstFinal.symm ▸ accepting.final, alive := error.symm ▸ accepting.alive }

end Scan

/-! ## Steps that accept nothing -/

/-- The step does not change what was accepted. -/
def Step.Undecided {World α : Type} (step : Step World α) : Prop :=
  ∀ accepted, Leaves (fun _ scan => scan.accepted = accepted)
    (fun scan => scan.accepted = accepted) step fun _ scan => scan.accepted = accepted

open Step (Undecided)

theorem Step.Quiet.undecided {World α : Type} {step : Step World α} (quiet : Quiet step) :
    Undecided step := by
  intro accepted scan same result next stepped
  have left := quiet scan.account scan rfl result next stepped
  have kept : ∀ {account : Scan.Account}, account = scan.account → account.accepted = accepted :=
    fun equal => equal ▸ same
  cases result with
  | ok value => exact kept left
  | error problem => exact kept left.2

theorem Step.Undecided.bind {World α β : Type} {step : Step World α} {next : α → Step World β}
    (first : Undecided step) (second : ∀ value, Undecided (next value)) :
    Undecided (step >>= next) :=
  fun accepted => (first accepted).bind fun value => second value accepted

namespace Machine

variable {World : Type} {machine : Machine World}

theorem undecided_record (kind : EventKind) (state action : Nat) :
    Undecided (machine.record kind state action) := by
  intro accepted
  unfold record
  split
  next => exact .modify fun _ => id
  next => exact .pure fun _ => id

theorem undecided_pushAlternate (pending : PendingMove) :
    Undecided (machine.pushAlternate pending) := by
  intro accepted
  unfold pushAlternate
  apply Leaves.getBind
  intro scan same
  split
  next =>
    split
    next => exact .ask fun _ _ => id
    next => exact .throw fun _ => id
  next =>
    refine .bind (.set same) fun _ =>
      (undecided_record .push pending.target 0 accepted).bind fun _ => ?_
    exact (quiet_runList pending.push).discard.undecided accepted

theorem undecided_pushAll (pending : List PendingMove) : Undecided (machine.pushAll pending) := by
  induction pending with
  | nil => exact (Quiet.pure ()).undecided
  | cons first rest induction => exact (undecided_pushAlternate first).bind fun _ => induction

theorem undecided_pushAlternates : Undecided machine.pushAlternates := by
  intro accepted
  apply Leaves.getBind
  intro scan same
  split
  next => exact .set same
  next => exact ((Quiet.ask _).undecided.bind undecided_pushAll) accepted

theorem undecided_enterAlternate (frame : Frame) : Undecided (machine.enterAlternate frame) := by
  intro accepted
  unfold enterAlternate
  apply Leaves.getBind
  intro scan same
  split
  next => exact .throw fun _ => id
  next =>
    refine .bind (.set same) fun _ =>
      (undecided_record .pop frame.state.toNat frame.popTest.toNat accepted).bind fun _ => ?_
    apply ((quiet_runList frame.popTest.toNat).discard.undecided accepted).bind
    exact fun _ => .getBind fun _ _ => .pure fun _ => id

/-! ## The end of a path -/

theorem accepted_pathEnded (scan : Scan World) :
    (machine.pathEnded scan).accepted = true ↔
      scan.accepted = true ∨ scan.Accepting machine.program := by
  have conditions : scan.Accepting machine.program ↔
      (scan.ended && scan.position == scan.size &&
        decide (machine.program.firstFinal ≤ scan.state) &&
        !scan.inError machine.program) = true := by
    simp only [Scan.inError, Bool.and_eq_true, beq_iff_eq, decide_eq_true_eq, Bool.not_eq_true',
      beq_eq_false_iff_ne]
    exact ⟨fun holds => ⟨⟨⟨holds.ended, holds.position⟩, holds.final⟩, holds.alive⟩,
      fun holds => ⟨holds.1.1.1, holds.1.1.2, holds.1.2, holds.2⟩⟩
  unfold pathEnded
  rw [conditions]
  split
  next holds => simp [holds]
  next fails => simp [fails]

/-- What becomes of an alternate that was rejected. -/
def veto (machine : Machine World) (scan : Scan World) : Scan World :=
  machine.pathEnded { scan with state := machine.program.error.getD scan.state }

theorem accepted_veto (scan : Scan World) :
    (machine.veto scan).accepted = true ↔
      scan.accepted = true ∨ machine.program.error = none ∧ scan.Accepting machine.program := by
  rw [veto, accepted_pathEnded]
  cases error : machine.program.error with
  | none => simp
  | some state =>
      have trapped : ¬({ scan with state := state }).Accepting machine.program :=
        fun accepting => accepting.alive error
      simp [trapped]

/-- An alternate of those given is rejected, and this is where its test leaves the scan. -/
inductive Vetoes (machine : Machine World) : List Frame → Scan World → Scan World → Prop
  | here {frame : Frame} {rest : List Frame} {scan vetoed : Scan World} :
      machine.enterAlternate frame scan.dropAlternate = .ok (.ok false, vetoed) →
        Vetoes machine (frame :: rest) scan vetoed
  | later {frame : Frame} {rest : List Frame} {scan first vetoed : Scan World} :
      machine.enterAlternate frame scan.dropAlternate = .ok (.ok false, first) →
        Vetoes machine rest (machine.veto first) vetoed →
          Vetoes machine (frame :: rest) scan vetoed

theorem vetoes_cons_iff {frame : Frame} {rest : List Frame} {scan vetoed : Scan World} :
    machine.Vetoes (frame :: rest) scan vetoed ↔
      ∃ first, machine.enterAlternate frame scan.dropAlternate = .ok (.ok false, first) ∧
        (vetoed = first ∨ machine.Vetoes rest (machine.veto first) vetoed) := by
  constructor
  · intro vetoes
    cases vetoes with
    | here rejected => exact ⟨_, rejected, .inl rfl⟩
    | later rejected others => exact ⟨_, rejected, .inr others⟩
  · intro vetoes
    rcases vetoes with ⟨first, rejected, rfl | others⟩
    · exact .here rejected
    · exact .later rejected others

/-- The next alternate is entered, or it is rejected and those below it are next. -/
theorem popAlternates_cons (frame : Frame) (rest : List Frame) (scan : Scan World) :
    machine.popAlternates (frame :: rest) scan =
      match machine.enterAlternate frame scan.dropAlternate with
      | .ok (.ok true, entered) => .ok (.ok true, entered)
      | .ok (.ok false, vetoed) => machine.popAlternates rest (machine.veto vetoed)
      | .ok (.error problem, missed) => .ok (.error problem, missed)
      | .error fault => .error fault := by
  change (machine.enterAlternate frame >>= _) scan.dropAlternate = _
  rw [Step.bind_apply]
  cases machine.enterAlternate frame scan.dropAlternate with
  | error fault => rfl
  | ok outcome =>
      rcases outcome with ⟨result, after⟩
      cases result with
      | error problem => rfl
      | ok entered => cases entered <;> rfl

theorem accepted_enterAlternate {frame : Frame} {scan next : Scan World}
    {result : Except ScanError Bool}
    (entered : machine.enterAlternate frame scan.dropAlternate = .ok (result, next)) :
    next.accepted = scan.accepted := by
  have dropped : scan.dropAlternate.accepted = scan.accepted := by
    unfold Scan.dropAlternate
    split <;> rfl
  have kept := undecided_enterAlternate frame scan.accepted _ dropped result next entered
  cases result <;> exact kept

/-- Taking alternates off the stack accepts those that are rejected where there is no error state,
and nothing else. -/
theorem accepted_popAlternates {frames : List Frame} {scan after : Scan World}
    {result : Except ScanError Bool}
    (popped : machine.popAlternates frames scan = .ok (result, after)) :
    after.accepted = true ↔ scan.accepted = true ∨ machine.program.error = none ∧
      ∃ vetoed, machine.Vetoes frames scan vetoed ∧ vetoed.Accepting machine.program := by
  induction frames generalizing scan with
  | nil =>
      cases popped
      have unpopped : ∀ vetoed, ¬machine.Vetoes [] after vetoed := fun _ vetoes => by cases vetoes
      simp [unpopped]
  | cons frame rest induction =>
      rw [popAlternates_cons] at popped
      simp only [vetoes_cons_iff]
      split at popped
      next entered taken =>
        cases popped
        simp [taken, accepted_enterAlternate taken]
      next vetoed rejected =>
        -- Those below are popped from where the veto of this one left the scan.
        rw [induction popped, accepted_veto, accepted_enterAlternate rejected]
        simp only [rejected, Except.ok.injEq, Prod.mk.injEq, true_and, exists_eq_left',
          or_and_right, exists_or, exists_eq_left]
        rw [and_or_left, or_assoc]
      next problem missed failed =>
        cases popped
        simp [failed, accepted_enterAlternate failed]
      next => cases popped

/-- A path that ends in this scan is accepted, or an alternate is that is rejected then. -/
def Concludes (machine : Machine World) (scan : Scan World) : Prop :=
  scan.Accepting machine.program ∨ machine.program.error = none ∧
    ∃ vetoed, machine.Vetoes scan.alternates.frames (machine.pathEnded scan) vetoed ∧
      vetoed.Accepting machine.program

theorem accepted_endPath {scan after : Scan World} {result : Except ScanError Bool}
    (ended : machine.endPath scan = .ok (result, after)) :
    after.accepted = true ↔ scan.accepted = true ∨ machine.Concludes scan := by
  change machine.popAlternates (machine.pathEnded scan).alternates.frames
    (machine.pathEnded scan) = _ at ended
  rw [accepted_popAlternates ended, accepted_pathEnded, pathEnded_alternates, or_assoc, Concludes]

/-! ## Phases -/

/-- The phase that comes next, with the scan it is entered with. -/
def Turns (machine : Machine World) (before after : Phase × Scan World) : Prop :=
  machine.phase before.1 before.2 = .ok (.ok (.inl after.1), after.2)

/-- What was accepted before is what is accepted now and, if the call has ended, in its result. -/
def Stands (accepted : Bool) : Phase ⊕ ScanResult → Scan World → Prop :=
  Sum.elim (fun _ scan => scan.accepted = accepted) fun result scan =>
    scan.accepted = accepted ∧ result.accepted = accepted

theorem stands_leave (accepted : Bool) :
    Leaves (fun _ scan => scan.accepted = accepted)
      (fun scan : Scan World => scan.accepted = accepted) (do return .inr (← leave))
      (Stands accepted) :=
  .getBind fun _ same => .pure fun _ still => ⟨still, same⟩

theorem stands_suspend (accepted : Bool) :
    Leaves (fun _ scan => scan.accepted = accepted)
      (fun scan : Scan World => scan.accepted = accepted) (do return .inr (← suspend))
      (Stands accepted) := by
  intro scan same result next stepped
  cases stepped
  exact ⟨same, same⟩

theorem stands_phase {phase : Phase} (inside : phase ≠ .out) (accepted : Bool) :
    Leaves (fun _ scan => scan.accepted = accepted) (fun scan => scan.accepted = accepted)
      (machine.phase phase) (Stands accepted) := by
  cases phase with
  | out => exact absurd rfl inside
  | testEof =>
      apply Leaves.getBind
      intro scan _
      split
      next => exact stands_suspend accepted
      next => exact (quiet_endInput.undecided accepted).bind fun _ => .pure fun _ => id
  | resume =>
      apply (undecided_pushAlternates accepted).bind
      intro _
      apply Leaves.getBind
      intro scan _
      split
      next => exact .pure fun _ => id
      next =>
        apply (quiet_inError.undecided accepted).bind
        intro before
        split
        next => exact .pure fun _ => id
        next =>
          apply (quiet_resume.undecided accepted).bind
          intro control
          split
          next => exact stands_leave accepted
          next =>
            apply (quiet_again.undecided accepted).bind
            intro control
            split
            next => exact stands_leave accepted
            next =>
              apply (quiet_inError.undecided accepted).bind
              intro after
              split
              next => exact .pure fun _ => id
              next => exact (quiet_advance.undecided accepted).bind fun _ => .pure fun _ => id

theorem accepted_phase_out {scan after : Scan World}
    {result : Except ScanError (Phase ⊕ ScanResult)}
    (stepped : machine.phase .out scan = .ok (result, after)) :
    (after.accepted = true ↔ scan.accepted = true ∨ machine.Concludes scan) ∧
      ∀ value, result = .ok (.inr value) → value.accepted = after.accepted := by
  change (machine.endPath >>= _) scan = _ at stepped
  rw [Step.bind_apply] at stepped
  split at stepped
  next goesOn between ended =>
    have concluded := accepted_endPath ended
    cases goesOn with
    | true =>
        cases stepped
        exact ⟨concluded, fun _ impossible => by cases impossible⟩
    | false =>
        cases stepped
        refine ⟨concluded, fun value same => ?_⟩
        cases same
        rfl
  next problem between failed =>
    cases stepped
    exact ⟨accepted_endPath failed, fun _ impossible => by cases impossible⟩
  next => cases stepped

/-- Only the end of a path makes a difference to what is accepted, and results say so. -/
theorem accepted_phase {phase : Phase} {scan after : Scan World}
    {result : Except ScanError (Phase ⊕ ScanResult)}
    (stepped : machine.phase phase scan = .ok (result, after)) :
    (after.accepted = true ↔ scan.accepted = true ∨ phase = .out ∧ machine.Concludes scan) ∧
      ∀ value, result = .ok (.inr value) → value.accepted = after.accepted := by
  by_cases isOut : phase = .out
  · subst isOut
    simpa using accepted_phase_out stepped
  · have stands := stands_phase isOut scan.accepted scan rfl result after stepped
    match result, stands with
    | .error _, (same : after.accepted = scan.accepted) =>
        exact ⟨by simp [isOut, same], fun _ impossible => by cases impossible⟩
    | .ok (.inl _), (same : after.accepted = scan.accepted) =>
        exact ⟨by simp [isOut, same], fun _ impossible => by cases impossible⟩
    | .ok (.inr _), ⟨same, reported⟩ =>
        refine ⟨by simp [isOut, same], fun value isReport => ?_⟩
        cases isReport
        exact reported.trans same.symm

/-! ## Runs -/

def EndsPath (machine : Machine World) (begun last : Scan World) : Prop :=
  Relation.ReflTransGen machine.Turns (.resume, begun) (.out, last)

theorem exists_turns_iff {phase : Phase} {scan : Scan World} {property : Scan World → Prop} :
    (∃ last, Relation.ReflTransGen machine.Turns (phase, scan) (.out, last) ∧ property last) ↔
      phase = .out ∧ property scan ∨ ∃ following next,
        machine.phase phase scan = .ok (.ok (.inl following), next) ∧ ∃ last,
          Relation.ReflTransGen machine.Turns (following, next) (.out, last) ∧ property last := by
  constructor
  · rintro ⟨last, turns, holds⟩
    rcases Relation.ReflTransGen.cases_head turns with same | ⟨⟨following, next⟩, turn, rest⟩
    · cases same
      exact .inl ⟨rfl, holds⟩
    · exact .inr ⟨following, next, turn, last, rest, holds⟩
  · rintro (⟨rfl, holds⟩ | ⟨following, next, turn, last, rest, holds⟩)
    · exact ⟨scan, .refl, holds⟩
    · have turns : machine.Turns (phase, scan) (following, next) := turn
      exact ⟨last, .head turns rest, holds⟩

/-- From phase to phase, something is accepted where a path concludes, and nowhere else. -/
theorem accepted_repeated {fuel : Nat} {phase : Phase} {scan after : Scan World}
    {result : Except ScanError ScanResult}
    (ran : Step.repeated machine.phase fuel phase scan = .ok (result, after)) :
    (after.accepted = true ↔ scan.accepted = true ∨ ∃ last,
      Relation.ReflTransGen machine.Turns (phase, scan) (.out, last) ∧ machine.Concludes last) ∧
      ∀ value, result = .ok value → value.accepted = after.accepted := by
  induction fuel generalizing phase scan with
  | zero => cases ran
  | succ fuel induction =>
      rw [Step.repeated_succ, Step.bind_apply] at ran
      rw [exists_turns_iff]
      split at ran
      next outcome between stepped =>
        rcases accepted_phase stepped with ⟨accepted, reported⟩
        cases outcome with
        | inl following =>
            rcases induction ran with ⟨later, results⟩
            refine ⟨?_, results⟩
            rw [later, accepted, or_assoc]
            simp [stepped]
        | inr value =>
            cases ran
            refine ⟨by simp [accepted, stepped], ?_⟩
            intro value same
            cases same
            exact reported _ rfl
      next problem between failed =>
        cases ran
        exact ⟨by simp [(accepted_phase failed).1, failed], fun _ impossible => by cases impossible⟩
      next => cases ran

theorem repeated_of_execute (unstoppable : machine.driver = .flagged →
      ∀ action ∈ machine.program.actions, action.kind ≠ .stop)
    {scan after : Scan World} {chunk : Array Key} {ended : Bool} {fuel : Nat} {report : Report}
    (unfinished : scan.done = false) (proper : machine.strayKey chunk = none)
    (executed : machine.execute fuel scan chunk ended = .ok (report, after)) :
    ∃ enough result, Step.repeated machine.phase enough .resume (scan.begin chunk ended) =
        .ok (result, after) ∧
      (report = ⟨after.result, report.error⟩ ∨ result = .ok report.result) := by
  have phased : ∀ {outcome}, machine.Ends machine.driver (scan.begin chunk ended) outcome →
      machine.Ends .phased (scan.begin chunk ended) outcome := by
    intro outcome ends
    cases kind : machine.driver with
    | goto => exact ends_phased_iff.mpr (kind ▸ ends)
    | phased => exact kind ▸ ends
    | flagged =>
        exact ends_phased_iff.mpr ((ends_flagged_iff (unstoppable kind)).mp (kind ▸ ends))
  rw [execute_eq unfinished proper] at executed
  split at executed
  next => cases executed
  next result between driven =>
    cases executed
    rcases phased ⟨(by intro exhausted; cases exhausted), fuel, driven⟩ with ⟨_, enough, ran⟩
    exact ⟨enough, _, ran, .inr rfl⟩
  next problem between driven =>
    cases executed
    rcases phased ⟨(by intro exhausted; cases exhausted), fuel, driven⟩ with ⟨_, enough, ran⟩
    exact ⟨enough, _, ran, .inl rfl⟩

end Machine

/-- An alternate that its test rejects does not count, unless there is no error state. To take it
off the stack leaves what was accepted as it was and goes on with the alternates below it; without
an error state it is accepted itself if its test leaves it in a final state at the end of input. So
after a call something is accepted if and only if it was before, or a path that the scan went on
with ended in a final state at the end of input, or, without an error state, a rejected alternate
did. -/
theorem Graph.accepted_iff_path_ends {World : Type} {graph : Graph}
    {encodingOptions : EncodingOptions} {encoding : Encoding}
    (encoded : graph.encode encodingOptions = .ok encoding) {options : MachineOptions}
    {bindings : Bindings World} {machine : Machine World}
    (created : Machine.create encoding.program options bindings = .ok machine) :
    (∀ (frame : Frame) (rest : List Frame) (scan vetoed : Scan World),
      machine.enterAlternate frame scan.dropAlternate = .ok (.ok false, vetoed) →
        machine.popAlternates (frame :: rest) scan =
            machine.popAlternates rest (machine.veto vetoed) ∧
          ((machine.veto vetoed).accepted = true ↔
            scan.accepted = true ∨ graph.error = none ∧ vetoed.Accepting graph.program)) ∧
    ∀ (fuel : Nat) (scan : Scan World) (chunk : Array Key) (ended : Bool)
      (report : Machine.Report) (after : Scan World),
      scan.done = false → machine.strayKey chunk = none →
        machine.execute fuel scan chunk ended = .ok (report, after) →
          report.result.accepted = after.accepted ∧
          (after.accepted = true ↔ scan.accepted = true ∨
            ∃ last, machine.EndsPath (scan.begin chunk ended) last ∧
              (last.Accepting graph.program ∨ graph.error = none ∧ ∃ vetoed,
                machine.Vetoes last.alternates.frames (machine.pathEnded last) vetoed ∧
                  vetoed.Accepting graph.program)) := by
  have laid := laid_of_encode encoded
  have runs := (Machine.created_of_create created).runs
  have error : machine.program.error = graph.error := by rw [runs]; exact laid.error
  have firstFinal : machine.program.firstFinal = graph.program.firstFinal := by
    rw [runs]; exact laid.firstFinal
  have accepting : ∀ scan : Scan World,
      scan.Accepting machine.program ↔ scan.Accepting graph.program :=
    Scan.accepting_congr firstFinal error
  constructor
  · intro frame rest scan vetoed rejected
    constructor
    · rw [Machine.popAlternates_cons, rejected]
    · rw [Machine.accepted_veto, Machine.accepted_enterAlternate rejected, error, accepting]
  · intro fuel scan chunk ended report after unfinished proper executed
    have unstoppable : machine.driver = .flagged →
        ∀ action ∈ machine.program.actions, action.kind ≠ .stop := by
      rw [runs]
      change _ → ∀ action ∈ encoding.actions, _
      rw [laid.actions]
      exact unstoppable_of_create encoded created
    rcases Machine.repeated_of_execute unstoppable unfinished proper executed with
      ⟨enough, result, ran, reported⟩
    rcases Machine.accepted_repeated ran with ⟨accepted, results⟩
    constructor
    · rcases reported with same | same
      · rw [same]
        rfl
      · exact results _ same
    · rw [accepted]
      simp only [Machine.Concludes, accepting, error]
      rfl

namespace Sample

def vetoDraft (further : List DraftStep) : Draft :=
  let operations : List DraftStep := [
    .setStart "open",
    .markFinal ["aside"],
    .setFallback "open" (.plain ⟨"open", []⟩),
    .setFallback "aside" (.plain ⟨"aside", []⟩),
    .addAlternate "open" ⟨"aside", [], ["veto"]⟩]
  (operations ++ further).foldl Draft.perform (.empty "veto" (.full ⟨true, .one⟩))

def vetoGraph (further : List DraftStep) : Graph :=
  (vetoDraft further).assemble.mergeDuplicates

theorem built_vetoGraph : (vetoGraph []).Built := by
  have drafted : (vetoDraft []).Drafted := (Draft.Drafted.empty _ _).foldl (by decide +kernel)
  exact Graph.built_of_checks drafted (by decide +kernel)

def vetoBindings : Bindings Nat :=
  [⟨"veto", [⟨"veto", .action fun _ vetoes => .ok (.reject, vetoes + 1)⟩]⟩]

structure VetoRun (graph : Graph) where
  encoding : Encoding
  machine : Machine Nat
  pushed : Scan Nat
  last : Scan Nat
  frame : Frame
  vetoed : Scan Nat
  result : ScanResult
  after : Scan Nat
  executed : Machine.Report × Scan Nat
  encoded : graph.encode options = .ok encoding
  created : Machine.create encoding.program machineOptions vetoBindings = .ok machine
  resumes : machine.phase .resume ((machine.start 0).begin #[] true) =
    .ok (.ok (.inl .testEof), pushed)
  ends : machine.phase .testEof pushed = .ok (.ok (.inl .out), last)
  pending : last.alternates.frames = [frame]
  rejects : machine.enterAlternate frame (machine.pathEnded last).dropAlternate =
    .ok (.ok false, vetoed)
  concludes : machine.phase .out last = .ok (.ok (.inr result), after)
  executes : machine.execute 16 (machine.start 0) #[] true = .ok executed

def vetoRun? (graph : Graph) : Option (VetoRun graph) :=
  match encoded : graph.encode options with
  | .error _ => none
  | .ok encoding =>
    match created : Machine.create encoding.program machineOptions vetoBindings with
    | .error _ => none
    | .ok machine =>
      match resumes : machine.phase .resume ((machine.start 0).begin #[] true) with
      | .ok (.ok (.inl .testEof), pushed) =>
        match ends : machine.phase .testEof pushed with
        | .ok (.ok (.inl .out), last) =>
          match pending : last.alternates.frames with
          | [frame] =>
            match rejects : machine.enterAlternate frame (machine.pathEnded last).dropAlternate with
            | .ok (.ok false, vetoed) =>
              match concludes : machine.phase .out last with
              | .ok (.ok (.inr result), after) =>
                match executes : machine.execute 16 (machine.start 0) #[] true with
                | .ok executed => some {
                    encoding, machine, pushed, last, frame, vetoed, result, after, executed
                    encoded, created, resumes, ends, pending, rejects, concludes, executes }
                | .error _ => none
              | _ => none
            | _ => none
          | _ => none
        | _ => none
      | _ => none

theorem VetoRun.eq_last {graph : Graph} (run : VetoRun graph) {last : Scan Nat}
    (path : run.machine.EndsPath ((run.machine.start 0).begin #[] true) last) :
    last = run.last := by
  rcases Relation.ReflTransGen.cases_head path with same | ⟨⟨_, _⟩, turn, path⟩
  · cases same
  cases run.resumes.symm.trans turn
  rcases Relation.ReflTransGen.cases_head path with same | ⟨⟨_, _⟩, turn, path⟩
  · cases same
  cases run.ends.symm.trans turn
  rcases Relation.ReflTransGen.cases_head path with same | ⟨⟨_, _⟩, turn, _⟩
  · cases same
    rfl
  · cases run.concludes.symm.trans turn

theorem exists_vetoRun : ∃ run : VetoRun (vetoGraph []), run.last.state = 0 ∧
    (run.machine.pathEnded run.last).accepted = false ∧
      (run.machine.veto run.vetoed).accepted = true ∧
      run.executed.1.result.accepted = true := by
  have found : (vetoRun? (vetoGraph [])).any (fun run => run.last.state == 0 &&
      !(run.machine.pathEnded run.last).accepted && (run.machine.veto run.vetoed).accepted &&
      run.executed.1.result.accepted) = true := by
    decide +kernel
  rw [Option.any_eq_true] at found
  rcases found with ⟨run, _, passed⟩
  exact ⟨run, by simpa [and_assoc] using passed⟩

theorem exists_trappedVetoRun : ∃ run : VetoRun (vetoGraph [.requireError]),
    run.executed.1.result.accepted = false := by
  have found : (vetoRun? (vetoGraph [.requireError])).any (fun run =>
      !run.executed.1.result.accepted) = true := by
    decide +kernel
  rw [Option.any_eq_true] at found
  rcases found with ⟨run, _, passed⟩
  exact ⟨run, by simpa using passed⟩

end Sample

/-- With an error state nothing is accepted, and no path ended in a final state. -/
theorem accepted_iff_path_ends_sample : ∃ run : Sample.VetoRun (Sample.vetoGraph [.requireError]),
    run.machine.popAlternates [run.frame] (run.machine.pathEnded run.last) =
        run.machine.popAlternates [] (run.machine.veto run.vetoed) ∧
      run.executed.1.result.accepted = false ∧
      ¬∃ last, run.machine.EndsPath ((run.machine.start 0).begin #[] true) last ∧
        last.Accepting (Sample.vetoGraph [.requireError]).program := by
  rcases Sample.exists_trappedVetoRun with ⟨run, rejected⟩
  rcases Graph.accepted_iff_path_ends run.encoded run.created with ⟨vetoes, calls⟩
  rcases calls 16 (run.machine.start 0) #[] true _ _ rfl (by simp [Machine.strayKey])
    run.executes with ⟨reported, accepted⟩
  refine ⟨run, (vetoes run.frame [] _ _ run.rejects).1, rejected, ?_⟩
  rintro ⟨last, path, accepting⟩
  rw [accepted.mpr (.inr ⟨last, path, .inl accepting⟩), rejected] at reported
  cases reported

/-- Without an error state a rejected alternate changes what is accepted, and the call accepts,
although no path that it went on with ended in a final state. -/
theorem vetoed_alternate_accepted_sample : (Sample.vetoGraph []).Built ∧
    ∃ run : Sample.VetoRun (Sample.vetoGraph []),
      run.machine.enterAlternate run.frame (run.machine.pathEnded run.last).dropAlternate =
        .ok (.ok false, run.vetoed) ∧
      (run.machine.pathEnded run.last).accepted = false ∧
      (run.machine.veto run.vetoed).accepted = true ∧
      (∀ last, run.machine.EndsPath ((run.machine.start 0).begin #[] true) last →
        ¬last.Accepting (Sample.vetoGraph []).program) ∧
      run.machine.execute 16 (run.machine.start 0) #[] true = .ok run.executed ∧
      run.executed.1.result.accepted = true := by
  rcases Sample.exists_vetoRun with ⟨run, start, before, after, accepted⟩
  refine ⟨Sample.built_vetoGraph, run, run.rejects, before, after, ?_, run.executes, accepted⟩
  intro last path accepting
  have final := accepting.final
  rw [run.eq_last path, start] at final
  exact absurd final (by decide +kernel)

end StateTables
