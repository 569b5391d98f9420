import StateTables.Proofs.EofOrder
import StateTables.Proofs.Positions
import StateTables.Proofs.ProperDrafts

/-! # Where actions lead a scan

Without actions that hold back keys, and without alternates, a list of actions hops from state to
state, calls and returns, and leaves the position behind only if it stops. The states an
end-of-input transition hops between rank below its own, and a frame that is pushed on the way
weighs less than the state it came from: so there is less and less to return to. To-state actions
are not ranked, but harmless if all they jump to has no end-of-input transition.
-/

namespace StateTables

open Step (Meets)

/-! ## End-of-input transitions -/

namespace Graph

variable {graph : Graph}

/-- End-of-input transitions are not guarded. -/
def PlainEof (graph : Graph) : Prop :=
  ∀ state ∈ graph.states, ∀ number, state.eofTransition = some number →
    ∃ transition, graph.transitions[number]? = some transition ∧ transition.space = none

theorem PlainEof.mergeDuplicates (plain : graph.PlainEof) : graph.mergeDuplicates.PlainEof := by
  intro state member number found
  rcases mem_mergeDuplicates_states member with ⟨source, inside, rfl⟩
  rcases Option.map_eq_some_iff.mp found with ⟨old, oldFound, rfl⟩
  rcases plain source inside old oldFound with ⟨transition, stored, unguarded⟩
  exact ⟨_, getElem?_merged_transition stored, unguarded⟩

theorem plainEof_assemble {draft : Draft} (inhabited : 0 < draft.states.size)
    (drafted : draft.Drafted) : draft.assemble.PlainEof := by
  intro state member number found
  rcases Draft.mem_assemble_states inhabited member with
    ⟨_, way, _, rfl, _⟩ | ⟨source, declared, finished⟩
  · cases found
  · rcases finished.eofTransition number found with ⟨branch, isBranch, shared⟩
    rcases (drafted.proper source declared).eofBranch branch isBranch with ⟨⟨target, rfl⟩, _⟩
    rcases shared with ⟨transition, has⟩
    exact ⟨transition, has.found, has.space⟩

theorem Built.plainEof (built : graph.Built) : graph.PlainEof := by
  rcases built with ⟨draft, after, drafted, result⟩
  rcases Draft.build_eq_ok result with ⟨_, started, _, rfl, _⟩
  exact (plainEof_assemble (drafted.consistent.inhabited started) drafted).mergeDuplicates

/-- A scan in the state ends with the input. -/
def Still (graph : Graph) (state : Nat) : Prop :=
  graph.states[state]?.bind State.eofTransition = none

instance (graph : Graph) (state : Nat) : Decidable (graph.Still state) :=
  inferInstanceAs (Decidable (_ = none))

/-- To-state actions jump to allowed states only. -/
def ToStateAims (graph : Graph) (allowed : Nat → Prop) : Prop :=
  ∀ state ∈ graph.states, ∀ target ∈ graph.jumps (graph.actionsOf state.toState), allowed target

instance (graph : Graph) (allowed : Nat → Prop) [DecidablePred allowed] :
    Decidable (graph.ToStateAims allowed) :=
  inferInstanceAs (Decidable (∀ _, _))

structure EofMove (graph : Graph) (state : Nat) (move : Move) : Prop where
  target : graph.EofLeads state move.target
  actions : ∃ list, move.actions = graph.location list ∧
    ∀ target ∈ graph.jumps (graph.actionsOf list), graph.EofLeads state target

theorem eofMove_of_plainMove {id : Nat} {state : State} (declared : graph.states[id]? = some state)
    {number : Nat} (found : state.eofTransition = some number) {transition : Transition}
    (stored : graph.transitions[number]? = some transition) {move : Move}
    (moved : graph.program.plainMove number = .ok move) : graph.EofMove id move := by
  rcases bind_eq_ok.mp moved with ⟨other, read, moved⟩
  cases stored.symm.trans (getElem?_of_part read)
  rcases bind_eq_ok.mp moved with ⟨outcome, first, moved⟩
  rcases bind_eq_ok.mp moved with ⟨condition, known, same⟩
  cases same
  have leads : ∀ target ∈ graph.targetsOf outcome.condition, graph.EofLeads id target := by
    intro target aims
    exact eofLeads_iff.mpr
      ⟨state, number, transition, declared, found, stored, outcome, mem_of_part first, aims⟩
  rw [targetsOf_eq (getElem?_of_part known)] at leads
  exact ⟨leads _ (by simp), condition.actions, rfl, fun target aims =>
    leads target (List.mem_cons_of_mem _ aims)⟩

end Graph

/-! ## Hops

Where actions lead a scan, as far as it matters here. -/

structure Spot where
  state : Nat
  frames : List Frame
  position : Int

namespace Spot

/-- What actions that hold back nothing do, if they jump to allowed states only. -/
inductive Hops (allowed : Nat → Prop) : Spot → Control → Spot → Prop
  | stay (spot : Spot) : Hops allowed spot .next spot
  | next {spot last : Spot} {control : Control} {target : Nat} : allowed target →
      Hops allowed { spot with state := target } control last → Hops allowed spot control last
  | goto {spot : Spot} {target : Nat} : allowed target →
      Hops allowed spot .again { spot with state := target }
  | call {spot : Spot} {target : Nat} : allowed target →
      Hops allowed spot .again
        { spot with state := target, frames := ⟨spot.state, 0, 0⟩ :: spot.frames }
  | ret {spot : Spot} {frame : Frame} {frames : List Frame} : spot.frames = frame :: frames →
      Hops allowed spot .again { spot with state := frame.state.toNat, frames := frames }
  | stop (spot : Spot) : Hops allowed spot .stop { spot with position := spot.position + 1 }

variable {allowed : Nat → Prop} {spot last : Spot} {control : Control}

theorem Hops.position_eq (hops : Hops allowed spot control last) (goesOn : control ≠ .stop) :
    last.position = spot.position := by
  induction hops with
  | stay => rfl
  | next _ _ induction => exact induction goesOn
  | goto => rfl
  | call => rfl
  | ret => rfl
  | stop => exact absurd rfl goesOn

theorem Hops.position_le (hops : Hops allowed spot control last) :
    spot.position ≤ last.position := by
  induction hops with
  | stay => exact Int.le_refl _
  | next _ _ induction => exact induction
  | goto => exact Int.le_refl _
  | call => exact Int.le_refl _
  | ret => exact Int.le_refl _
  | stop => exact Int.le_add_of_nonneg_right (by decide)

/-! ### Weights -/

def burden (rank : Nat → Nat) : List Frame → Nat
  | [] => 0
  | frame :: frames => 3 ^ rank frame.state.toNat + burden rank frames

def load (rank : Nat → Nat) (spot : Spot) : Nat :=
  3 ^ rank spot.state + burden rank spot.frames

@[simp]
theorem burden_cons (rank : Nat → Nat) (frame : Frame) (frames : List Frame) :
    burden rank (frame :: frames) = 3 ^ rank frame.state.toNat + burden rank frames :=
  rfl

theorem pow_add_pow_lt {first second bound : Nat} (less : first < bound) (lesser : second < bound) :
    3 ^ first + 3 ^ second < 3 ^ bound := by
  cases bound with
  | zero => omega
  | succ bound =>
      have firstBound : 3 ^ first ≤ 3 ^ bound := Nat.pow_le_pow_right (by decide) (by omega)
      have secondBound : 3 ^ second ≤ 3 ^ bound := Nat.pow_le_pow_right (by decide) (by omega)
      have positive : 0 < 3 ^ bound := Nat.pow_pos (by decide)
      rw [Nat.pow_succ]
      omega

/-- Hops between states below a rank weigh less than a state of that rank. -/
theorem Hops.load_lt {rank : Nat → Nat} {bound : Nat} (below : ∀ target, allowed target →
    rank target < bound) (hops : Hops allowed spot control last)
    (starts : rank spot.state < bound) :
    load rank last < 3 ^ bound + burden rank spot.frames := by
  have lighter : ∀ state, rank state < bound → 3 ^ rank state < 3 ^ bound :=
    fun _ less => Nat.pow_lt_pow_right (by decide) less
  induction hops with
  | stay spot => exact Nat.add_lt_add_right (lighter _ starts) _
  | next isAllowed _ induction => exact induction (below _ isAllowed)
  | goto isAllowed => exact Nat.add_lt_add_right (lighter _ (below _ isAllowed)) _
  | @call spot target isAllowed =>
      have both := pow_add_pow_lt (below target isAllowed) starts
      simp only [load, burden_cons, Int.toNat_natCast]
      omega
  | ret holds =>
      have positive : 0 < 3 ^ bound := Nat.pow_pos (by decide)
      simp only [load, holds, burden_cons]
      omega
  | stop spot => exact Nat.add_lt_add_right (lighter _ starts) _

/-- Hops to allowed states end in one of them, below a frame that was there, or nowhere else. -/
theorem Hops.settles (rank : Nat → Nat) (hops : Hops allowed spot control last) :
    allowed last.state ∨ load rank last ≤ burden rank spot.frames ∨
      last.state = spot.state ∧ last.frames = spot.frames := by
  induction hops with
  | stay spot => exact .inr (.inr ⟨rfl, rfl⟩)
  | next isAllowed _ induction =>
      rcases induction with ends | lighter | ⟨same, _⟩
      · exact .inl ends
      · exact .inr (.inl lighter)
      · exact .inl (same ▸ isAllowed)
  | goto isAllowed => exact .inl isAllowed
  | call isAllowed => exact .inl isAllowed
  | ret holds =>
      refine .inr (.inl ?_)
      rw [holds, burden_cons]
      exact Nat.le_refl _
  | stop spot => exact .inr (.inr ⟨rfl, rfl⟩)

theorem Hops.load_le (rank : Nat → Nat) (hops : Hops allowed spot control last) :
    allowed last.state ∨ load rank last ≤ load rank spot := by
  rcases hops.settles rank with ends | lighter | ⟨state, frames⟩
  · exact .inl ends
  · exact .inr (Nat.le_trans lighter (Nat.le_add_left _ _))
  · refine .inr (Nat.le_of_eq ?_)
    simp only [load, state, frames]

end Spot

/-! ## Steps that come to an end -/

structure Scan.At {World : Type} (size : Int) (spot : Spot) (scan : Scan World) : Prop where
  size : scan.size = size
  lone : scan.alternates.frames = []
  spot : (⟨scan.state, scan.calls.frames, scan.position⟩ : Spot) = spot

theorem Scan.unaware_at {World : Type} (size : Int) (spot : Spot) :
    Scan.Unaware fun scan : Scan World => scan.At size spot :=
  fun _ _ _ _ isAt => { isAt with }

/-- A step that comes to an end, wherever that is. -/
abbrev Step.Finishes {World α : Type} (before : Scan World → Prop) (step : Step World α)
    (after : α → Scan World → Prop) : Prop :=
  Meets (fun _ => True) (fun fault => fault ≠ .outOfFuel) before step after

namespace Machine

variable {World : Type} {machine : Machine World} {graph : Graph}

/-- The machine executes a graph that neither holds back keys nor has alternates, with callbacks
that come to an end. -/
structure Flows (machine : Machine World) (graph : Graph) : Prop extends
    machine.Carries graph where
  unheld : ∀ action ∈ graph.actions, action.kind ≠ .hold
  lone : graph.hasAlternates = false
  returns : ¬machine.Raised (fun _ => True) .outOfFuel

theorem ne_outOfFuel_of_isTable {fault : Fault} (isTable : fault.isTable = true) :
    fault ≠ .outOfFuel := by
  rintro rfl
  cases isTable

theorem TableOnly.finishes {α : Type} {answer : Except Fault α} (only : TableOnly answer)
    (fault : Fault) (missing : answer = .error fault) : fault ≠ .outOfFuel :=
  ne_outOfFuel_of_isTable (only fault missing)

theorem tableOnly_targetOf (action : Action) : TableOnly (targetOf action) := by
  intro fault missing
  unfold targetOf at missing
  split at missing
  next => cases missing
  next => cases missing; rfl

theorem tableOnly_actionsAt (location : Nat) : TableOnly (graph.actionsAt location) := by
  intro fault missing
  unfold Graph.actionsAt at missing
  split at missing
  next => cases missing
  next =>
    split at missing
    next => cases missing
    next => cases missing; rfl

def Landed (size : Int) (allowed : Nat → Prop) (spot : Spot) (control : Control)
    (scan : Scan World) : Prop :=
  ∃ last, spot.Hops allowed control last ∧ scan.At size last

section Actions

variable {allowed : Nat → Prop} {size : Int} {spot : Spot} {action : Action}

theorem finishes_enter (target : Nat) :
    Step.Finishes (fun scan : Scan World => scan.At size spot)
      (modify fun scan => { scan with state := target }) fun _ =>
        Scan.At size { spot with state := target } :=
  .modify fun _ isAt => ⟨isAt.size, isAt.lone, by rw [← isAt.spot]⟩

theorem allowed_of_targetOf (aims : ∀ target, action.target = some target → allowed target)
    {target : Nat} (found : targetOf action = .ok target) : allowed target := by
  unfold targetOf at found
  split at found
  next isTarget =>
    cases found
    exact aims target isTarget
  next => cases found

theorem finishes_runCall (aims : ∀ target, action.target = some target → allowed target) :
    Step.Finishes (fun scan : Scan World => scan.At size spot) (runCall action) fun _ =>
      Landed size allowed spot .again := by
  unfold runCall
  apply Meets.getBind
  intro scan isAt
  cases pushed : scan.calls.push? ⟨scan.state, 0, 0⟩ with
  | none => exact .throw fun _ _ => trivial
  | some calls =>
      refine .question (fun target found => .set ?_) (tableOnly_targetOf _).finishes
      refine ⟨_, .call (allowed_of_targetOf aims found), isAt.size, isAt.lone, ?_⟩
      unfold FrameStack.push? at pushed
      split at pushed
      next => cases pushed
      next =>
        cases pushed
        rw [← isAt.spot]

theorem finishes_runReturn :
    Step.Finishes (fun scan : Scan World => scan.At size spot) (runReturn action) fun _ =>
      Landed size allowed spot .again := by
  unfold runReturn
  apply Meets.getBind
  intro scan isAt
  unfold FrameStack.pop?
  cases holds : scan.calls.frames with
  | nil => exact .throw fun _ _ => trivial
  | cons frame frames =>
      refine .set ⟨_, .ret (by rw [← isAt.spot]; exact holds), isAt.size, isAt.lone, ?_⟩
      rw [← isAt.spot]

end Actions

section Flows

variable (flows : machine.Flows graph) {size : Int} {spot : Spot}
include flows

theorem Flows.allows : machine.Allows fun fault => fault ≠ .outOfFuel where
  tables _ := ne_outOfFuel_of_isTable
  raised _ raised same := flows.returns (same ▸ raised)

theorem finishes_runActions {allowed : Nat → Prop} {actions : List Nat}
    (aims : ∀ target ∈ graph.jumps actions, allowed target) :
    Step.Finishes (Scan.At size spot) (machine.runActions actions) (Landed size allowed spot) := by
  induction actions generalizing spot with
  | nil => exact .pure fun scan isAt => ⟨spot, .stay spot, isAt⟩
  | cons number rest induction =>
      unfold runActions
      refine .question (fun action read => ?_) (tableOnly_part _ _ _).finishes
      rw [flows.program] at read
      rw [Graph.jumps_cons (Graph.getElem?_of_part read)] at aims
      have later : ∀ spot, Step.Finishes (Scan.At size spot) (machine.runActions rest)
          (Landed size allowed spot) :=
        fun spot => induction fun target aimed => aims target (List.mem_append_right _ aimed)
      have aims : ∀ target, action.target = some target → allowed target :=
        fun target isTarget => aims target (List.mem_append_left _ (by simp [isTarget]))
      have unaware : Scan.Unaware fun scan : Scan World => scan.At size spot :=
        Scan.unaware_at size spot
      apply Meets.getBind
      intro scan _
      apply (meets_record unaware .action scan.state number).bind
      intro _
      cases kind : action.kind with
      | hook => exact (meets_runHook unaware flows.allows number).bind fun _ => later spot
      | hold => exact absurd kind (flows.unheld action (Graph.mem_of_part read))
      | next =>
          refine .question (fun target found => ?_) (tableOnly_targetOf _).finishes
          refine (finishes_enter target).bind fun _ => (later _).weaken ?_
          rintro control scan ⟨last, hops, isAt⟩
          exact ⟨last, .next (allowed_of_targetOf aims found) hops, isAt⟩
      | goto =>
          refine .question (fun target found => ?_) (tableOnly_targetOf _).finishes
          refine (finishes_enter target).bind fun _ => .pure fun scan isAt => ?_
          exact ⟨_, .goto (allowed_of_targetOf aims found), isAt⟩
      | call => exact (finishes_runCall aims).bind fun _ => .pure fun _ => id
      | ret => exact finishes_runReturn.bind fun _ => .pure fun _ => id
      | stop =>
          refine .bind (.modify fun scan isAt => ?_) fun _ => .pure fun _ => id
          exact ⟨_, .stop spot, isAt.size, isAt.lone, by rw [← isAt.spot]⟩

theorem finishes_runList (location : Nat) :
    Step.Finishes (Scan.At size spot) (machine.runList location)
      (Landed size (fun _ => True) spot) := by
  unfold runList
  split
  next => exact .pure fun scan isAt => ⟨spot, .stay spot, isAt⟩
  next =>
    rw [flows.program]
    refine .question (fun actions _ => ?_) (tableOnly_actionsAt _).finishes
    exact finishes_runActions flows fun _ _ => trivial

/-! ## Keys -/

def Stayed (size position : Int) (control : Control) (scan : Scan World) : Prop :=
  ∃ spot, scan.At size spot ∧ (control ≠ .stop → spot.position = position)

omit flows in
theorem Landed.stayed {allowed : Nat → Prop} {control : Control} {scan : Scan World}
    (landed : Landed size allowed spot control scan) : Stayed size spot.position control scan := by
  rcases landed with ⟨last, hops, isAt⟩
  exact ⟨last, isAt, hops.position_eq⟩

theorem finishes_choose (number : Nat) :
    Step.Finishes (Scan.At size spot) (machine.choose number) fun _ => Scan.At size spot := by
  unfold choose
  rw [flows.program]
  refine .question (fun space? _ => ?_) ((tableOnly_part _ _ _).map _).finishes
  cases space? with
  | none => exact .ask (fun _ _ _ => id) (tableOnly_plainMove number).finishes
  | some space =>
      apply (meets_conditionValue (Scan.unaware_at size spot) flows.allows space).bind
      intro value
      exact .ask (fun _ _ _ => id) (tableOnly_guardedMove number value).finishes

theorem finishes_take (number : Nat) :
    Step.Finishes (Scan.At size spot) (machine.take number) (Stayed size spot.position) := by
  apply (finishes_choose flows number).bind
  intro move
  apply (finishes_enter move.target).bind
  intro _
  apply (meets_record (Scan.unaware_at _ _) .transition move.target move.actions).bind
  intro _
  exact (finishes_runList flows move.actions).weaken fun _ _ landed => landed.stayed

theorem finishes_resume :
    Step.Finishes (Scan.At size spot) machine.resume (Stayed size spot.position) := by
  unfold resume
  apply Meets.getBind
  intro before _
  rw [flows.program]
  refine .question (fun location _ => ?_) ((tableOnly_part _ _ _).map _).finishes
  apply (finishes_runList flows location).bind
  intro control
  split
  next => exact .pure fun scan landed => landed.stayed
  next goesOn =>
    have goesOn : control = .next := by simpa using goesOn
    rintro scan landed
    rcases landed.stayed with ⟨middle, isAt, stays⟩
    rw [← stays (by simp [goesOn])]
    refine Meets.getBind (fun scan _ => ?_) scan isAt
    refine .question (fun key _ => ?_) fun fault missing => ?_
    · refine .question (fun number _ => ?_) (tableOnly_locate _ _).finishes
      exact finishes_take flows number
    · unfold View.key at missing
      split at missing
      next => cases missing
      next =>
        cases missing
        rintro ⟨⟩

theorem finishes_again {allowed : Nat → Prop} (aims : graph.ToStateAims allowed) :
    Step.Finishes (Scan.At size spot) machine.again fun control scan =>
      ∃ inner, (control ≠ .stop → inner ≠ .stop) ∧ Landed size allowed spot inner scan := by
  unfold again
  apply Meets.getBind
  intro before _
  rw [flows.program]
  refine .question (fun location asked => ?_) ((tableOnly_part _ _ _).map _).finishes
  rcases exists_of_map_part asked with ⟨state, member, rfl⟩
  rw [flows.toCarries.runList_location]
  apply (finishes_runActions flows (aims state member)).bind
  intro control
  cases control with
  | stop => exact .pure fun scan landed => ⟨_, id, landed⟩
  | next => exact .pure fun scan landed => ⟨_, id, landed⟩
  | again => exact .pure fun scan landed => ⟨_, fun _ => by decide, landed⟩

/-! ## End of input -/

theorem finishes_runEofActions :
    Step.Finishes (Scan.At size spot) machine.runEofActions fun _ scan =>
      ∃ last, scan.At size last := by
  have unaware : Scan.Unaware fun scan : Scan World => scan.At size spot :=
    Scan.unaware_at size spot
  unfold runEofActions
  apply Meets.getBind
  intro before _
  rw [flows.program]
  refine .question (fun location _ => ?_) ((tableOnly_part _ _ _).map _).finishes
  split
  next => exact .pure fun scan isAt => ⟨spot, isAt⟩
  next =>
    have guarded : Step.Finishes (Scan.At size spot) machine.eofGuardHolds fun _ =>
        Scan.At size spot := by
      unfold eofGuardHolds
      apply Meets.getBind
      intro scan _
      rw [flows.program]
      refine .question (fun guard? _ => ?_) ((tableOnly_part _ _ _).map _).finishes
      cases guard? with
      | none => exact .pure fun _ => id
      | some guard =>
          apply (meets_conditionValue unaware flows.allows guard.1).bind
          exact fun _ => .pure fun _ => id
    apply guarded.bind
    intro holds
    cases holds with
    | false => exact .pure fun scan isAt => ⟨spot, isAt⟩
    | true =>
        apply (finishes_runList flows location).discard
        rintro control scan ⟨last, _, isAt⟩
        exact ⟨last, isAt⟩

theorem finishes_leaveEof :
    Step.Finishes (Scan.At size spot)
      (Step.ensuring machine.runEofActions fun scan => { scan with position := scan.size })
      fun _ scan => ∃ last, scan.At size last ∧ last.position = size := by
  refine Meets.ensuring (finishes_runEofActions flows) ?_ fun _ _ => trivial
  rintro _ scan ⟨last, isAt⟩
  exact ⟨{ last with position := size }, ⟨isAt.size, isAt.lone, by rw [← isAt.spot, ← isAt.size]⟩,
    rfl⟩

omit flows in
theorem clampPosition_at {scan : Scan World} (isAt : scan.At size spot)
    (behind : size ≤ spot.position) (positive : 0 ≤ size) :
    (clampPosition scan).At size { spot with position := size } := by
  rcases isAt with ⟨rfl, lone, rfl⟩
  unfold clampPosition
  split
  next negative =>
    dsimp only at behind
    omega
  next =>
    split
    next => exact ⟨rfl, lone, rfl⟩
    next within =>
      have same : scan.position = scan.size := Int.le_antisymm (Int.not_lt.mp within) behind
      exact ⟨rfl, lone, by rw [same]⟩

theorem finishes_takeEof {id : Nat} {state : State} (declared : graph.states[id]? = some state)
    {number : Nat} (found : state.eofTransition = some number) {transition : Transition}
    (stored : graph.transitions[number]? = some transition) (unguarded : transition.space = none) :
    Step.Finishes (Scan.At size spot) (machine.take number) fun control scan =>
      ∃ target, graph.EofLeads id target ∧
        Landed size (graph.EofLeads id) { spot with state := target } control scan := by
  have chosen : Step.Finishes (Scan.At size spot) (machine.choose number) fun move scan =>
      graph.EofMove id move ∧ scan.At size spot := by
    unfold choose
    rw [flows.program]
    refine .askBind ((Graph.map_part_eq_ok "transitions" Transition.space stored).trans
      (by rw [unguarded])) ?_
    refine .ask (fun move moved scan isAt => ?_) (tableOnly_plainMove number).finishes
    exact ⟨Graph.eofMove_of_plainMove declared found stored moved, isAt⟩
  apply chosen.bind
  intro move
  apply Meets.given
  rintro ⟨leads, list, place, aims⟩
  apply (finishes_enter move.target).bind
  intro _
  apply (meets_record (Scan.unaware_at _ _) .transition move.target move.actions).bind
  intro _
  rw [place, flows.toCarries.runList_location]
  exact (finishes_runActions flows aims).weaken fun _ _ landed => ⟨move.target, leads, landed⟩

theorem finishes_againEof (aims : graph.ToStateAims graph.Still) (rank : Nat → Nat)
    (behind : size ≤ spot.position) (positive : 0 ≤ size) :
    Step.Finishes (Scan.At size spot) (discard (Step.ensuring machine.again clampPosition))
      fun _ scan => ∃ last, scan.At size last ∧ last.position = size ∧
        (graph.Still last.state ∨ last.load rank ≤ spot.load rank) := by
  have clamped : Step.Finishes (Scan.At size spot) (Step.ensuring machine.again clampPosition)
      fun _ scan => ∃ last, scan.At size last ∧ last.position = size ∧
        (graph.Still last.state ∨ last.load rank ≤ spot.load rank) := by
    refine Meets.ensuring (finishes_again flows aims) ?_ fun _ _ => trivial
    rintro _ scan ⟨inner, _, last, hops, isAt⟩
    have ahead := hops.position_le
    exact ⟨{ last with position := size }, clampPosition_at isAt (by omega) positive, rfl,
      hops.load_le rank⟩
  exact clamped.discard fun _ _ => id

/-- The state behind an end-of-input transition is still, or less is left to return to. -/
theorem finishes_endInput (plain : graph.PlainEof) (aims : graph.ToStateAims graph.Still)
    {rank : Nat → Nat} (falls : ∀ state next, graph.EofLeads state next → rank next < rank state)
    (ends : spot.position = size) (positive : 0 ≤ size) :
    Step.Finishes (Scan.At size spot) machine.endInput fun taken scan => ∃ last,
      scan.At size last ∧ last.position = size ∧ (taken = true →
        ¬graph.Still spot.state ∧ (graph.Still last.state ∨ last.load rank < spot.load rank)) := by
  unfold endInput
  apply Meets.getBind
  intro before isAt
  have here : before.state = spot.state := by rw [← isAt.spot]
  rw [here, flows.program]
  apply (meets_record (Scan.unaware_at _ _) .eof spot.state 0).bind
  intro _
  refine .question (fun transition? asked => ?_) ((tableOnly_part _ _ _).map _).finishes
  rcases map_eq_ok.mp asked with ⟨state, read, found⟩
  have declared : graph.states[spot.state]? = some state := Graph.getElem?_of_part read
  cases transition? with
  | none =>
      apply (finishes_leaveEof flows).bind
      intro _
      refine .pure fun scan => ?_
      rintro ⟨last, isAt, position⟩
      exact ⟨last, isAt, position, fun impossible => by cases impossible⟩
  | some number =>
      have moves : ¬graph.Still spot.state := by simp [Graph.Still, declared, found]
      rcases plain state (Array.mem_of_getElem? declared) number found with
        ⟨transition, stored, unguarded⟩
      have taken : Step.Finishes (Scan.At size spot) (discard (machine.take number)) fun _ scan =>
          ∃ last, scan.At size last ∧ size ≤ last.position ∧ last.load rank < spot.load rank := by
        apply (finishes_takeEof flows declared found stored unguarded).discard
        rintro control scan ⟨target, leads, last, hops, isAt⟩
        have ahead := hops.position_le
        have lighter := hops.load_lt (falls spot.state) (falls spot.state target leads)
        exact ⟨last, isAt, ends ▸ ahead, lighter⟩
      apply taken.bind
      rintro _ middle ⟨last, isAt, behind, lighter⟩
      refine Meets.bind (finishes_againEof flows aims rank behind positive) (fun _ => ?_)
        middle isAt
      refine .pure fun scan => ?_
      rintro ⟨final, isAt, position, rests⟩
      exact ⟨final, isAt, position, fun _ =>
        ⟨moves, rests.imp_right fun notMore => Nat.lt_of_le_of_lt notMore lighter⟩⟩

end Flows

end Machine

end StateTables
