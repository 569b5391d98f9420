import StateTables.Proofs.Drift

/-! # Where a scan stands in its chunk

If a graph is steady, then every round begins within the chunk: a transition consumes a key
before actions hold one back, the end of input brings the position back into the chunk, and
entering an alternate puts it back to where the alternate was pushed. Otherwise it need not.
-/

namespace StateTables

open Step (Meets)

namespace Machine

variable {World : Type} {machine : Machine World} {graph : Graph}

section Poised

variable (poised : machine.Poised graph) {origin : Scan World}
include poised

/-! ## Transitions -/

def Leaving (graph : Graph) (move : Move) : Prop :=
  ∃ list, move.actions = graph.location list ∧ graph.Spares (graph.holds list)

theorem leaving_of_moveOf {condition : Nat} {move : Move}
    (moved : graph.moveOf condition = .ok move) : Leaving graph move := by
  rcases bind_eq_ok.mp moved with ⟨target, read, same⟩
  cases same
  exact ⟨target.actions, rfl, poised.steady.spares_condition (Graph.mem_of_part read)⟩

omit poised in
theorem tableOnly_moveOf (condition : Nat) : TableOnly (graph.moveOf condition) :=
  (tableOnly_part _ _ _).bind fun _ => .ok _

theorem leaving_of_plainMove {number : Nat} {move : Move}
    (moved : graph.program.plainMove number = .ok move) : Leaving graph move := by
  rcases bind_eq_ok.mp moved with ⟨transition, _, moved⟩
  rcases bind_eq_ok.mp moved with ⟨outcome, _, moved⟩
  exact leaving_of_moveOf poised moved

theorem leaving_of_guardedMove {number : Nat} {value : ConditionValue} {move : Move}
    (moved : graph.program.guardedMove number value = .ok move) : Leaving graph move := by
  rcases bind_eq_ok.mp moved with ⟨transition, _, moved⟩
  split at moved
  next => exact leaving_of_moveOf poised moved
  next =>
    cases moved
    exact ⟨none, rfl, poised.steady.spares_zero⟩

omit poised in
theorem tableOnly_plainMove (number : Nat) : TableOnly (graph.program.plainMove number) :=
  (tableOnly_part _ _ _).bind fun _ => (tableOnly_part _ _ _).bind fun _ => tableOnly_moveOf _

omit poised in
theorem tableOnly_guardedMove (number : Nat) (value : ConditionValue) :
    TableOnly (graph.program.guardedMove number value) := by
  refine (tableOnly_part _ _ _).bind fun transition => ?_
  split
  next => exact tableOnly_moveOf _
  next => exact .ok _

theorem meets_choose {property failed : Scan World → Prop} (blind : Scan.Blind property)
    (number : Nat) :
    Meets failed machine.Reads property (machine.choose number) fun move scan =>
      Leaving graph move ∧ property scan := by
  unfold choose
  rw [poised.program]
  refine .question (fun space? _ => ?_) fun fault missing =>
    reads_of_isTable ((tableOnly_part _ _ _).map _ fault missing)
  cases space? with
  | none =>
      refine .ask (fun move moved scan holds => ?_) fun fault missing =>
        reads_of_isTable (tableOnly_plainMove number fault missing)
      exact ⟨leaving_of_plainMove poised moved, holds⟩
  | some space =>
      apply (meets_conditionValue blind.unaware allows_reads space).bind
      intro value
      refine .ask (fun move moved scan holds => ?_) fun fault missing =>
        reads_of_isTable (tableOnly_guardedMove number value fault missing)
      exact ⟨leaving_of_guardedMove poised moved, holds⟩

def Underway (graph : Graph) (origin : Scan World) (control : Control) (scan : Scan World) : Prop :=
  ∃ held, graph.Spares held ∧ origin.Drifts held (if control = .stop then 1 else 0) scan

theorem meets_take (stacked : graph.Stacked origin) (number : Nat) :
    Meets graph.Stacked machine.Reads (origin.Drifts 0 0) (machine.take number)
      (Underway graph origin) := by
  apply (meets_choose poised (Scan.blind_drifts origin 0 0) number).bind
  intro move
  apply Meets.given
  rintro ⟨list, place, spares⟩
  rw [place]
  apply (meets_enter (Scan.blind_drifts origin 0 0) move.target).bind
  intro _
  apply (meets_record (Scan.blind_drifts origin 0 0).unaware .transition move.target _).bind
  intro _
  apply (meets_runList poised stacked.strays list fun _ => rfl).weaken
  intro control scan moved
  have drifts := moved.drifts
  rw [Nat.zero_add] at drifts
  exact ⟨graph.holds list, spares, drifts⟩

omit poised in
theorem tableOnly_locate (state : Nat) (key : Key) :
    TableOnly (graph.program.locate state key) := by
  dsimp only [Graph.program]
  split
  next => exact .ok _
  next =>
    intro fault missing
    cases missing
    rfl

omit poised in
theorem exists_key {scan : Scan World} (low : 0 ≤ scan.position)
    (high : scan.position < scan.size) : ∃ key, scan.view.key = .ok key := by
  rcases Int.eq_ofNat_of_zero_le low with ⟨index, same⟩
  have inside : index < scan.chunk.size := by
    unfold Scan.size at high
    omega
  refine ⟨scan.chunk[index], ?_⟩
  have here : scan.view.position = .ofNat index := same
  have found : scan.view.key? = some scan.chunk[index] := by
    rw [View.key?, here]
    exact Array.getElem?_eq_getElem inside
  rw [View.key, found]

theorem meets_resume (level : graph.Level origin) (inside : origin.position ≠ origin.size) :
    Meets graph.Stacked machine.Reads (origin.Drifts 0 0) machine.resume
      (Underway graph origin) := by
  unfold resume
  apply Meets.getBind
  intro before _
  rw [poised.program]
  refine .question (fun location asked => ?_) fun fault missing =>
    reads_of_isTable ((tableOnly_part _ _ _).map _ fault missing)
  rcases exists_of_map_part asked with ⟨state, member, rfl⟩
  apply (meets_runList poised level.toStacked.strays state.fromState fun _ => rfl).bind
  intro control
  have unheld := poised.fromState state member
  unfold Graph.holds at unheld
  split
  next =>
    refine .pure fun scan moved => ⟨0, poised.steady.spares_zero, ?_⟩
    have drifts := moved.drifts
    rwa [unheld] at drifts
  next goesOn =>
    have goesOn : control = .next := by simpa using goesOn
    subst goesOn
    have reads : Meets graph.Stacked machine.Reads (origin.Drifts 0 0) (do
        let scan ← get
        let key ← Step.ask scan.view.key
        machine.take (← Step.ask (graph.program.locate scan.state key)))
        (Underway graph origin) := by
      apply Meets.getBind
      intro scan drifts
      rcases exists_key (level_of_drifts level drifts).low (drifts.lt_size level.high inside) with
        ⟨key, read⟩
      apply Meets.askBind read
      exact .question (fun number _ => meets_take poised level.toStacked number)
        fun fault missing => reads_of_isTable (tableOnly_locate _ _ fault missing)
    apply reads.strengthen
    intro scan moved
    have drifts := moved.drifts
    rwa [unheld] at drifts

def Arrived (graph : Graph) (origin : Scan World) (control : Control) (scan : Scan World) : Prop :=
  ∃ held ≤ 1, (graph.hasAlternates = true → held = 0) ∧
    origin.Drifts held (if control = .stop then 1 else 0) scan

section Arrived

variable {control : Control} {scan : Scan World}

omit poised

theorem stacked_of_underway (stacked : graph.Stacked origin)
    (underway : Underway graph origin control scan) : graph.Stacked scan := by
  rcases underway with ⟨held, ⟨unheld, _⟩, drifts⟩
  exact stacked.drift drifts unheld

theorem stacked_of_arrived (stacked : graph.Stacked origin)
    (arrived : Arrived graph origin control scan) : graph.Stacked scan := by
  rcases arrived with ⟨held, _, unheld, drifts⟩
  exact stacked.drift drifts unheld

theorem ending_of_arrived (level : graph.Level origin) (goesOn : ¬control = .stop)
    (arrived : Arrived graph origin control scan) : graph.Ending scan := by
  refine ⟨stacked_of_arrived level.toStacked arrived, ?_⟩
  rcases arrived with ⟨held, _, _, drifts⟩
  rw [if_neg goesOn] at drifts
  have high := drifts.high
  have before := level.high
  rw [drifts.size]
  omega

/-- Behind the key the scan is within the chunk, whether the key is held back or not. -/
theorem level_advance (level : graph.Level origin) (inside : origin.position ≠ origin.size)
    (goesOn : ¬control = .stop) (arrived : Arrived graph origin control scan) :
    graph.Level { scan with position := scan.position + 1 } := by
  rcases arrived with ⟨held, once, unheld, drifts⟩
  rw [if_neg goesOn] at drifts
  have low := drifts.low
  have before := level.low
  have behind := drifts.lt_size level.high inside
  refine ⟨level.place drifts fun pending => ?_, ?_, behind⟩
  · have clear := unheld pending
    omega
  · dsimp only
    omega

end Arrived

theorem meets_again {failed : Scan World → Prop} (strays : graph.Strays origin failed) {held : Nat}
    (spares : graph.Spares held) :
    Meets failed machine.Reads (origin.Drifts held 0) machine.again (Arrived graph origin) := by
  rcases spares with ⟨unheld, spares⟩
  unfold again
  apply Meets.getBind
  intro before _
  rw [poised.program]
  refine .question (fun location asked => ?_) fun fault missing =>
    reads_of_isTable ((tableOnly_part _ _ _).map _ fault missing)
  rcases exists_of_map_part asked with ⟨state, member, rfl⟩
  apply (meets_runList poised strays state.toState unheld).bind
  intro control
  have arrives : ∀ scan, graph.Moved origin held (graph.actionsOf state.toState) control scan →
      Arrived graph origin control scan := by
    intro scan moved
    refine ⟨_, spares state member, fun pending => ?_, moved.drifts⟩
    rw [unheld pending, Nat.zero_add]
    exact poised.steady.holds_eq_zero pending state.toState
  cases control with
  | stop => exact .pure arrives
  | next => exact .pure arrives
  | again => exact .pure arrives

/-! ## End of input -/

omit poised in
theorem level_clampPosition (stacked : graph.Stacked origin) (ends : origin.position = origin.size)
    {held forth : Nat} (unheld : graph.hasAlternates = true → held = 0) {scan : Scan World}
    (drifts : origin.Drifts held forth scan) : graph.Level (clampPosition scan) := by
  have low := drifts.low
  have size := drifts.size
  have positive : 0 ≤ scan.size := Int.natCast_nonneg _
  unfold clampPosition
  split
  next =>
    refine ⟨stacked.place drifts fun pending => ?_, Int.le_refl _, positive⟩
    have clear := unheld pending
    omega
  next =>
    split
    next => exact ⟨stacked.place drifts fun _ => by omega, positive, Int.le_refl _⟩
    next => exact ⟨stacked.drift drifts unheld, by omega, by omega⟩

theorem meets_eofGuardHolds {property failed : Scan World → Prop} (blind : Scan.Blind property) :
    Meets failed machine.Reads property machine.eofGuardHolds fun _ => property := by
  unfold eofGuardHolds
  apply Meets.getBind
  intro scan _
  rw [poised.program]
  refine .question (fun guard? _ => ?_) fun fault missing =>
    reads_of_isTable ((tableOnly_part _ _ _).map _ fault missing)
  cases guard? with
  | none => exact .pure fun _ => id
  | some guard =>
      apply (meets_conditionValue blind.unaware allows_reads guard.1).bind
      exact fun _ => .pure fun _ => id

def Displaced (origin scan : Scan World) : Prop :=
  ∃ back forth, origin.Drifts back forth scan

theorem meets_runEofActions :
    Meets (Displaced origin) machine.Reads (origin.Drifts 0 0) machine.runEofActions
      fun _ => Displaced origin := by
  unfold runEofActions
  apply Meets.getBind
  intro before _
  rw [poised.program]
  refine .question (fun location asked => ?_) fun fault missing =>
    reads_of_isTable ((tableOnly_part _ _ _).map _ fault missing)
  rcases exists_of_map_part asked with ⟨state, member, rfl⟩
  split
  next => exact .pure fun scan drifts => ⟨0, 0, drifts⟩
  next =>
    apply (meets_eofGuardHolds poised (Scan.blind_drifts origin 0 0)).bind
    intro holds
    cases holds with
    | false => exact .pure fun scan drifts => ⟨0, 0, drifts⟩
    | true =>
        rw [poised.toCarries.runList_location]
        apply ((meets_runActions poised _ 0).failing fun scan drifts => ⟨_, _, drifts⟩).discard
        exact fun control scan moved => ⟨_, _, moved.drifts⟩

def Nudged (graph : Graph) (origin scan : Scan World) : Prop :=
  ∃ back forth, (graph.hasAlternates = true → back = 0) ∧ origin.Drifts back forth scan

theorem meets_againClamped (stacked : graph.Stacked origin) (ends : origin.position = origin.size) :
    Meets graph.Stacked machine.Reads (Nudged graph origin)
      (discard (Step.ensuring machine.again clampPosition)) fun _ => graph.Level := by
  rintro scan ⟨back, forth, unheld, drifts⟩
  have clamped : ∀ held ahead last, (graph.hasAlternates = true → held = 0) →
      scan.Drifts held ahead last → graph.Level (clampPosition last) := by
    intro held ahead last empty further
    refine level_clampPosition stacked ends (fun pending => ?_) (drifts.trans further)
    rw [unheld pending, empty pending]
  have meets := meets_again poised (fun held last empty further =>
    (clamped held 0 last empty further).toStacked) poised.steady.spares_zero
  have ensured := meets.ensuring (fun _ last arrived => by
    rcases arrived with ⟨held, _, empty, further⟩
    exact clamped held _ last empty further) fun _ isStacked => isStacked
  exact ensured.discard (fun _ _ => id) scan (.refl scan)

/-- What follows the end of input is within the chunk if a transition was taken, and at its end if
not. -/
theorem meets_endInput (stacked : graph.Stacked origin) (ends : origin.position = origin.size) :
    Meets graph.Stacked machine.Reads (origin.Drifts 0 0) machine.endInput fun taken scan =>
      if taken then graph.Level scan else graph.Ending scan := by
  unfold endInput
  apply Meets.getBind
  intro before _
  apply (meets_record (Scan.blind_drifts origin 0 0).unaware .eof before.state 0).bind
  intro _
  rw [poised.program]
  refine .question (fun transition? _ => ?_) fun fault missing =>
    reads_of_isTable ((tableOnly_part _ _ _).map _ fault missing)
  cases transition? with
  | none =>
      have placed : ∀ scan, Displaced origin scan →
          graph.Ending { scan with position := scan.size } := by
        rintro scan ⟨_, _, drifts⟩
        have ahead := Int.le_of_eq (ends.trans drifts.size.symm)
        exact ⟨stacked.place drifts fun _ => ahead, Int.le_refl _⟩
      have ensured := (meets_runEofActions poised).ensuring (fun _ => placed)
        fun scan displaced => (placed scan displaced).1
      apply ensured.bind
      intro _
      exact .pure fun scan ending => by simpa using ending
  | some transition =>
      have taken : Meets graph.Stacked machine.Reads (origin.Drifts 0 0)
          (discard (machine.take transition)) fun _ => Nudged graph origin := by
        apply (meets_take poised stacked transition).discard
        rintro control scan ⟨held, ⟨unheld, _⟩, drifts⟩
        exact ⟨held, _, unheld, drifts⟩
      apply taken.bind
      intro _
      apply (meets_againClamped poised stacked ends).bind
      intro _
      exact .pure fun scan level => by simpa using level

/-! ## Ends of paths -/

omit poised in
theorem ending_pathEnded {scan : Scan World} (ending : graph.Ending scan) :
    graph.Ending (machine.pathEnded scan) := by
  unfold pathEnded
  split
  next => exact ⟨{ ending.1 with }, ending.2⟩
  next => exact ending

/-- An alternate is entered where it was pushed, unless that was before the chunk. -/
theorem meets_enterAlternate {frame : Frame} (stacked : graph.Stacked origin)
    (behind : frame.position ≤ origin.absolute) (ending : origin.position ≤ origin.size)
    (ordered : ∀ earlier ∈ origin.alternates.frames, earlier.position ≤ frame.position)
    {list : Option Nat} (place : frame.popTest = graph.location list)
    (unheld : graph.holds list = 0) (unstopped : graph.stops list = 0) :
    Meets graph.Stacked machine.Reads (· = origin) (machine.enterAlternate frame)
      fun _ scan => graph.Level scan ∧ scan.alternates = origin.alternates := by
  unfold enterAlternate
  apply Meets.getBind
  rintro scan rfl
  split
  next => exact .throw fun other same => same ▸ stacked
  next fresh =>
    have entered : graph.Level { scan with
        state := frame.state.toNat, position := frame.position - scan.base, rejected := false } := {
      stacked with
      behind := fun earlier member => by
        have before := ordered earlier member
        unfold Scan.absolute
        dsimp only
        omega
      low := by dsimp only; omega
      high := by
        unfold Scan.absolute at behind
        change frame.position - scan.base ≤ scan.size
        omega }
    apply Meets.setBind (Scan.Drifts.refl _)
    apply (meets_record (Scan.blind_drifts _ 0 0).unaware .pop frame.state.toNat
      frame.popTest.toNat).bind
    intro _
    rw [place, Int.toNat_natCast]
    apply (meets_discard_runList poised entered.toStacked list unheld unstopped).bind
    intro _
    apply Meets.getBind
    intro _ _
    exact .pure fun _ drifts => ⟨level_of_drifts entered drifts, drifts.alternates⟩

omit poised in
theorem stacked_dropAlternate {scan : Scan World} (stacked : graph.Stacked scan) {frame : Frame}
    {rest : List Frame} (holds : scan.alternates.frames = frame :: rest) :
    graph.Stacked scan.dropAlternate := by
  have ordered := stacked.ordered
  rw [holds, List.pairwise_cons] at ordered
  rw [Scan.dropAlternate_eq holds]
  exact {
    ordered := ordered.2
    behind := fun other (member : other ∈ rest) => stacked.behind other (by simp [holds, member])
    without := fun lacks => by simp [stacked.without lacks] at holds
    tested := fun other (member : other ∈ rest) =>
      stacked.tested other (by simp [holds, member]) }

theorem meets_popAlternates (frames : List Frame) :
    Meets graph.Stacked machine.Reads
      (fun scan => scan.alternates.frames = frames ∧ graph.Ending scan)
      (machine.popAlternates frames) fun entered scan =>
        if entered then graph.Level scan else graph.Stacked scan := by
  induction frames with
  | nil => exact .pure fun _ both => both.2.1
  | cons frame rest induction =>
      rintro scan ⟨holds, stacked, ending⟩
      have pending : graph.hasAlternates = true := by
        by_contra none
        simp [stacked.without (by simpa using none)] at holds
      have behind := stacked.behind frame (by simp [holds])
      have ordered := stacked.ordered
      rw [holds, List.pairwise_cons] at ordered
      rcases stacked.tested frame (by simp [holds]) with ⟨list, place, unstopped⟩
      -- Entering the alternate puts the scan back, behind all frames that are left.
      have unheld := poised.steady.holds_eq_zero pending list
      have dropped := stacked_dropAlternate stacked holds
      rw [Scan.dropAlternate_eq holds] at dropped
      refine Meets.bind (meets_enterAlternate poised dropped behind ending ordered.1 place unheld
        unstopped) (fun entered => ?_) scan.dropAlternate (Scan.dropAlternate_eq holds)
      cases entered with
      | true => exact .pure fun _ both => both.1
      | false =>
          refine Meets.bind (Meets.modify ?_) fun _ => induction
          rintro next ⟨level, frames⟩
          have ended : graph.Ending { next with state := machine.program.error.getD next.state } :=
            ⟨{ level.toStacked with }, level.high⟩
          refine ⟨?_, ending_pathEnded ended⟩
          rw [pathEnded_alternates]
          exact congrArg FrameStack.frames frames

theorem meets_endPath : Meets graph.Stacked machine.Reads (graph.Ending) machine.endPath
    fun entered scan => if entered then graph.Level scan else graph.Stacked scan := by
  intro scan ending
  exact meets_popAlternates poised _ (machine.pathEnded scan) ⟨rfl, ending_pathEnded ending⟩

/-! ## Rounds -/

def Standing (graph : Graph) : Phase → Scan World → Prop
  | .resume, scan => graph.Level scan
  | .testEof, scan => graph.Stacked scan ∧ scan.position = scan.size
  | .out, scan => graph.Ending scan

omit poised in
theorem meets_suspend : Meets graph.Stacked machine.Reads graph.Stacked
    (suspend : Step World ScanResult) fun _ => graph.Stacked :=
  .bind (.modify fun _ stacked => { stacked with }) fun _ => .getBind fun _ _ => .pure fun _ => id

omit poised in
theorem meets_finish : Meets graph.Stacked machine.Reads graph.Stacked
    (finish : Step World ScanResult) fun _ => graph.Stacked :=
  .bind (.modify fun _ stacked => { stacked with }) fun _ => .getBind fun _ _ => .pure fun _ => id

omit poised in
theorem meets_leave {before : Scan World → Prop}
    (stacked : ∀ scan, before scan → graph.Stacked scan) :
    Meets graph.Stacked machine.Reads before leave fun _ => graph.Stacked :=
  .getBind fun _ _ => .pure stacked

omit poised in
theorem meets_inError (property : Scan World → Prop) {failed : Scan World → Prop}
    {harmless : Fault → Prop} :
    Meets failed harmless property machine.inError fun _ => property :=
  .getBind fun _ _ => .pure fun _ => id

theorem meets_phase_resume : Meets graph.Stacked machine.Reads graph.Level (machine.phase .resume)
    (Sum.elim (Standing graph) fun _ => graph.Stacked) := by
  unfold phase
  apply (meets_pushAlternates poised).bind
  -- Where the scan stands now is what the key is left behind from.
  intro _ origin level
  refine Meets.getBind (fun scan drifts => ?_) origin (Scan.Drifts.refl origin)
  have stays := drifts.position
  split
  next ends =>
    refine .pure fun last same => ⟨level.drift same fun _ => rfl, ?_⟩
    have atEnd : scan.position = scan.size := by simpa [Scan.atEnd] using ends
    rw [same.position, same.size, ← stays, ← drifts.size, atEnd]
  next goes =>
    have inside : origin.position ≠ origin.size := by
      simpa [Scan.atEnd, stays, drifts.size] using goes
    apply (meets_inError (origin.Drifts 0 0)).bind
    intro isError
    split
    next =>
      refine .pure fun last same => ?_
      exact ⟨level.drift same fun _ => rfl, (level_of_drifts level same).high⟩
    next =>
      apply (meets_resume poised level inside).bind
      intro control
      split
      next =>
        apply (meets_leave fun _ => stacked_of_underway level.toStacked).bind
        exact fun _ => .pure fun _ => id
      next goesOn =>
        rintro middle ⟨held, spares, moved⟩
        rw [if_neg goesOn] at moved
        refine Meets.bind (meets_again poised level.toStacked.strays spares) (fun control => ?_)
          middle moved
        split
        next =>
          apply (meets_leave fun _ => stacked_of_arrived level.toStacked).bind
          exact fun _ => .pure fun _ => id
        next goesOn =>
          apply (meets_inError (Arrived graph origin control)).bind
          intro isError
          split
          next => exact .pure fun last => ending_of_arrived level goesOn
          next =>
            exact .bind (.modify fun last => level_advance level inside goesOn) fun _ =>
              .pure fun _ => id

theorem meets_phase (phase : Phase) : Meets graph.Stacked machine.Reads (Standing graph phase)
    (machine.phase phase) (Sum.elim (Standing graph) fun _ => graph.Stacked) := by
  cases phase with
  | resume => exact meets_phase_resume poised
  | testEof =>
      rintro scan ⟨stacked, ends⟩
      refine Meets.getBind (fun before _ => ?_) scan (Scan.Drifts.refl scan)
      split
      next =>
        apply (meets_suspend.strengthen fun _ drifts => stacked.drift drifts fun _ => rfl).bind
        exact fun _ => .pure fun _ => id
      next =>
        apply (meets_endInput poised stacked ends).bind
        intro taken
        cases taken <;> exact .pure fun _ => id
  | out =>
      apply (meets_endPath poised).bind
      intro entered
      cases entered with
      | true => exact .pure fun _ => id
      | false => exact meets_finish.bind fun _ => .pure fun _ => id

theorem steady_rounds (unstoppable : machine.driver = .flagged →
    ∀ action ∈ graph.actions, action.kind ≠ .stop) :
    Rounds graph.Stacked machine.Reads (Standing graph) (fun _ => graph.Stacked) machine := by
  apply Rounds.of_phases (meets_phase poised)
  rw [poised.program]
  exact unstoppable

end Poised

end Machine

namespace Graph

section Encodings

variable {World : Type} {graph : Graph} (built : graph.Built) (steady : graph.Steady)
  {encodingOptions : EncodingOptions} {encoding : Encoding}
  (encoded : graph.encode encodingOptions = .ok encoding)
  {options : MachineOptions} {bindings : Bindings World} {machine : Machine World}
  (created : Machine.create encoding.program options bindings = .ok machine)

theorem Stacked.begin {scan : Scan World} (stacked : graph.Stacked scan) (chunk : Array Key)
    (ended : Bool) : graph.Level (scan.begin chunk ended) where
  ordered := stacked.ordered
  behind frame member := by
    have before := stacked.behind frame member
    unfold Scan.absolute at before
    unfold Scan.absolute Scan.begin
    dsimp only
    omega
  without := stacked.without
  tested := stacked.tested
  low := Int.le_refl 0
  high := Int.natCast_nonneg _

include built steady encoded created

theorem rounds_running : Machine.Rounds graph.Stacked machine.Reads (Machine.Standing graph)
    (fun _ => graph.Stacked) (machine.running graph.program) := by
  have poised : (machine.running graph.program).Poised graph :=
    ⟨carries_running built encoded machine, fun _ => built.holds_fromState, steady⟩
  exact Machine.steady_rounds poised fun isFlagged =>
    unstoppable_of_create encoded created isFlagged

theorem execute_steady {scan : Scan World} (reached : machine.Reaches scan)
    (stacked : graph.Stacked scan) (fuel : Nat) (chunk : Array Key) (ended : Bool) :
    (∀ report after, machine.execute fuel scan chunk ended = .ok (report, after) →
      graph.Stacked after) ∧
    ∀ fault, machine.execute fuel scan chunk ended = .error fault → machine.Reads fault := by
  have rounds := rounds_running built steady encoded created
  rw [execute_eq_running built encoded created (confines_of_reaches built encoded created reached)]
  exact rounds.execute (fun _ impossible => by cases impossible) (fun _ => id) (fun _ _ => id)
    stacked (fun _ => stacked.begin chunk ended) fuel

theorem stacked_of_reaches {scan : Scan World} (reached : machine.Reaches scan) :
    graph.Stacked scan := by
  induction reached with
  | start world => exact ⟨.nil, by rintro _ ⟨⟩, fun _ => rfl, by rintro _ ⟨⟩⟩
  | execute reached executed stacked =>
      exact (execute_steady built steady encoded created reached stacked _ _ _).1 _ _ executed

end Encodings

/-- If transitions and the to-state actions behind them hold back one key at most, and nothing is
held back where there are alternates, then whatever calls the machine has seen, the scan is within
its chunk whenever the next key is about to be read. No call reads a key outside of its chunk,
unless a callback does. The draft of the graph names only condition spaces of its own. -/
theorem Steady.position_within_chunk {World : Type} {graph : Graph} (steady : graph.Steady)
    (built : graph.Built) {encodingOptions : EncodingOptions} {encoding : Encoding}
    (encoded : graph.encode encodingOptions = .ok encoding) {options : MachineOptions}
    {bindings : Bindings World} {machine : Machine World}
    (created : Machine.create encoding.program options bindings = .ok machine)
    {scan : Scan World} (reached : machine.Reaches scan) (chunk : Array Key) (ended : Bool) :
    (scan.done = false → machine.strayKey chunk = none → ∀ visited,
      machine.Visits (scan.begin chunk ended) .resume visited →
        0 ≤ visited.position ∧ visited.position ≤ visited.size) ∧
    ∀ (fuel : Nat) (position : Int),
      machine.execute fuel scan chunk ended = .error (.outsideChunk position) →
        machine.Raised (fun _ => True) (.outsideChunk position) := by
  have stacked := stacked_of_reaches built steady encoded created reached
  refine ⟨fun _ proper visited visits => ?_, fun fuel position raised => ?_⟩
  · have inside := (confines_of_reaches built encoded created reached).inside encoded created
    have visits := Machine.visits_running (machine_agrees built encoded created)
      (Machine.small_of_create (built.agrees encoded) created)
      (Machine.inside_begin inside proper ended) visits
    have level : graph.Level visited :=
      (rounds_running built steady encoded created).visits (stacked.begin chunk ended) visits.1
    exact ⟨level.low, level.high⟩
  · exact (execute_steady built steady encoded created reached stacked fuel chunk ended).2 _ raised
      position rfl

end Graph

namespace Sample

def holdingDraft (toState : List String) : Draft :=
  let operations : List DraftStep := [
    .defineAction ⟨"back", .hold, "", ""⟩,
    .setStart "first",
    .markFinal ["last"],
    .addClaim "first" ⟨.ofInt 97, .ofInt 97, .plain ⟨"second", ["back"]⟩⟩,
    .setToState "second" toState,
    .addClaim "second" ⟨.ofInt 97, .ofInt 97, .plain ⟨"last", []⟩⟩]
  operations.foldl Draft.perform (.empty "back" (.full ⟨true, .one⟩))

def holding (toState : List String) : Graph :=
  (holdingDraft toState).assemble.mergeDuplicates

theorem built_holding (toState : List String) (member : toState ∈ [[], ["back"]]) :
    (holding toState).Built := by
  refine Graph.built_of_checks ((Draft.Drafted.empty _ _).foldl (by rfl)) ?_
  revert toState
  decide +kernel

theorem built_held : (holding []).Built :=
  built_holding [] (by simp)

theorem built_held_twice : (holding ["back"]).Built :=
  built_holding ["back"] (by simp)

theorem steady_held : (holding []).Steady where
  once := by decide +kernel
  unheld := by decide +kernel
  unstopped := by decide +kernel

def faultOf (machine : Machine Unit) : Option Fault :=
  match machine.execute 4 (machine.start ()) #[.ofInt 97] true with
  | .error fault => some fault
  | .ok _ => none

def behindFirst? (toState : List String) : Option (Machine Unit × Scan Unit) := do
  let encoding ← ((holding toState).encode options).toOption
  let machine ← (Machine.create encoding.program machineOptions []).toOption
  match machine.gotoResume () ((machine.start ()).begin #[.ofInt 97] true) with
  | .ok (.ok (.inl ()), scan) => return (machine, scan)
  | _ => none

theorem exists_behindFirst (toState : List String) (test : Machine Unit × Scan Unit → Bool)
    (found : (behindFirst? toState).any test = true) :
    ∃ encoding machine visited, (holding toState).encode options = .ok encoding ∧
      Machine.create encoding.program machineOptions [] = .ok machine ∧
      machine.Visits ((machine.start ()).begin #[.ofInt 97] true) .resume visited ∧
      test (machine, visited) = true := by
  rw [Option.any_eq_true] at found
  rcases found with ⟨⟨machine, visited⟩, found, passed⟩
  simp only [behindFirst?, bind, Option.bind_eq_some_iff, toOption_eq_some] at found
  rcases found with ⟨encoding, encoded, made, created, stepped⟩
  split at stepped
  next after jumped =>
    cases stepped
    have isGoto : machine.driver = .goto := by
      unfold Machine.create at created
      split at created
      next => cases created
      next =>
        dsimp only at created
        split at created
        next => cases created
        next => cases created; rfl
    exact ⟨encoding, machine, visited, encoded, created, .jump isGoto .begin jumped, passed⟩
  next => cases stepped

end Sample

/-- A key that is held back once, at the start of the chunk. -/
theorem position_within_chunk_sample : ∃ encoding machine visited,
    (Sample.holding []).encode Sample.options = .ok encoding ∧
      Machine.create encoding.program Sample.machineOptions [] = .ok machine ∧
      machine.Visits ((machine.start ()).begin #[.ofInt 97] true) .resume visited ∧
      visited.position = 0 ∧ visited.state = 2 ∧
      (0 ≤ visited.position ∧ visited.position ≤ visited.size) := by
  rcases Sample.exists_behindFirst [] (fun both => both.1.strayKey #[.ofInt 97] == none &&
      (both.2.position == 0 && both.2.state == 2)) (by decide +kernel) with
    ⟨encoding, machine, visited, encoded, created, visits, found⟩
  have found : machine.strayKey #[.ofInt 97] = none ∧ visited.position = 0 ∧ visited.state = 2 := by
    simpa using found
  have within := Sample.steady_held.position_within_chunk Sample.built_held encoded created
    (.start ()) #[.ofInt 97] true
  exact ⟨encoding, machine, visited, encoded, created, visits, found.2.1, found.2.2,
    within.1 rfl found.1 visited visits⟩

/-- A key that is held back twice at the start of the chunk: the scan comes to stand before the
chunk, and the next key is read there. -/
theorem position_before_chunk_sample : (Sample.holding ["back"]).Built ∧
    ∃ encoding machine visited, (Sample.holding ["back"]).encode Sample.options = .ok encoding ∧
      Machine.create encoding.program Sample.machineOptions [] = .ok machine ∧
      machine.Visits ((machine.start ()).begin #[.ofInt 97] true) .resume visited ∧
      visited.position = -1 ∧
      machine.execute 4 (machine.start ()) #[.ofInt 97] true = .error (.outsideChunk (-1)) := by
  refine ⟨Sample.built_held_twice, ?_⟩
  rcases Sample.exists_behindFirst ["back"] (fun both => both.2.position == -1 &&
      Sample.faultOf both.1 == some (.outsideChunk (-1))) (by decide +kernel) with
    ⟨encoding, machine, visited, encoded, created, visits, found⟩
  have found : visited.position = -1 ∧ Sample.faultOf machine = some (.outsideChunk (-1)) := by
    simpa using found
  refine ⟨encoding, machine, visited, encoded, created, visits, found.1, ?_⟩
  have raised := found.2
  unfold Sample.faultOf at raised
  split at raised
  next fault executed =>
    cases raised
    exact executed
  next => cases raised

end StateTables
