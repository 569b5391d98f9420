import StateTables.Proofs.Hops

/-! # Scans come to an end

Every round leaves a key behind until the chunk is exhausted, and then follows an end-of-input
transition, behind which less is left. So there is fuel for all rounds. The search for cycles of
end-of-input transitions does not look at to-state actions, though: if these jump back, a scan goes
on forever.
-/

namespace StateTables

open Step (Meets)

namespace Machine

variable {World : Type} {machine : Machine World} {graph : Graph}

section Flows

variable (flows : machine.Flows graph) {size : Int} {spot : Spot}
include flows

/-! ## Rounds -/

/-- What is left of a scan: keys, and behind the last one what may still be returned to. -/
def remaining (graph : Graph) (rank : Nat → Nat) (size : Int) (spot : Spot) : Nat × Nat :=
  ((size - spot.position).toNat, if graph.Still spot.state then 0 else spot.load rank + 1)

def Nearer (graph : Graph) (rank : Nat → Nat) (size : Int) (next spot : Spot) : Prop :=
  Prod.Lex (· < ·) (· < ·) (remaining graph rank size next) (remaining graph rank size spot)

omit flows in
theorem nearer_of_advance {rank : Nat → Nat} {next : Spot} (inside : spot.position < size)
    (advanced : next.position = spot.position + 1) : Nearer graph rank size next spot := by
  apply Prod.Lex.left
  omega

omit flows in
theorem nearer_of_lighter {rank : Nat → Nat} {next : Spot} (same : next.position = spot.position)
    (moves : ¬graph.Still spot.state)
    (lighter : graph.Still next.state ∨ next.load rank < spot.load rank) :
    Nearer graph rank size next spot := by
  unfold Nearer remaining
  rw [same]
  apply Prod.Lex.right
  rw [if_neg moves]
  split
  next => omega
  next notStill =>
    have lighter := lighter.resolve_left notStill
    omega

omit flows in
theorem wellFounded_nearer (graph : Graph) (rank : Nat → Nat) (size : Int) :
    WellFounded (Nearer graph rank size) :=
  InvImage.wf (remaining graph rank size) (Prod.lex Nat.lt_wfRel Nat.lt_wfRel).wf

theorem finishes_pushAlternates :
    Step.Finishes (Scan.At size spot) machine.pushAlternates fun _ => Scan.At size spot := by
  unfold pushAlternates
  apply Meets.getBind
  intro scan isAt
  split
  next => exact .set { isAt with }
  next =>
    rw [flows.program]
    refine .question (fun pending asked => ?_) ((tableOnly_part _ _ _).map _).finishes
    rcases exists_of_map_part asked with ⟨state, member, rfl⟩
    have alone := Array.any_eq_false'.mp flows.lone state member
    have alone : state.alternates = [] := by simpa using alone
    rw [alone]
    exact .pure fun _ => id

omit flows in
theorem finishes_gotoOut {after : Unit → Scan World → Prop} :
    Step.Finishes (fun scan => scan.alternates.frames = []) machine.gotoOut
      (Sum.elim after fun _ _ => True) := by
  have path : Step.Finishes (fun scan => scan.alternates.frames = []) machine.endPath
      fun goesOn _ => goesOn = false := by
    intro scan lone
    have ended : Step.Finishes (fun _ => True) (machine.popAlternates []) fun goesOn _ =>
        goesOn = false := .pure fun _ _ => rfl
    rw [← lone, ← pathEnded_alternates scan] at ended
    exact ended (machine.pathEnded scan) trivial
  apply path.bind
  intro goesOn
  cases goesOn with
  | false => exact fun _ _ => trivial
  | true => exact fun _ impossible => by cases impossible

/-- A round that asks for another one has come to a spot behind which less is left. -/
def Approaches (graph : Graph) (rank : Nat → Nat) (size : Int) (spot : Spot) :
    Unit ⊕ ScanResult → Scan World → Prop :=
  Sum.elim (fun _ scan => ∃ next, Nearer graph rank size next spot ∧ scan.At size next ∧
    next.position ≤ size) fun _ _ => True

theorem finishes_gotoTestEof (plain : graph.PlainEof) (aims : graph.ToStateAims graph.Still)
    {rank : Nat → Nat} (falls : ∀ state next, graph.EofLeads state next → rank next < rank state)
    (ends : spot.position = size) (positive : 0 ≤ size) :
    Step.Finishes (Scan.At size spot) machine.gotoTestEof (Approaches graph rank size spot) := by
  unfold gotoTestEof
  apply Meets.getBind
  intro scan _
  split
  next => exact fun _ _ => trivial
  next =>
    apply (finishes_endInput flows plain aims falls ends positive).bind
    intro taken
    cases taken with
    | false =>
        apply finishes_gotoOut.strengthen
        rintro scan ⟨last, isAt, _⟩
        exact isAt.lone
    | true =>
        refine .pure fun scan => ?_
        rintro ⟨last, isAt, position, lighter⟩
        rcases lighter rfl with ⟨moves, lighter⟩
        exact ⟨last, nearer_of_lighter (position.trans ends.symm) moves lighter, isAt,
          Int.le_of_eq position⟩

/-- Less is left of a scan after every round. -/
theorem finishes_gotoResume (plain : graph.PlainEof) (aims : graph.ToStateAims graph.Still)
    {rank : Nat → Nat} (falls : ∀ state next, graph.EofLeads state next → rank next < rank state)
    (positive : 0 ≤ size) (within : spot.position ≤ size) :
    Step.Finishes (Scan.At size spot) (machine.gotoResume ())
      (Approaches graph rank size spot) := by
  unfold gotoResume
  apply (finishes_pushAlternates flows).bind
  intro _
  apply Meets.getBind
  intro scan isAt
  have here : scan.position = spot.position := by rw [← isAt.spot]
  split
  next ends =>
    have ends : spot.position = size := by simpa [Scan.atEnd, here, isAt.size] using ends
    exact finishes_gotoTestEof flows plain aims falls ends positive
  next goes =>
    have inside : spot.position ≠ size := by simpa [Scan.atEnd, here, isAt.size] using goes
    apply (meets_inError (Scan.At size spot)).bind
    intro isError
    split
    next => exact finishes_gotoOut.strengthen fun _ isAt => isAt.lone
    next =>
      apply (finishes_resume flows).bind
      intro control
      split
      next => exact fun _ _ => trivial
      next goesOn =>
        rintro scan ⟨middle, isAt, stays⟩
        have stays := stays goesOn
        refine Meets.bind (finishes_again flows fun _ _ _ _ => trivial) (fun control => ?_) scan
          isAt
        split
        next => exact fun _ _ => trivial
        next goesOn =>
          rintro scan ⟨inner, goesOnToo, landed⟩
          rcases landed.stayed with ⟨last, isAt, staysToo⟩
          have staysToo := staysToo (goesOnToo goesOn)
          refine Meets.bind (meets_inError (Scan.At size last)) (fun isError => ?_) scan isAt
          split
          next => exact finishes_gotoOut.strengthen fun _ isAt => isAt.lone
          next =>
            refine fun scan isAt => ⟨{ last with position := last.position + 1 }, ?_, ?_, ?_⟩
            · exact nearer_of_advance (by omega) (by dsimp only; omega)
            · exact ⟨isAt.size, isAt.lone, by rw [← isAt.spot]⟩
            · dsimp only
              omega

end Flows

/-! ## Fuel -/

theorem not_raised_of_create {program : Program} {options : MachineOptions}
    (created : create program options [] = .ok machine) (shown : View → Prop) (fault : Fault) :
    ¬machine.Raised shown fault := by
  have made := created_of_create created
  rintro (⟨hook, member, _⟩ | ⟨conditions, member, condition, inside, _⟩)
  · rw [made.hooks] at member
    simp [Bindings.hook?, Bindings.lookup] at member
  · rw [made.conditions] at member
    simp only [Array.mem_map] at member
    rcases member with ⟨_, ⟨space, _, rfl⟩, rfl⟩
    simp [conditionsOf, Bindings.condition?, Bindings.lookup] at inside

/-- If something becomes less in every round, there is fuel for all rounds. -/
theorem exists_repeated {α β γ : Type} {round : α → Step World (α ⊕ β)} {less : γ → γ → Prop}
    (wellFounded : WellFounded less) (keeps : γ → α → Scan World → Prop)
    (each : ∀ measure current, Step.Finishes (keeps measure current) (round current)
      (Sum.elim (fun next scan => ∃ lower, less lower measure ∧ keeps lower next scan)
        fun _ _ => True))
    {measure : γ} {current : α} {scan : Scan World} (kept : keeps measure current scan) :
    ∃ fuel, Step.repeated round fuel current scan ≠ .error .outOfFuel := by
  induction measure using wellFounded.induction generalizing current scan with
  | _ measure induction =>
      have met := each measure current scan kept
      -- One round is enough, unless it asks for another one.
      have once : ∀ fuel, Step.repeated round (fuel + 1) current scan =
          (round current >>= Step.goOn round fuel) scan := fun fuel => by rw [Step.repeated_succ]
      simp only [Step.bind_apply] at once
      generalize round current scan = outcome at met once
      match outcome with
      | .ok (.ok (.inl next), after) =>
          rcases met with ⟨lower, isLess, kept⟩
          rcases induction lower isLess kept with ⟨fuel, ends⟩
          exact ⟨fuel + 1, by rw [once]; exact ends⟩
      | .ok (.ok (.inr result), after) => exact ⟨1, by rw [once]; simp [Step.goOn]⟩
      | .ok (.error problem, after) => exact ⟨1, by rw [once]; simp⟩
      | .error fault => exact ⟨1, by rw [once]; simpa using met⟩

theorem Flows.exists_driveBy (flows : machine.Flows graph) (plain : graph.PlainEof)
    (aims : graph.ToStateAims graph.Still) {rank : Nat → Nat}
    (falls : ∀ state next, graph.EofLeads state next → rank next < rank state)
    {scan : Scan World} (lone : scan.alternates.frames = []) (chunk : Array Key) (ended : Bool) :
    ∃ fuel, machine.driveBy .goto fuel (scan.begin chunk ended) ≠ .error .outOfFuel := by
  have positive : (0 : Int) ≤ chunk.size := Int.natCast_nonneg _
  let keeps : Spot → Unit → Scan World → Prop := fun spot _ scan =>
    spot.position ≤ chunk.size ∧ scan.At chunk.size spot
  have begins : keeps ⟨scan.state, scan.calls.frames, 0⟩ () (scan.begin chunk ended) :=
    ⟨positive, rfl, lone, rfl⟩
  refine exists_repeated (wellFounded_nearer graph rank chunk.size) keeps (fun spot _ => ?_) begins
  apply Meets.given
  intro within
  apply (finishes_gotoResume flows plain aims falls positive within).weaken
  intro outcome scan
  cases outcome with
  | inl _ =>
      rintro ⟨next, nearer, isAt, inside⟩
      exact ⟨next, nearer, inside, isAt⟩
  | inr result => exact id

theorem Ends.of_goto {scan : Scan World}
    {outcome : Except Fault (Except ScanError ScanResult × Scan World)}
    (unstoppable : machine.driver = .flagged → ∀ action ∈ machine.program.actions,
      action.kind ≠ .stop)
    (ends : machine.Ends .goto scan outcome) : machine.Ends machine.driver scan outcome := by
  cases kind : machine.driver with
  | goto => exact ends
  | phased => exact ends_phased_iff.mpr ends
  | flagged => exact (ends_flagged_iff (unstoppable kind)).mpr ends

/-- A round that changes nothing is repeated until there is no fuel left. -/
theorem repeated_eq_outOfFuel {α β : Type} {round : α → Step World (α ⊕ β)} {current : α}
    {scan : Scan World} (same : round current scan = .ok (.ok (.inl current), scan)) (fuel : Nat) :
    Step.repeated round fuel current scan = .error .outOfFuel := by
  induction fuel with
  | zero => rfl
  | succ fuel induction =>
      rw [Step.repeated_succ, Step.bind_apply, same]
      exact induction

theorem exists_execute {scan : Scan World} {chunk : Array Key} {ended : Bool}
    {outcome : Except Fault (Except ScanError ScanResult × Scan World)}
    (ends : scan.done = false → machine.strayKey chunk = none →
      machine.Ends machine.driver (scan.begin chunk ended) outcome) :
    ∃ fuel, ∀ more, fuel ≤ more → machine.execute more scan chunk ended ≠ .error .outOfFuel := by
  by_cases accepted : scan.done = false ∧ machine.strayKey chunk = none
  · rcases ends accepted.1 accepted.2 with ⟨fueled, fuel, driven⟩
    refine ⟨fuel, fun more enough => ?_⟩
    have same := (driveBy_of_le enough (scan.begin chunk ended)).resolve_left (driven ▸ fueled)
    rw [execute_eq accepted.1 accepted.2, ← same, driven]
    match outcome with
    | .ok (.ok _, _) => simp
    | .ok (.error _, _) => simp
    | .error fault => simpa using fueled
  · refine ⟨0, fun more _ => ?_⟩
    unfold execute
    split
    next => simp
    next unfinished =>
      split
      next => simp
      next proper => exact absurd ⟨by simpa using unfinished, proper⟩ accepted

end Machine

namespace Graph

variable {World : Type} {graph : Graph}

theorem Built.acyclic (built : graph.Built) : graph.eofCycle = none := by
  have fine := built.validated
  unfold validate at fine
  rcases bind_eq_ok.mp fine with ⟨_, _, fine⟩
  cases cycle : graph.eofCycle with
  | none => rfl
  | some state =>
      rw [cycle] at fine
      cases fine

theorem steady_of_unheld (unheld : ∀ action ∈ graph.actions, action.kind ≠ .hold)
    (lone : graph.hasAlternates = false) : graph.Steady := by
  have unused : ∀ list, graph.holds list = 0 := by
    intro list
    apply List.countP_eq_zero.mpr
    intro action member
    rcases List.mem_filterMap.mp member with ⟨number, _, found⟩
    simpa using unheld action (Array.mem_of_getElem? found)
  refine ⟨fun state _ => ?_, fun pending => by simp [lone] at pending, ?_⟩
  · simp [unused]
  · intro state member alternate inside
    have alone := Array.any_eq_false'.mp lone state member
    have alone : state.alternates = [] := by simpa using alone
    simp [alone] at inside

/-- If nothing is held back, there are no alternates and to-state actions lead to states without an
end-of-input transition only, then every call comes to an end, in whatever state the machine is and
whether the chunk ends the input or not. More fuel does not change that. The draft of the graph
names only condition spaces of its own. -/
theorem Built.execute_terminates (built : graph.Built)
    (unheld : ∀ action ∈ graph.actions, action.kind ≠ .hold) (lone : graph.hasAlternates = false)
    (aims : graph.ToStateAims graph.Still) {encodingOptions : EncodingOptions} {encoding : Encoding}
    (encoded : graph.encode encodingOptions = .ok encoding) {options : MachineOptions}
    {bindings : Bindings World} {machine : Machine World}
    (created : Machine.create encoding.program options bindings = .ok machine)
    (returns : ¬machine.Raised (fun _ => True) .outOfFuel) {scan : Scan World}
    (reached : machine.Reaches scan) (chunk : Array Key) (ended : Bool) :
    ∃ fuel, ∀ more, fuel ≤ more → machine.execute more scan chunk ended ≠ .error .outOfFuel := by
  have stacked := stacked_of_reaches built (steady_of_unheld unheld lone) encoded created reached
  have flows : (machine.running graph.program).Flows graph :=
    ⟨carries_running built encoded machine, unheld, lone, returns⟩
  rcases exists_rank_of_eofCycle built.wired.linked built.acyclic with ⟨rank, falls⟩
  rcases flows.exists_driveBy built.plainEof aims falls (stacked.without lone) chunk ended with
    ⟨fuel, fueled⟩
  have unstoppable : machine.driver = .flagged → ∀ action ∈ graph.actions, action.kind ≠ .stop :=
    unstoppable_of_create encoded created
  have ends : ∃ fuel, ∀ more, fuel ≤ more →
      (machine.running graph.program).execute more scan chunk ended ≠ .error .outOfFuel :=
    Machine.exists_execute fun _ _ => .of_goto unstoppable ⟨fueled, fuel, rfl⟩
  have confines := confines_of_reaches built encoded created reached
  simpa only [execute_eq_running built encoded created confines] using ends

end Graph

namespace Sample

def descendingDraft : Draft :=
  let operations : List DraftStep := [
    .defineAction ⟨"visit", .call, "", "aside"⟩,
    .defineAction ⟨"leave", .ret, "", ""⟩,
    .defineAction ⟨"rest", .goto, "", "last"⟩,
    .setStart "first",
    .markFinal ["last"],
    .setEofTransition "first" ⟨"second", ["visit"]⟩,
    .setEofTransition "aside" ⟨"last", ["leave"]⟩,
    .setEofTransition "second" ⟨"last", []⟩,
    .setToState "last" ["rest"]]
  operations.foldl Draft.perform (.empty "descending" (.full ⟨true, .one⟩))

def circlingDraft : Draft :=
  let operations : List DraftStep := [
    .defineAction ⟨"back", .goto, "", "first"⟩,
    .setStart "first",
    .markFinal ["last"],
    .setFallback "first" (.plain ⟨"first", []⟩),
    .setFallback "last" (.plain ⟨"last", []⟩),
    .setEofTransition "first" ⟨"last", []⟩,
    .setToState "last" ["back"]]
  operations.foldl Draft.perform (.empty "circling" (.full ⟨true, .one⟩))

def descending : Graph :=
  descendingDraft.assemble.mergeDuplicates

def circling : Graph :=
  circlingDraft.assemble.mergeDuplicates

def silent? (graph : Graph) : Option (Machine Unit) := do
  let encoding ← (graph.encode options).toOption
  (Machine.create encoding.program { machineOptions with recording := false } []).toOption

theorem exists_silent (graph : Graph) (test : Machine Unit → Bool)
    (found : (silent? graph).any test = true) :
    ∃ encoding machine, graph.encode options = .ok encoding ∧
      Machine.create encoding.program { machineOptions with recording := false } [] = .ok machine ∧
      test machine = true := by
  rw [Option.any_eq_true] at found
  rcases found with ⟨machine, found, passed⟩
  simp only [silent?, bind, Option.bind_eq_some_iff, toOption_eq_some] at found
  rcases found with ⟨encoding, encoded, created⟩
  exact ⟨encoding, machine, encoded, created, passed⟩

def faultOfEmpty (fuel : Nat) (machine : Machine Unit) : Option Fault :=
  match machine.execute fuel (machine.start ()) #[] true with
  | .error fault => some fault
  | .ok _ => none

def observed (scan : Scan Unit) :=
  (scan.state, scan.position, scan.chunk, scan.ended, scan.base, scan.accepted, scan.rejected,
    scan.resumed, scan.done, scan.calls, scan.alternates, scan.trace)

theorem observed_injective {first second : Scan Unit} (same : observed first = observed second) :
    first = second := by
  cases first
  cases second
  simpa [observed] using same

/-- Does a round lead back to where the scan began? -/
def circles (machine : Machine Unit) : Bool :=
  match machine.gotoResume () ((machine.start ()).begin #[] true) with
  | .ok (.ok (.inl ()), next) => observed next == observed ((machine.start ()).begin #[] true)
  | _ => false

theorem gotoResume_of_circles {machine : Machine Unit} (back : circles machine = true) :
    machine.gotoResume () ((machine.start ()).begin #[] true) =
      .ok (.ok (.inl ()), (machine.start ()).begin #[] true) := by
  unfold circles at back
  split at back
  next next jumped =>
    rw [jumped, observed_injective (by simpa using back : observed next = _)]
  next => cases back

end Sample

/-- A call and a return at the end of input take four rounds. -/
theorem execute_terminates_sample : ∃ encoding machine,
    Sample.descending.encode Sample.options = .ok encoding ∧
      Machine.create encoding.program { Sample.machineOptions with recording := false } [] =
        .ok machine ∧
      Sample.faultOfEmpty 3 machine = some .outOfFuel ∧
      ∃ fuel, ∀ more, fuel ≤ more →
        machine.execute more (machine.start ()) #[] true ≠ .error .outOfFuel := by
  rcases Sample.exists_silent Sample.descending
      (fun machine => Sample.faultOfEmpty 3 machine == some .outOfFuel) (by decide +kernel) with
    ⟨encoding, machine, encoded, created, short⟩
  have drafted : Sample.descendingDraft.Drafted := (Draft.Drafted.empty _ _).foldl (by decide)
  have built : Sample.descending.Built := Graph.built_of_checks drafted (by decide +kernel)
  have ends := built.execute_terminates (by decide +kernel) (by decide +kernel) (by decide +kernel)
    encoded created (Machine.not_raised_of_create created _ _) (.start ()) #[] true
  exact ⟨encoding, machine, encoded, created, by simpa using short, ends⟩

/-- To-state actions that jump back behind an end-of-input transition: nothing is held back, there
are no alternates, and still no fuel is enough. -/
theorem execute_runs_forever_sample : Sample.circling.Built ∧
    (∀ action ∈ Sample.circling.actions, action.kind ≠ .hold) ∧
    Sample.circling.hasAlternates = false ∧
    ∃ encoding machine, Sample.circling.encode Sample.options = .ok encoding ∧
      Machine.create encoding.program { Sample.machineOptions with recording := false } [] =
        .ok machine ∧
      ∀ fuel, machine.execute fuel (machine.start ()) #[] true = .error .outOfFuel := by
  have drafted : Sample.circlingDraft.Drafted := (Draft.Drafted.empty _ _).foldl (by decide)
  have built : Sample.circling.Built := Graph.built_of_checks drafted (by decide +kernel)
  refine ⟨built, by decide +kernel, by decide +kernel, ?_⟩
  rcases Sample.exists_silent Sample.circling
      (fun machine => Sample.circles machine && machine.driver == .goto) (by decide +kernel) with
    ⟨encoding, machine, encoded, created, found⟩
  have found : Sample.circles machine = true ∧ machine.driver = .goto := by simpa using found
  refine ⟨encoding, machine, encoded, created, fun fuel => ?_⟩
  have drives : machine.driveBy machine.driver fuel ((machine.start ()).begin #[] true) =
      .error .outOfFuel := by
    rw [found.2]
    exact Machine.repeated_eq_outOfFuel (Sample.gotoResume_of_circles found.1) fuel
  rw [Machine.execute_eq rfl (by simp [Machine.strayKey]), drives]

end StateTables
