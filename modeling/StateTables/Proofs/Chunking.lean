import StateTables.Proofs.Tracking

/-! # Input in one piece or in many

A scan that is fed its input in chunks does what it does when all of the input is in one
chunk, except that an alternate may have been left behind in an earlier chunk: what comes of the
chunks still to come is what comes of the rest of the whole input.
-/

namespace StateTables

open Step (Joins Same Couples)

namespace Machine

variable {World : Type} {machine : Machine World} {graph : Graph} {ended : Bool}
  {rest : List (Array Key)}

/-! ## Calls -/

section Calls

variable (machine)

/-- With enough fuel a call ends like this. -/
def Gives (scan : Scan World) (chunk : Array Key) (ended : Bool)
    (outcome : Except Fault (Report × Scan World)) : Prop :=
  outcome ≠ .error .outOfFuel ∧ ∃ fuel, machine.execute fuel scan chunk ended = outcome

/-- What comes of scanning some chunks one after the other, up to the first error. The last chunk
may end the input. -/
inductive Feeds (ended : Bool) : List (Array Key) → Scan World →
    Except Fault (Option ScanError × Scan World) → Prop
  | nil {scan : Scan World} : Feeds ended [] scan (.ok (none, scan))
  | fault {chunk : Array Key} {rest : List (Array Key)} {scan : Scan World} {fault : Fault} :
      machine.Gives scan chunk (rest.isEmpty && ended) (.error fault) →
        Feeds ended (chunk :: rest) scan (.error fault)
  | problem {chunk : Array Key} {rest : List (Array Key)} {scan after : Scan World}
      {result : ScanResult} {problem : ScanError} :
      machine.Gives scan chunk (rest.isEmpty && ended) (.ok (⟨result, some problem⟩, after)) →
        Feeds ended (chunk :: rest) scan (.ok (some problem, after))
  | next {chunk : Array Key} {rest : List (Array Key)} {scan after : Scan World}
      {result : ScanResult} {outcome : Except Fault (Option ScanError × Scan World)} :
      machine.Gives scan chunk (rest.isEmpty && ended) (.ok (⟨result, none⟩, after)) →
        Feeds ended rest after outcome → Feeds ended (chunk :: rest) scan outcome

/-- How the chunks to come are scanned after a call. -/
inductive Proceeds (ended : Bool) (rest : List (Array Key)) :
    Except Fault (Except ScanError ScanResult × Scan World) →
      Except Fault (Option ScanError × Scan World) → Prop
  | fault {fault : Fault} : Proceeds ended rest (.error fault) (.error fault)
  | problem {problem : ScanError} {after : Scan World} :
      Proceeds ended rest (.ok (.error problem, after)) (.ok (some problem, after))
  | next {result : ScanResult} {after : Scan World}
      {outcome : Except Fault (Option ScanError × Scan World)} :
      machine.Feeds ended rest after outcome →
        Proceeds ended rest (.ok (.ok result, after)) outcome

/-- With enough fuel, rounds that begin behind the alternates lead to an outcome. -/
def Loops (scan : Scan World) (raw : Except Fault (Except ScanError ScanResult × Scan World)) :
    Prop :=
  raw ≠ .error .outOfFuel ∧ ∃ fuel, Step.repeated machine.turn fuel () scan = raw

/-- What comes of a scan in the middle of a call, with some chunks to come. -/
inductive Continues (ended : Bool) (rest : List (Array Key)) : Scan World →
    Except Fault (Option ScanError × Scan World) → Prop
  | turn {scan after : Scan World} {outcome : Except Fault (Option ScanError × Scan World)} :
      machine.turn () scan = .ok (.ok (.inl ()), after) → Continues ended rest after outcome →
        Continues ended rest scan outcome
  | leave {scan after : Scan World} {result : ScanResult}
      {outcome : Except Fault (Option ScanError × Scan World)} :
      machine.turn () scan = .ok (.ok (.inr result), after) →
        machine.Feeds ended rest after outcome → Continues ended rest scan outcome
  | problem {scan after : Scan World} {problem : ScanError} :
      machine.turn () scan = .ok (.error problem, after) →
        Continues ended rest scan (.ok (some problem, after))
  | fault {scan : Scan World} {fault : Fault} : machine.turn () scan = .error fault →
      fault ≠ .outOfFuel → Continues ended rest scan (.error fault)

end Calls

open Step (Approximates goOn repeated_succ)

theorem flaggedRound_eq_sweep (machine : Machine World) :
    machine.flaggedRound () = machine.pushAlternates >>= fun _ => machine.sweep :=
  rfl

theorem turn_goOn (machine : Machine World) (fuel : Nat) :
    machine.turn () >>= goOn machine.turn fuel = machine.sweep >>= fun outcome =>
      match outcome with
      | .inl () => machine.pushAlternates >>= fun _ => Step.repeated machine.turn fuel ()
      | .inr result => pure result := by
  unfold turn
  rw [bind_assoc]
  refine bind_congr fun outcome => ?_
  match outcome with
  | .inr result => rfl
  | .inl () => rw [bind_assoc]; rfl

theorem rounds_approximate (machine : Machine World) (fuel : Nat) :
    Approximates (Step.repeated machine.flaggedRound fuel ())
      (machine.pushAlternates >>= fun _ => Step.repeated machine.turn fuel ()) := by
  induction fuel with
  | zero => exact .exhausted _
  | succ fuel induction =>
      rw [repeated_succ machine.flaggedRound, flaggedRound_eq_sweep, bind_assoc]
      refine (Approximates.refl _).bind fun _ => ?_
      rw [repeated_succ, turn_goOn]
      refine (Approximates.refl _).bind fun outcome => ?_
      match outcome with
      | .inl () => exact induction
      | .inr result => exact .refl _

theorem turns_approximate (machine : Machine World) (fuel : Nat) :
    Approximates (machine.pushAlternates >>= fun _ => Step.repeated machine.turn fuel ())
      (Step.repeated machine.flaggedRound (fuel + 1) ()) := by
  induction fuel with
  | zero =>
      rw [repeated_succ machine.flaggedRound, flaggedRound_eq_sweep, bind_assoc]
      exact (Approximates.refl _).bind fun _ => .exhausted _
  | succ fuel induction =>
      rw [repeated_succ machine.flaggedRound, flaggedRound_eq_sweep, bind_assoc]
      refine (Approximates.refl _).bind fun _ => ?_
      rw [repeated_succ, turn_goOn]
      refine (Approximates.refl _).bind fun outcome => ?_
      match outcome with
      | .inl () => exact induction
      | .inr result => exact .refl _

section Looping

variable {scan after : Scan World} {raw : Except Fault (Except ScanError ScanResult × Scan World)}

/-- A driver with flags pushes alternates, and then loops. -/
theorem ends_flagged_iff_loops :
    machine.Ends .flagged scan raw ↔ raw ≠ .error .outOfFuel ∧ ∃ fuel,
      (machine.pushAlternates >>= fun _ => Step.repeated machine.turn fuel ()) scan = raw := by
  constructor
  · rintro ⟨fueled, fuel, driven⟩
    refine ⟨fueled, fuel, ?_⟩
    rcases machine.rounds_approximate fuel scan with exhausted | same
    · exact absurd (driven.symm.trans exhausted) fueled
    · exact same.symm.trans driven
  · rintro ⟨fueled, fuel, driven⟩
    refine ⟨fueled, fuel + 1, ?_⟩
    rcases machine.turns_approximate fuel scan with exhausted | same
    · exact absurd (driven.symm.trans exhausted) fueled
    · exact same.symm.trans driven

theorem ends_flagged_iff_pushed : machine.Ends .flagged scan raw ↔
    match machine.pushAlternates scan with
    | .ok (.ok (), after) => machine.Loops after raw
    | .ok (.error problem, after) => raw = .ok (.error problem, after)
    | .error fault => fault ≠ .outOfFuel ∧ raw = .error fault := by
  rw [ends_flagged_iff_loops]
  simp only [Step.bind_apply]
  generalize machine.pushAlternates scan = pushed
  match pushed with
  | .ok (.ok (), after) => rfl
  | .ok (.error problem, after) =>
      constructor
      · rintro ⟨_, _, rfl⟩
        rfl
      · rintro rfl
        exact ⟨by simp, 0, rfl⟩
  | .error fault =>
      constructor
      · rintro ⟨fueled, _, rfl⟩
        exact ⟨by simpa using fueled, rfl⟩
      · rintro ⟨fueled, rfl⟩
        exact ⟨by simpa using fueled, 0, rfl⟩

variable {outcome : Except Fault (Option ScanError × Scan World)}

theorem loops_of_continues (continues : machine.Continues ended rest scan outcome) :
    ∃ raw, machine.Loops scan raw ∧ machine.Proceeds ended rest raw outcome := by
  have unrolled : ∀ {scan : Scan World} {raw}, raw ≠ .error .outOfFuel →
      (∃ fuel, (machine.turn () >>= goOn machine.turn fuel) scan = raw) →
        machine.Loops scan raw := by
    rintro scan raw fueled ⟨fuel, looped⟩
    exact ⟨fueled, fuel + 1, by rwa [repeated_succ]⟩
  induction continues with
  | turn turned _ induction =>
      rcases induction with ⟨raw, ⟨fueled, fuel, looped⟩, proceeds⟩
      refine ⟨raw, unrolled fueled ⟨fuel, ?_⟩, proceeds⟩
      rw [Step.bind_apply, turned]
      exact looped
  | @leave scan after result _ turned feeds =>
      refine ⟨.ok (.ok result, after), unrolled (by simp) ⟨0, ?_⟩, .next feeds⟩
      rw [Step.bind_apply, turned]
      rfl
  | problem turned =>
      refine ⟨_, unrolled (by simp) ⟨0, ?_⟩, .problem⟩
      rw [Step.bind_apply, turned]
  | fault turned fueled =>
      refine ⟨_, unrolled (by simpa using fueled) ⟨0, ?_⟩, .fault⟩
      rw [Step.bind_apply, turned]

theorem continues_of_loops (loops : machine.Loops scan raw)
    (proceeds : machine.Proceeds ended rest raw outcome) :
    machine.Continues ended rest scan outcome := by
  rcases loops with ⟨fueled, fuel, looped⟩
  induction fuel generalizing scan with
  | zero => exact absurd looped.symm fueled
  | succ fuel induction =>
      rw [repeated_succ, Step.bind_apply] at looped
      generalize turned : machine.turn () scan = result at looped
      match result with
      | .ok (.ok (.inl ()), after) => exact .turn turned (induction looped)
      | .ok (.ok (.inr _), after) =>
          cases looped
          cases proceeds with
          | next feeds => exact .leave turned feeds
      | .ok (.error problem, after) =>
          cases looped
          cases proceeds
          exact .problem turned
      | .error fault =>
          cases looped
          cases proceeds
          exact .fault turned (by simpa using fueled)

end Looping

section Feeding

variable {scan : Scan World} {chunk : Array Key}
  {outcome : Except Fault (Option ScanError × Scan World)}

theorem feeds_iff (unfinished : scan.done = false) (proper : machine.strayKey chunk = none) :
    machine.Feeds ended (chunk :: rest) scan outcome ↔ ∃ raw,
      machine.Ends machine.driver (scan.begin chunk (rest.isEmpty && ended)) raw ∧
        machine.Proceeds ended rest raw outcome := by
  constructor
  · intro feeds
    cases feeds with
    | fault gives =>
        rcases gives with ⟨fueled, fuel, executed⟩
        rw [execute_eq unfinished proper] at executed
        split at executed
        next driven => cases executed; exact ⟨_, ⟨by simpa using fueled, fuel, driven⟩, .fault⟩
        next => cases executed
        next => cases executed
    | problem gives =>
        rcases gives with ⟨_, fuel, executed⟩
        rw [execute_eq unfinished proper] at executed
        split at executed
        next => cases executed
        next => cases executed
        next driven => cases executed; exact ⟨_, ⟨by simp, fuel, driven⟩, .problem⟩
    | next gives later =>
        rcases gives with ⟨_, fuel, executed⟩
        rw [execute_eq unfinished proper] at executed
        split at executed
        next => cases executed
        next driven => cases executed; exact ⟨_, ⟨by simp, fuel, driven⟩, .next later⟩
        next => cases executed
  · rintro ⟨raw, ⟨fueled, fuel, driven⟩, proceeds⟩
    have executed := execute_eq unfinished proper fuel (rest.isEmpty && ended)
    rw [driven] at executed
    cases proceeds with
    | fault => exact .fault ⟨by simpa using fueled, fuel, executed⟩
    | problem => exact .problem ⟨by simp, fuel, executed⟩
    | next later => exact .next ⟨by simp, fuel, executed⟩ later

theorem feeds_of_done (done : scan.done = true) :
    machine.Feeds ended rest scan outcome ↔ outcome = .ok (none, scan) := by
  have executed : ∀ fuel chunk ended, machine.execute fuel scan chunk ended =
      .ok (⟨scan.result, none⟩, scan) := by
    intro fuel chunk ended
    unfold execute
    rw [if_pos done]
  induction rest with
  | nil =>
      constructor
      · rintro ⟨⟩
        rfl
      · rintro rfl
        exact .nil
  | cons chunk later induction =>
      constructor
      · intro feeds
        cases feeds with
        | fault gives =>
            rcases gives with ⟨_, fuel, impossible⟩
            rw [executed] at impossible
            cases impossible
        | problem gives =>
            rcases gives with ⟨_, fuel, impossible⟩
            rw [executed] at impossible
            cases impossible
        | next gives later =>
            rcases gives with ⟨_, fuel, same⟩
            rw [executed] at same
            cases same
            exact induction.mp later
      · intro same
        exact .next ⟨by simp, 0, executed 0 chunk _⟩ (induction.mpr same)

end Feeding

/-! ## Pieces and the whole -/

/-- An alternate was missed. -/
def Stale (outcome : Except Fault (Option ScanError × Scan World)) : Prop :=
  ∃ position base after, outcome = .ok (some (.staleAlternate position base), after)

/-- The same error or none, and scans of which the same can be seen; or a fault in both cases. -/
inductive EndsAlike : Except Fault (Option ScanError × Scan World) →
    Except Fault (Option ScanError × Scan World) → Prop
  | scans {problem? : Option ScanError} {left right : Scan World} : left.Matches right →
      EndsAlike (.ok (problem?, left)) (.ok (problem?, right))
  | faults {left right : Fault} : left.Alike right → EndsAlike (.error left) (.error right)

section Oblivious

variable (oblivious : machine.Oblivious graph)
include oblivious

theorem ends_driver_iff {scan : Scan World}
    {raw : Except Fault (Except ScanError ScanResult × Scan World)} :
    machine.Ends machine.driver scan raw ↔ machine.Ends .flagged scan raw := by
  have unstoppable : ∀ action ∈ machine.program.actions, action.kind ≠ .stop := by
    rw [oblivious.program]
    exact fun action member => (oblivious.calm action member).2
  cases machine.driver with
  | goto => exact (ends_flagged_iff unstoppable).symm
  | phased => exact ends_phased_iff.trans (ends_flagged_iff unstoppable).symm
  | flagged => rfl

/-- The scan that was suspended at the end of a chunk, in the middle of the next call. -/
def intoNext (scan : Scan World) (chunk : Array Key) (ended : Bool) : Scan World :=
  { scan.begin chunk ended with resumed := false }

omit oblivious in
theorem tracks_intoNext {chunk : Array Key} {later : List (Array Key)} {left right : Scan World}
    (tracks : graph.Tracks ended (chunk :: later) left right) (ends : left.position = left.size) :
    graph.Tracks ended later (intoNext left chunk (later.isEmpty && ended)) right := by
  have base := tracks.base_nonneg
  exact {
    tracks with
    absolute := by
      have same := tracks.absolute
      unfold Scan.absolute at same ⊢
      unfold intoNext Scan.begin
      dsimp only
      omega
    word := by
      rcases tracks.word with ⟨before, start, word⟩
      refine ⟨before ++ left.chunk.toList, ?_, ?_⟩
      · change left.base + left.position = _
        rw [ends, start]
        simp [Scan.size]
      · rw [word]
        simp [intoNext, Scan.begin]
    waits := rfl
    fresh := ⟨rfl, tracks.fresh.2⟩
    low := Int.le_refl 0
    high := Int.natCast_nonneg _
    frames := by
      intro frame member
      rcases tracks.frames frame member with ⟨positive, behind, own⟩
      refine ⟨positive, ?_, own⟩
      have size : 0 ≤ (chunk.size : Int) := Int.natCast_nonneg _
      change frame.position ≤ left.base + left.position + chunk.size
      omega }

theorem feeds_cons_iff {scan : Scan World} {chunk : Array Key} (unfinished : scan.done = false)
    (proper : machine.strayKey chunk = none)
    {outcome : Except Fault (Option ScanError × Scan World)} :
    machine.Feeds ended (chunk :: rest) scan outcome ↔
      match machine.pushAlternates (scan.begin chunk (rest.isEmpty && ended)) with
      | .ok (.ok (), after) => machine.Continues ended rest after outcome
      | .ok (.error problem, after) => outcome = .ok (some problem, after)
      | .error fault => fault ≠ .outOfFuel ∧ outcome = .error fault := by
  rw [feeds_iff unfinished proper]
  simp only [ends_driver_iff oblivious, ends_flagged_iff_pushed]
  generalize machine.pushAlternates (scan.begin chunk (rest.isEmpty && ended)) = pushed
  match pushed with
  | .ok (.ok (), after) =>
      exact ⟨fun ⟨_, loops, proceeds⟩ => continues_of_loops loops proceeds, loops_of_continues⟩
  | .ok (.error problem, after) =>
      constructor
      · rintro ⟨_, rfl, ⟨⟩⟩
        rfl
      · rintro rfl
        exact ⟨_, rfl, .problem⟩
  | .error fault =>
      constructor
      · rintro ⟨_, ⟨fueled, rfl⟩, ⟨⟩⟩
        exact ⟨fueled, rfl⟩
      · rintro ⟨fueled, rfl⟩
        exact ⟨_, ⟨fueled, rfl⟩, .fault⟩

/-- At the end of a chunk the scan goes on in the next call, as if nothing had happened. -/
theorem continues_iff_of_waiting {chunk : Array Key} {later : List (Array Key)}
    {left right : Scan World} (tracks : graph.Tracks ended (chunk :: later) left right)
    (ends : left.position = left.size) (proper : machine.strayKey chunk = none)
    {outcome : Except Fault (Option ScanError × Scan World)} :
    machine.Continues ended (chunk :: later) left outcome ↔
      machine.Continues ended later (intoNext left chunk (later.isEmpty && ended)) outcome := by
  have swept : ∃ result,
      machine.sweep left = .ok (.ok (.inr result), { left with resumed := true }) :=
    sweep_of_not_ended ends tracks.waits
  rcases swept with ⟨result, swept⟩
  have turned : machine.turn () left = .ok (.ok (.inr result), { left with resumed := true }) := by
    unfold turn
    rw [Step.bind_apply, swept]
    rfl
  have feeds : machine.Feeds ended (chunk :: later) { left with resumed := true } outcome ↔
      machine.Continues ended later (intoNext left chunk (later.isEmpty && ended)) outcome :=
    feeds_cons_iff oblivious (show ({ left with resumed := true } : Scan World).done = false from
      tracks.unfinished) proper
  rw [← feeds]
  constructor
  · intro continues
    cases continues with
    | turn other => cases turned.symm.trans other
    | leave other fed => cases turned.symm.trans other; exact fed
    | problem other => cases turned.symm.trans other
    | fault other => cases turned.symm.trans other
  · exact fun fed => .leave turned fed

/-- The scan of the whole input comes to the same end, unless an alternate is missed. -/
def Accords (machine : Machine World) (ended : Bool) (right : Scan World)
    (outcome : Except Fault (Option ScanError × Scan World)) : Prop :=
  Stale outcome ∨ ∃ whole, machine.Continues ended [] right whole ∧ EndsAlike outcome whole

omit oblivious in
theorem feeds_of_last {scan : Scan World} (last : rest = [] ∨ scan.done = true)
    {outcome : Except Fault (Option ScanError × Scan World)} :
    machine.Feeds ended rest scan outcome ↔ outcome = .ok (none, scan) := by
  rcases last with rfl | done
  · constructor
    · rintro ⟨⟩
      rfl
    · rintro rfl
      exact .nil
  · exact feeds_of_done done

/-- Rounds in a chunk are rounds in the whole input. -/
theorem accords_of_rounds (waiting : ∀ left right, graph.Tracks ended rest left right →
      ¬(rest = [] ∨ left.position ≠ left.size) → ∀ outcome,
        machine.Continues ended rest left outcome → machine.Accords ended right outcome)
    {left right : Scan World} (tracks : graph.Tracks ended rest left right)
    {outcome : Except Fault (Option ScanError × Scan World)}
    (continues : machine.Continues ended rest left outcome) :
    machine.Accords ended right outcome := by
  have going : ∀ {left right outcome}, graph.Tracks ended rest left right →
      machine.Continues ended rest left outcome →
      (Step.Joined (graph.Tracks ended rest) (Left graph ended rest) (machine.turn () left)
        (machine.turn () right) → machine.Accords ended right outcome) →
      machine.Accords ended right outcome := by
    intro left right outcome tracks continues goes
    by_cases isGoing : rest = [] ∨ left.position ≠ left.size
    · exact goes (joins_turn oblivious tracks isGoing)
    · exact waiting left right tracks isGoing outcome continues
  -- By induction on how the pieces go on; in each case the whole takes the same turn.
  induction continues generalizing right with
  | turn turned later induction =>
      refine going tracks (.turn turned later) fun joined => ?_
      rw [turned] at joined
      generalize otherTurned : machine.turn () right = other at joined
      cases joined with
      | @done _ otherValue _ _ leaves =>
          match otherValue, leaves with
          | .inl (), tracks =>
              rcases induction tracks with stale | ⟨whole, continues, alike⟩
              · exact .inl stale
              · exact .inr ⟨whole, .turn otherTurned continues, alike⟩
  | leave turned feeds =>
      refine going tracks (.leave turned feeds) fun joined => ?_
      rw [turned] at joined
      generalize otherTurned : machine.turn () right = other at joined
      cases joined with
      | @done _ otherValue _ _ leaves =>
          match otherValue, leaves with
          | .inr _, ⟨same, last⟩ =>
              cases (feeds_of_last last).mp feeds
              exact .inr ⟨_, .leave otherTurned .nil, .scans same⟩
  | problem turned =>
      refine going tracks (.problem turned) fun joined => ?_
      rw [turned] at joined
      generalize otherTurned : machine.turn () right = other at joined
      cases joined with
      | problem failing => exact .inr ⟨_, .problem otherTurned, .scans failing.toMatches⟩
      | stale => exact .inl ⟨_, _, _, rfl⟩
  | fault turned fueled =>
      refine going tracks (.fault turned fueled) fun joined => ?_
      rw [turned] at joined
      generalize otherTurned : machine.turn () right = other at joined
      cases joined with
      | fault alike =>
          exact .inr ⟨_, .fault otherTurned (alike.ne_outOfFuel.mp fueled), .faults alike⟩

theorem accords_of_continues (proper : ∀ chunk ∈ rest, machine.strayKey chunk = none)
    {left right : Scan World} (tracks : graph.Tracks ended rest left right)
    {outcome : Except Fault (Option ScanError × Scan World)}
    (continues : machine.Continues ended rest left outcome) :
    machine.Accords ended right outcome := by
  induction rest generalizing left right outcome with
  | nil =>
      refine accords_of_rounds oblivious (fun _ _ _ waits => ?_) tracks continues
      exact absurd (.inl rfl) waits
  | cons chunk later following =>
      refine accords_of_rounds oblivious
        (fun left right tracks waits outcome continues => ?_) tracks continues
      have ends : left.position = left.size := by
        by_contra inside
        exact waits (.inr inside)
      rw [continues_iff_of_waiting oblivious tracks ends (proper chunk (by simp))] at continues
      exact following (fun other member => proper other (by simp [member]))
        (tracks_intoNext tracks ends) continues

/-- The scan of pieces comes to the same end, unless an alternate is missed. -/
def Follows (machine : Machine World) (ended : Bool) (rest : List (Array Key)) (left : Scan World)
    (whole : Except Fault (Option ScanError × Scan World)) : Prop :=
  ∃ outcome, machine.Continues ended rest left outcome ∧ (Stale outcome ∨ EndsAlike outcome whole)

/-- However many chunks the scan waits for, it goes on in the end. -/
theorem follows_of_going {right : Scan World}
    {whole : Except Fault (Option ScanError × Scan World)}
    (going : ∀ rest left, (∀ chunk ∈ rest, machine.strayKey chunk = none) →
      Step.Joined (graph.Tracks ended rest) (Left graph ended rest) (machine.turn () left)
        (machine.turn () right) → machine.Follows ended rest left whole)
    (proper : ∀ chunk ∈ rest, machine.strayKey chunk = none) {left : Scan World}
    (tracks : graph.Tracks ended rest left right) : machine.Follows ended rest left whole := by
  induction rest generalizing left with
  | nil => exact going [] left proper (joins_turn oblivious tracks (.inl rfl))
  | cons chunk later following =>
      by_cases ends : left.position = left.size
      · rcases following (fun other member => proper other (by simp [member]))
          (tracks_intoNext tracks ends) with ⟨outcome, continues, alike⟩
        rw [← continues_iff_of_waiting oblivious tracks ends (proper chunk (by simp))] at continues
        exact ⟨outcome, continues, alike⟩
      · exact going _ left proper (joins_turn oblivious tracks (.inr ends))

theorem follows_of_continues {right : Scan World}
    {whole : Except Fault (Option ScanError × Scan World)}
    (continues : machine.Continues ended [] right whole)
    (proper : ∀ chunk ∈ rest, machine.strayKey chunk = none) {left : Scan World}
    (tracks : graph.Tracks ended rest left right) : machine.Follows ended rest left whole := by
  -- The chunks to come shrink when the pieces have to wait, so they are not fixed here.
  induction continues generalizing rest left with
  | turn otherTurned _ induction =>
      refine follows_of_going oblivious (fun rest left proper joined => ?_) proper tracks
      rw [otherTurned] at joined
      generalize turned : machine.turn () left = result at joined
      cases joined with
      | stale => exact ⟨_, .problem turned, .inl ⟨_, _, _, rfl⟩⟩
      | @done value _ _ _ leaves =>
          match value, leaves with
          | .inl (), tracks =>
              rcases induction proper tracks with ⟨outcome, continues, alike⟩
              exact ⟨outcome, .turn turned continues, alike⟩
  | leave otherTurned feeds =>
      refine follows_of_going oblivious (fun rest left proper joined => ?_) proper tracks
      rw [otherTurned] at joined
      generalize turned : machine.turn () left = result at joined
      cases joined with
      | stale => exact ⟨_, .problem turned, .inl ⟨_, _, _, rfl⟩⟩
      | @done value _ _ _ leaves =>
          match value, leaves with
          | .inr _, ⟨same, last⟩ =>
              cases (feeds_of_last (.inl rfl)).mp feeds
              exact ⟨_, .leave turned ((feeds_of_last last).mpr rfl), .inr (.scans same)⟩
  | problem otherTurned =>
      refine follows_of_going oblivious (fun rest left proper joined => ?_) proper tracks
      rw [otherTurned] at joined
      generalize turned : machine.turn () left = result at joined
      cases joined with
      | stale => exact ⟨_, .problem turned, .inl ⟨_, _, _, rfl⟩⟩
      | problem failing => exact ⟨_, .problem turned, .inr (.scans failing.toMatches)⟩
  | fault otherTurned fueled =>
      refine follows_of_going oblivious (fun rest left proper joined => ?_) proper tracks
      rw [otherTurned] at joined
      generalize turned : machine.turn () left = result at joined
      cases joined with
      | stale => exact ⟨_, .problem turned, .inl ⟨_, _, _, rfl⟩⟩
      | fault alike =>
          exact ⟨_, .fault turned (alike.ne_outOfFuel.mpr fueled), .inr (.faults alike)⟩

omit oblivious in
theorem tracks_start (machine : Machine World) (world : World) (ended : Bool)
    (first : Array Key) (rest : List (Array Key)) :
    graph.Tracks ended rest ((machine.start world).begin first (rest.isEmpty && ended))
      ((machine.start world).begin ((first :: rest).flatMap Array.toList).toArray ended) where
  state := rfl
  absolute := rfl
  accepted := rfl
  rejected := rfl
  calls := rfl
  alternates := rfl
  trace := rfl
  world := rfl
  start := rfl
  word := ⟨[], rfl, by simp [Scan.begin]⟩
  waits := rfl
  ends := rfl
  fresh := ⟨rfl, rfl⟩
  unfinished := rfl
  low := Int.le_refl 0
  high := Int.natCast_nonneg _
  frames frame member := by simp [Scan.begin, Machine.start, FrameStack.empty] at member

/-- A machine whose callbacks cannot tell chunks makes the same of pieces and of the whole. -/
theorem feeds_pieces {first : Array Key}
    (proper : ∀ chunk ∈ first :: rest, machine.strayKey chunk = none)
    {word : Array Key} (joined : word = ((first :: rest).flatMap Array.toList).toArray)
    (properWord : machine.strayKey word = none) (world : World) :
    (∀ outcome, machine.Feeds ended (first :: rest) (machine.start world) outcome →
      Stale outcome ∨ ∃ whole, machine.Feeds ended [word] (machine.start world) whole ∧
        EndsAlike outcome whole) ∧
    ∀ whole, machine.Feeds ended [word] (machine.start world) whole →
      ∃ outcome, machine.Feeds ended (first :: rest) (machine.start world) outcome ∧
        (Stale outcome ∨ EndsAlike outcome whole) := by
  have tracks : graph.Tracks ended rest _ _ := tracks_start machine world ended first rest
  rw [← joined] at tracks
  have pushes := couples_pushAlternates oblivious _ _ tracks
  have later : ∀ chunk ∈ rest, machine.strayKey chunk = none :=
    fun chunk member => proper chunk (by simp [member])
  have unfinished : (machine.start world).done = false := rfl
  have pieces : ∀ outcome, machine.Feeds ended (first :: rest) (machine.start world) outcome ↔ _ :=
    fun _ => feeds_cons_iff oblivious unfinished (proper first (by simp))
  have wholes : ∀ whole, machine.Feeds ended [word] (machine.start world) whole ↔ _ :=
    fun _ => feeds_cons_iff oblivious unfinished properWord
  simp only [List.isEmpty_nil, Bool.true_and] at wholes
  simp only [pieces, wholes]
  generalize
    machine.pushAlternates ((machine.start world).begin first (rest.isEmpty && ended)) = pushed,
    machine.pushAlternates ((machine.start world).begin word ended) = otherPushed at pushes
  cases pushes with
  | done both =>
      exact ⟨fun outcome continues => accords_of_continues oblivious later both.2 continues,
        fun whole continues => follows_of_continues oblivious continues later both.2⟩
  | problem failing =>
      constructor
      · rintro _ rfl
        exact .inr ⟨_, rfl, .scans failing.toMatches⟩
      · rintro _ rfl
        exact ⟨_, rfl, .inr (.scans failing.toMatches)⟩
  | fault alike =>
      constructor
      · rintro _ ⟨fueled, rfl⟩
        exact .inr ⟨_, ⟨alike.ne_outOfFuel.mp fueled, rfl⟩, .faults alike⟩
      · rintro _ ⟨fueled, rfl⟩
        exact ⟨_, ⟨alike.ne_outOfFuel.mpr fueled, rfl⟩, .inr (.faults alike)⟩
  | stale =>
      constructor
      · rintro _ rfl
        exact .inl ⟨_, _, _, rfl⟩
      · exact fun _ _ => ⟨_, rfl, .inl ⟨_, _, _, rfl⟩⟩

end Oblivious

theorem Feeds.transfer {other : Machine World} {property : Scan World → Prop}
    (same : ∀ scan, property scan → ∀ fuel chunk ended,
      machine.execute fuel scan chunk ended = other.execute fuel scan chunk ended)
    (keeps : ∀ scan, property scan → ∀ fuel chunk ended report after,
      machine.execute fuel scan chunk ended = .ok (report, after) → property after)
    {chunks : List (Array Key)} {scan : Scan World} (holds : property scan)
    {outcome : Except Fault (Option ScanError × Scan World)}
    (feeds : machine.Feeds ended chunks scan outcome) : other.Feeds ended chunks scan outcome := by
  have gives : ∀ {scan chunk ended outcome}, property scan →
      machine.Gives scan chunk ended outcome → other.Gives scan chunk ended outcome := by
    rintro scan chunk ended outcome holds ⟨fueled, fuel, executed⟩
    exact ⟨fueled, fuel, (same scan holds fuel chunk ended).symm.trans executed⟩
  induction feeds with
  | nil => exact .nil
  | fault given => exact .fault (gives holds given)
  | problem given => exact .problem (gives holds given)
  | next given _ induction =>
      refine .next (gives holds given) (induction ?_)
      rcases given with ⟨_, fuel, executed⟩
      exact keeps _ holds _ _ _ _ _ executed

end Machine

theorem Machine.strayKey_eq_none {World : Type} {machine : Machine World} {chunk : Array Key}
    (contained : ∀ key ∈ chunk, machine.program.alphabet.contains key = true) :
    machine.strayKey chunk = none := by
  have nowhere : chunk.findIdx? (fun key => !machine.program.alphabet.contains key) = none := by
    rw [Array.findIdx?_eq_none_iff]
    intro key member
    simp [contained key member]
  rw [strayKey, nowhere]

namespace Graph

/-- Of a graph whose actions neither hold back a key nor stop the scan, with callbacks that cannot
tell chunks, input comes to the same in any number of pieces and as a whole: to the same error or to
none, with the same trace, state, acceptance, stacks, absolute position and world. Only an alternate
that was pushed in an earlier chunk may be missed. If the scan of the whole input comes to an end,
then so does that of the pieces. The draft of the graph names only condition spaces of its own. -/
theorem pieces_end_like_whole {World : Type} {graph : Graph} (built : graph.Built)
    (calm : ∀ action ∈ graph.actions, action.kind ≠ .hold ∧ action.kind ≠ .stop)
    {encodingOptions : EncodingOptions} {encoding : Encoding}
    (encoded : graph.encode encodingOptions = .ok encoding) {options : MachineOptions}
    {bindings : Bindings World} {machine : Machine World}
    (created : Machine.create encoding.program options bindings = .ok machine)
    (observant : machine.Observant graph) (world : World) (ended : Bool)
    {chunks : List (Array Key)} (inhabited : chunks ≠ [])
    (proper : ∀ chunk ∈ chunks, ∀ key ∈ chunk, graph.alphabet.contains key = true)
    {word : Array Key} (joined : word = (chunks.flatMap Array.toList).toArray) :
    (∀ outcome, machine.Feeds ended chunks (machine.start world) outcome →
      Machine.Stale outcome ∨ ∃ whole, machine.Feeds ended [word] (machine.start world) whole ∧
        Machine.EndsAlike outcome whole) ∧
    ∀ whole, machine.Feeds ended [word] (machine.start world) whole →
      ∃ outcome, machine.Feeds ended chunks (machine.start world) outcome ∧
        (Machine.Stale outcome ∨ Machine.EndsAlike outcome whole) := by
  have same := fun scan (confines : graph.Confines scan) =>
    execute_eq_running built encoded created confines
  have keeps := fun scan (confines : graph.Confines scan) fuel chunk ended =>
    ((executes_running built encoded created).execute confines fuel chunk ended).1
  have start : graph.Confines (machine.start world) :=
    confines_of_reaches built encoded created (.start world)
  have feeds : ∀ chunks outcome, machine.Feeds ended chunks (machine.start world) outcome ↔
      (machine.running graph.program).Feeds ended chunks (machine.start world) outcome := by
    intro chunks outcome
    constructor
    · refine Machine.Feeds.transfer same (fun scan confines fuel chunk ended => ?_) start
      rw [same scan confines]
      exact keeps scan confines fuel chunk ended
    · exact Machine.Feeds.transfer (fun scan confines fuel chunk ended =>
        (same scan confines fuel chunk ended).symm) keeps start
  have oblivious : (machine.running graph.program).Oblivious graph :=
    ⟨carries_running built encoded machine,
      ⟨observant.hooks, observant.conditions, observant.unseeing⟩, calm⟩
  cases chunks with
  | nil => exact absurd rfl inhabited
  | cons first rest =>
      have whole : ∀ key ∈ word, graph.alphabet.contains key = true := by
        intro key member
        rw [joined, List.mem_toArray, List.mem_flatMap] at member
        rcases member with ⟨chunk, isChunk, inside⟩
        exact proper chunk isChunk key (by simpa using inside)
      simp only [feeds]
      rw [← Machine.start_running (machine_agrees built encoded created) world]
      exact Machine.feeds_pieces oblivious
        (fun chunk member => Machine.strayKey_eq_none (proper chunk member)) joined
        (Machine.strayKey_eq_none whole) world

end Graph

namespace Sample

theorem hook_eq {name : String} {hook : Callback Nat HookAnswer}
    (found : bindings.hook? name = some hook) : hook = fun _ notes => .ok (.done, notes + 1) := by
  by_cases isNote : name = "note"
  · subst isNote
    cases found
    rfl
  · simp [Bindings.hook?, Bindings.lookup, bindings, Binding.isFor, Binding.kind, Ne.symm isNote]
      at found

theorem condition_eq {name : String} {condition : Callback Nat Bool}
    (found : bindings.condition? name = some condition) : condition = fun view notes => do
      return ((← view.key).signedValue % 2 == 0, notes) := by
  by_cases isEven : name = "even"
  · subst isEven
    cases found
    rfl
  · simp [Bindings.condition?, Bindings.lookup, bindings, Binding.isFor, Binding.kind,
      Ne.symm isEven] at found

theorem observant_of_create {program : Program} {machine : Machine Nat}
    (created : Machine.create program machineOptions bindings = .ok machine) :
    machine.Observant graph := by
  have made := Machine.created_of_create created
  refine ⟨?_, ?_, ?_⟩
  · intro hook member left right _ _ world
    rw [made.hooks] at member
    rcases Array.mem_map.mp member with ⟨action, _, bound⟩
    split at bound
    next =>
      rw [hook_eq bound]
      exact .refl _
    next => cases bound
  · intro conditions own condition member left right _ same world
    rw [made.conditions] at own
    simp only [Array.mem_map] at own
    rcases own with ⟨_, ⟨space, _, rfl⟩, rfl⟩
    rcases List.mem_filterMap.mp member with ⟨name, _, bound⟩
    rw [condition_eq bound]
    exact (Machine.answersAlike_key same).bind _
  · intro state member alternate own id inside
    have inert : ∀ state ∈ graph.states, ∀ alternate ∈ state.alternates,
        graph.actionsOf alternate.push ++ graph.actionsOf alternate.popTest = [] := by
      decide +kernel
    rw [inert state member alternate own] at inside
    cases inside

def pieces : List (Array Key) :=
  [#[], #[.ofInt 30, .ofInt (-5)]]

def afterPieces? : Option (Scan Nat) := do
  let encoding ← (graph.encode options).toOption
  let machine ← (Machine.create encoding.program machineOptions bindings).toOption
  let first ← (machine.execute 16 (machine.start 0) #[] false).toOption
  let second ← (machine.execute 16 first.2 #[.ofInt 30, .ofInt (-5)] true).toOption
  if first.1.error = none ∧ second.1.error = none then some second.2 else none

theorem exists_fed : ∃ encoding machine after,
    graph.encode options = .ok encoding ∧
      Machine.create encoding.program machineOptions bindings = .ok machine ∧
      machine.Feeds true pieces (machine.start 0) (.ok (none, after)) ∧ after.accepted = true := by
  have accepted : afterPieces?.any (·.accepted) = true := by decide +kernel
  rw [Option.any_eq_true] at accepted
  rcases accepted with ⟨after, found, accepted⟩
  simp only [afterPieces?, bind, Option.bind_eq_some_iff, toOption_eq_some] at found
  rcases found with ⟨encoding, encoded, machine, created, ⟨⟨_, problem⟩, between⟩, opened,
    ⟨⟨_, lastProblem⟩, last⟩, closed, found⟩
  split at found
  next fine =>
    cases found
    rcases fine with ⟨⟨⟩, ⟨⟩⟩
    refine ⟨encoding, machine, _, encoded, created, ?_, accepted⟩
    exact .next ⟨by simp, 16, opened⟩ (.next ⟨by simp, 16, closed⟩ .nil)
  next => cases found

end Sample

/-- The sample accepts its input in two chunks, and so as a whole. -/
theorem pieces_end_like_whole_sample : ∃ encoding machine outcome whole,
    Sample.graph.encode Sample.options = .ok encoding ∧
      Machine.create encoding.program Sample.machineOptions Sample.bindings = .ok machine ∧
      machine.Feeds true Sample.pieces (machine.start 0) outcome ∧
      machine.Feeds true [#[.ofInt 30, .ofInt (-5)]] (machine.start 0) whole ∧
      Machine.EndsAlike outcome whole := by
  rcases Sample.exists_fed with ⟨encoding, machine, after, encoded, created, feeds, _⟩
  have joined : #[.ofInt 30, .ofInt (-5)] = (Sample.pieces.flatMap Array.toList).toArray := rfl
  have alike := (Graph.pieces_end_like_whole Sample.built_graph (by decide +kernel) encoded created
    (Sample.observant_of_create created) 0 true (by decide) (by decide +kernel) joined).1 _ feeds
  rcases alike with ⟨_, _, _, stale⟩ | ⟨whole, fed, alike⟩
  · cases stale
  · exact ⟨encoding, machine, _, whole, encoded, created, feeds, fed, alike⟩

end StateTables
