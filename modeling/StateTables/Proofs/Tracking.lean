import StateTables.Proofs.Coupling

/-! # A scan in a chunk beside one in the whole input

Two scans go through the same input, one of them with only a chunk of it at hand. As long as
the first stays in its chunk, every round does the same to both, except that an alternate may
have been left behind in an earlier chunk. At the end of a chunk the scan waits with the
alternates of its state pushed already, where the scan of the whole input simply goes on.
-/

namespace StateTables

open Step (Joins Same Couples)

/-- The callbacks of the machine see the state, the absolute position, what was accepted, the depths
of the stacks and the trace, and the key where there is one. Those that are called when alternates
are pushed or tested do not look at the key. -/
structure Machine.Observant {World : Type} (machine : Machine World) (graph : Graph) : Prop where
  hooks : ∀ hook, some hook ∈ machine.hooks → ∀ left right : View, left.Corresponds right →
    left.key? = right.key? → hook.Confuses left right
  conditions : ∀ conditions ∈ machine.conditions, ∀ condition ∈ conditions,
    ∀ left right : View, left.Corresponds right → left.key? = right.key? →
      condition.Confuses left right
  unseeing : ∀ state ∈ graph.states, ∀ alternate ∈ state.alternates,
    ∀ id ∈ graph.actionsOf alternate.push ++ graph.actionsOf alternate.popTest,
      ∀ hook, machine.hooks[id]?.join = some hook → ∀ left right : View, left.Corresponds right →
        hook.Confuses left right

/-! ## A chunk of the whole input -/

/-- The first scan is in a chunk, with some chunks to come, where the second one is in the whole
input. -/
structure Graph.Tracks {World : Type} (graph : Graph) (ended : Bool) (rest : List (Array Key))
    (left right : Scan World) : Prop extends left.Matches right where
  start : right.base = 0
  word : ∃ before : List Key, left.base = before.length ∧
    right.chunk.toList = before ++ (left.chunk.toList ++ rest.flatMap Array.toList)
  waits : left.ended = (rest.isEmpty && ended)
  ends : right.ended = ended
  fresh : left.resumed = false ∧ right.resumed = false
  unfinished : left.done = false
  low : 0 ≤ left.position
  high : left.position ≤ left.size
  frames : ∀ frame ∈ left.alternates.frames, 0 ≤ frame.position ∧
    frame.position ≤ left.base + left.size ∧ ∃ state ∈ graph.states,
      ∃ alternate ∈ state.alternates, frame.popTest = graph.location alternate.popTest

namespace Graph

variable {World : Type} {graph : Graph} {ended : Bool} {rest : List (Array Key)}
  {left right : Scan World}

/-- What holds of where two scans stand is kept by steps that keep them there. -/
theorem coupling_tracks (graph : Graph) (ended : Bool) (rest : List (Array Key)) :
    Coupling fun left right : Scan World => graph.Tracks ended rest left right where
  same tracks := tracks.toMatches
  keeps tracks stays otherStays same := {
    same with
    start := by rw [otherStays.base, tracks.start]
    word := by rw [stays.base, stays.chunk, otherStays.chunk]; exact tracks.word
    waits := by rw [stays.ended]; exact tracks.waits
    ends := by rw [otherStays.ended]; exact tracks.ends
    fresh := by rw [stays.resumed, otherStays.resumed]; exact tracks.fresh
    unfinished := by rw [stays.done]; exact tracks.unfinished
    low := by rw [stays.position]; exact tracks.low
    high := by
      unfold Scan.size
      rw [stays.position, stays.chunk]
      exact tracks.high
    frames := by
      unfold Scan.size
      rw [stays.alternates, stays.base, stays.chunk]
      exact tracks.frames }

theorem Tracks.base_nonneg (tracks : graph.Tracks ended rest left right) : 0 ≤ left.base := by
  rcases tracks.word with ⟨before, base, _⟩
  omega

theorem Tracks.position_eq (tracks : graph.Tracks ended rest left right) :
    right.position = left.base + left.position := by
  have absolute := tracks.absolute
  have start := tracks.start
  unfold Scan.absolute at absolute
  omega

theorem Tracks.size_eq (tracks : graph.Tracks ended [] left right) :
    right.size = left.base + left.size := by
  rcases tracks.word with ⟨before, base, word⟩
  have lengths := congrArg List.length word
  simp at lengths
  unfold Scan.size
  omega

theorem Tracks.size_le (tracks : graph.Tracks ended rest left right) :
    left.base + left.size ≤ right.size := by
  rcases tracks.word with ⟨before, base, word⟩
  have lengths := congrArg List.length word
  simp at lengths
  unfold Scan.size
  omega

theorem Tracks.ended_eq (tracks : graph.Tracks ended [] left right) : left.ended = right.ended := by
  rw [tracks.waits, tracks.ends]
  rfl

theorem Tracks.key_eq (tracks : graph.Tracks ended rest left right)
    (inside : left.position < left.size) : left.view.key? = right.view.key? := by
  rcases tracks.word with ⟨before, base, word⟩
  rcases Int.eq_ofNat_of_zero_le tracks.low with ⟨index, here⟩
  have there : right.position = ((before.length + index : Nat) : Int) := by
    rw [tracks.position_eq, base, here]
    simp
  have bound : index < left.chunk.size := by
    unfold Scan.size at inside
    omega
  have leftHere : left.view.position = .ofNat index := here
  have rightThere : right.view.position = .ofNat (before.length + index) := there
  rw [View.key?, View.key?, leftHere, rightThere]
  change left.chunk[index]? = right.chunk[before.length + index]?
  have whole : right.chunk[before.length + index]? =
      (left.chunk.toList ++ rest.flatMap Array.toList)[index]? := by
    rw [← Array.getElem?_toList, word, List.getElem?_append_right (Nat.le_add_right _ _),
      Nat.add_sub_cancel_left]
  rw [whole, List.getElem?_append_left (by simpa using bound), Array.getElem?_toList]

theorem View.key?_eq_none {view : View} (ends : view.position = view.chunk.size) :
    view.key? = none := by
  unfold View.key?
  rw [ends]
  simp

structure Reads (graph : Graph) (ended : Bool) (rest : List (Array Key))
    (left right : Scan World) : Prop extends graph.Tracks ended rest left right where
  inside : left.position < left.size

structure Closes (graph : Graph) (ended : Bool) (left right : Scan World) : Prop extends
    graph.Tracks ended [] left right where
  last : left.position = left.size

theorem coupling_reads (graph : Graph) (ended : Bool) (rest : List (Array Key)) :
    Coupling fun left right : Scan World => graph.Reads ended rest left right where
  same reads := reads.toMatches
  keeps reads stays otherStays same := {
    (graph.coupling_tracks ended rest).keeps reads.toTracks stays otherStays same with
    inside := by
      unfold Scan.size
      rw [stays.position, stays.chunk]
      exact reads.inside }

theorem coupling_closes (graph : Graph) (ended : Bool) :
    Coupling fun left right : Scan World => graph.Closes ended left right where
  same closes := closes.toMatches
  keeps closes stays otherStays same := {
    (graph.coupling_tracks ended []).keeps closes.toTracks stays otherStays same with
    last := by
      unfold Scan.size
      rw [stays.position, stays.chunk]
      exact closes.last }

theorem Closes.position_eq_size (closes : graph.Closes ended left right) :
    right.position = right.size := by
  rw [closes.toTracks.position_eq, closes.toTracks.size_eq, closes.last]

theorem Closes.key_eq (closes : graph.Closes ended left right) :
    left.view.key? = right.view.key? := by
  have last : left.view.position = left.view.chunk.size := closes.last
  have otherLast : right.view.position = right.view.chunk.size := closes.position_eq_size
  rw [View.key?_eq_none last, View.key?_eq_none otherLast]

def Pends (graph : Graph) (ended : Bool) (rest : List (Array Key)) (frames : List Frame)
    (left right : Scan World) : Prop :=
  graph.Tracks ended rest left right ∧ left.alternates.frames = frames

theorem coupling_pends (graph : Graph) (ended : Bool) (rest : List (Array Key))
    (frames : List Frame) :
    Coupling fun left right : Scan World => graph.Pends ended rest frames left right where
  same pends := pends.1.toMatches
  keeps pends stays otherStays same :=
    ⟨(graph.coupling_tracks ended rest).keeps pends.1 stays otherStays same,
      stays.alternates.symm ▸ pends.2⟩

end Graph

namespace Machine

variable {World : Type} {machine : Machine World} {graph : Graph} {ended : Bool}
  {rest : List (Array Key)}

/-- The machine executes a graph that neither holds back nor stops, with callbacks that cannot tell
chunks. -/
structure Oblivious (machine : Machine World) (graph : Graph) : Prop extends
    machine.Carries graph where
  observant : machine.Observant graph
  calm : ∀ action ∈ graph.actions, action.kind ≠ .hold ∧ action.kind ≠ .stop

section Oblivious

variable (oblivious : machine.Oblivious graph)
include oblivious

theorem confounded_of_coupling {related : Scan World → Scan World → Prop}
    (coupling : Coupling related)
    (keys : ∀ left right, related left right → left.view.key? = right.view.key?) :
    machine.Confounded related where
  toCoupling := coupling
  calm := by
    rw [oblivious.program]
    exact oblivious.calm
  hooks hook bound left right both :=
    oblivious.observant.hooks hook bound _ _ (coupling.same both).corresponds (keys left right both)
  conditions conditions own condition member left right both :=
    oblivious.observant.conditions conditions own condition member _ _
      (coupling.same both).corresponds (keys left right both)
  keys := keys

theorem confounded_reads (ended : Bool) (rest : List (Array Key)) :
    machine.Confounded (graph.Reads ended rest) :=
  confounded_of_coupling oblivious (graph.coupling_reads ended rest) fun _ _ reads =>
    reads.toTracks.key_eq reads.inside

theorem confounded_closes : machine.Confounded (graph.Closes ended) :=
  confounded_of_coupling oblivious (graph.coupling_closes ended) fun _ _ closes => closes.key_eq

/-! ## Alternates -/

theorem couples_unseeing {related : Scan World → Scan World → Prop} (coupling : Coupling related)
    {state : State} (member : state ∈ graph.states) {alternate : Alternate}
    (own : alternate ∈ state.alternates) {list : Option Nat}
    (isOne : list = alternate.push ∨ list = alternate.popTest) :
    Couples related (machine.runList (graph.location list)) := by
  rw [oblivious.runList_location]
  apply couples_runActions coupling
  · rw [oblivious.program]
    exact oblivious.calm
  · intro id inside hook bound left right both
    refine oblivious.observant.unseeing state member alternate own id ?_ hook bound _ _
      (coupling.same both).corresponds
    rcases isOne with rfl | rfl
    · exact List.mem_append_left _ inside
    · exact List.mem_append_right _ inside

theorem couples_pushAlternate {state : State} (member : state ∈ graph.states)
    {alternate : Alternate} (own : alternate ∈ state.alternates) :
    Couples (graph.Tracks ended rest) (machine.pushAlternate ⟨alternate.target,
      graph.location alternate.push, graph.location alternate.popTest⟩) := by
  unfold pushAlternate
  apply Joins.getBind
  intro left right tracks
  rw [← tracks.alternates, ← tracks.absolute]
  cases pushed : left.alternates.push? _ with
  | none =>
      dsimp only
      rw [← tracks.state]
      split
      next => exact fun _ _ _ => .fault (.refl _)
      next => exact .throw fun _ _ => id
  | some alternates =>
      have next : graph.Tracks ended rest { left with alternates := alternates }
          { right with alternates := alternates } := {
        tracks with
        alternates := rfl
        frames := by
          intro frame inside
          rcases FrameStack.mem_of_push? pushed inside with rfl | old
          · have base := tracks.base_nonneg
            have low := tracks.low
            have high := tracks.high
            refine ⟨?_, ?_, state, member, alternate, own, rfl⟩
            · change 0 ≤ left.base + left.position
              omega
            · change left.base + left.position ≤ left.base + left.size
              omega
          · exact tracks.frames frame old }
      apply Joins.setBind next
      apply (couples_record (graph.coupling_tracks ended rest) .push alternate.target 0).bind
      intro _
      exact (couples_unseeing oblivious (graph.coupling_tracks ended rest) member own
        (.inl rfl)).discard

theorem couples_pushAll {state : State} (member : state ∈ graph.states)
    {alternates : List Alternate} (own : ∀ alternate ∈ alternates, alternate ∈ state.alternates) :
    Couples (graph.Tracks ended rest) (machine.pushAll (alternates.map fun alternate =>
      ⟨alternate.target, graph.location alternate.push, graph.location alternate.popTest⟩)) := by
  induction alternates with
  | nil => exact .pure fun _ _ tracks => ⟨rfl, tracks⟩
  | cons first later induction =>
      apply (couples_pushAlternate oblivious member (own first (by simp))).bind
      intro _
      exact induction fun alternate inside => own alternate (by simp [inside])

theorem couples_pushAlternates : Couples (graph.Tracks ended rest) machine.pushAlternates := by
  unfold pushAlternates
  apply Joins.getBind
  intro left right tracks
  rw [tracks.fresh.1, tracks.fresh.2, ← tracks.state, oblivious.program]
  apply (Joins.ask (graph.program.alternates left.state)).bind
  intro pending
  apply Joins.given
  intro asked
  rcases map_eq_ok.mp asked with ⟨state, read, rfl⟩
  exact couples_pushAll oblivious (Graph.mem_of_part read) fun _ => id

/-! ## Ends of paths -/

omit oblivious in
/-- Only in the last chunk, or in the error state, do both paths end the same way. -/
theorem tracks_pathEnded {left right : Scan World} (tracks : graph.Tracks ended rest left right)
    (settled : rest = [] ∨ left.inError machine.program = true) :
    graph.Tracks ended rest (machine.pathEnded left) (machine.pathEnded right) := by
  have error : left.inError machine.program = right.inError machine.program := by
    unfold Scan.inError
    rw [tracks.state]
  have sameTest : (left.ended && left.position == left.size &&
        decide (machine.program.firstFinal ≤ left.state) && !left.inError machine.program) =
      (right.ended && right.position == right.size &&
        decide (machine.program.firstFinal ≤ right.state) && !right.inError machine.program) := by
    rcases settled with rfl | inError
    · have position := tracks.position_eq
      have size := tracks.size_eq
      have ends : (left.position == left.size) = (right.position == right.size) := by
        rw [Bool.eq_iff_iff, beq_iff_eq, beq_iff_eq]
        omega
      rw [error, ends, tracks.state, tracks.ended_eq]
    · rw [← error, inError]
      simp
  unfold pathEnded
  rw [sameTest]
  split
  next => exact { tracks with accepted := rfl }
  next => exact tracks

def testAlternate (machine : Machine World) (frame : Frame) : Step World Bool := do
  machine.record .pop frame.state.toNat frame.popTest.toNat
  discard (machine.runList frame.popTest.toNat)
  return !(← get).rejected

omit oblivious in
theorem enterAlternate_of_lt {frame : Frame} {scan : Scan World}
    (gone : frame.position < scan.base) :
    machine.enterAlternate frame scan =
      .ok (.error (.staleAlternate frame.position scan.base), scan) := by
  unfold enterAlternate
  rw [Step.bind_apply]
  change (if frame.position < scan.base then _ else _ : Step World Bool) scan = _
  rw [if_pos gone]
  rfl

omit oblivious in
theorem enterAlternate_of_le {frame : Frame} {scan : Scan World}
    (here : scan.base ≤ frame.position) :
    machine.enterAlternate frame scan = machine.testAlternate frame { scan with
      state := frame.state.toNat
      position := frame.position - scan.base
      rejected := false } := by
  unfold enterAlternate
  rw [Step.bind_apply]
  change (if frame.position < scan.base then _ else _ : Step World Bool) scan = _
  rw [if_neg (by omega)]
  rfl

/-- An alternate of an earlier chunk is missed; any other is entered by both scans. -/
theorem joins_enterAlternate {frame : Frame} {frames : List Frame} {left right : Scan World}
    (tracks : graph.Tracks ended rest left right)
    (holds : left.alternates.frames = frame :: frames) :
    Step.Joined (graph.Tracks ended rest) (Same fun _ => graph.Pends ended rest frames)
      (machine.enterAlternate frame left.dropAlternate)
      (machine.enterAlternate frame right.dropAlternate) := by
  rcases tracks.frames frame (by simp [holds]) with
    ⟨positive, behind, state, member, alternate, own, place⟩
  rw [Scan.dropAlternate_eq holds, Scan.dropAlternate_eq (tracks.alternates ▸ holds)]
  rcases Int.lt_or_le frame.position left.base with gone | here
  · -- The alternate was pushed in an earlier chunk, which is no longer there.
    rw [enterAlternate_of_lt (by exact gone)]
    exact .stale
  · have start := tracks.start
    rw [enterAlternate_of_le (by exact here), enterAlternate_of_le (by dsimp only; omega)]
    have coupling :
        Coupling fun left right : Scan World => graph.Pends ended rest frames left right :=
      graph.coupling_pends ended rest frames
    have tests : Couples (graph.Pends ended rest frames) (machine.testAlternate frame) := by
      apply (couples_record coupling .pop _ _).bind
      intro _
      rw [place, Int.toNat_natCast]
      apply (couples_unseeing oblivious coupling member own (.inr rfl)).discard.bind
      intro _ left right pends
      exact .done ⟨congrArg not pends.1.rejected, pends⟩
    refine tests.failing (fun _ _ pends => pends.1) _ _ ⟨?_, rfl⟩
    exact { tracks with
      state := rfl
      rejected := rfl
      alternates := by rw [tracks.alternates]
      absolute := by
        unfold Scan.absolute
        dsimp only
        omega
      low := by
        dsimp only
        omega
      high := by
        change frame.position - left.base ≤ left.size
        omega
      frames := fun other inside =>
        tracks.frames other (by simp [holds, show other ∈ frames from inside]) }

theorem joins_popAlternates (settled : rest = [] ∨ machine.program.error.isSome = true)
    (frames : List Frame) :
    Joins (graph.Tracks ended rest) (graph.Pends ended rest frames) (machine.popAlternates frames)
      (machine.popAlternates frames) (Same fun _ => graph.Tracks ended rest) := by
  induction frames with
  | nil => exact .pure fun _ _ pends => ⟨rfl, pends.1⟩
  | cons frame later induction =>
      have enters : Joins (graph.Tracks ended rest) (graph.Pends ended rest (frame :: later))
          (modify Scan.dropAlternate >>= fun _ => machine.enterAlternate frame)
          (modify Scan.dropAlternate >>= fun _ => machine.enterAlternate frame)
          (Same fun _ => graph.Pends ended rest later) :=
        fun left right pends => joins_enterAlternate oblivious pends.1 pends.2
      unfold popAlternates
      rw [← bind_assoc]
      apply enters.bind
      intro entered
      cases entered with
      | true => exact .pure fun _ _ pends => ⟨rfl, pends.1⟩
      | false =>
          refine Joins.bind (.modify fun left right pends => ?_) fun _ => induction
          have rejected : graph.Tracks ended rest
              { left with state := machine.program.error.getD left.state }
              { right with state := machine.program.error.getD right.state } :=
            { pends.1 with state := by dsimp only; rw [pends.1.state] }
          refine ⟨tracks_pathEnded rejected (settled.imp id fun error => ?_), ?_⟩
          · rcases Option.isSome_iff_exists.mp error with ⟨state, isError⟩
            simp [Scan.inError, isError]
          · rw [pathEnded_alternates]
            exact pends.2

theorem joins_endPath :
    Joins (graph.Tracks ended rest) (fun left right => graph.Tracks ended rest left right ∧
        (rest = [] ∨ left.inError machine.program = true))
      machine.endPath machine.endPath (Same fun _ => graph.Tracks ended rest) := by
  rintro left right ⟨tracks, settled⟩
  have ended := tracks_pathEnded tracks settled
  have possible : rest = [] ∨ machine.program.error.isSome = true := by
    refine settled.imp id fun inError => ?_
    unfold Scan.inError at inError
    rw [beq_iff_eq.mp inError]
    rfl
  have pops := joins_popAlternates oblivious possible _ _ _ ⟨ended, rfl⟩
  have same := ended.alternates
  change Step.Joined _ _ (machine.popAlternates (machine.pathEnded left).alternates.frames _)
    (machine.popAlternates (machine.pathEnded right).alternates.frames _)
  rw [← same]
  exact pops

/-! ## Rounds -/

omit oblivious in
theorem clampPosition_of_inside {scan : Scan World} (low : 0 ≤ scan.position)
    (high : scan.position ≤ scan.size) : clampPosition scan = scan := by
  unfold clampPosition
  rw [if_neg (by omega), if_neg (by omega)]

theorem joins_endInput : Couples (graph.Closes ended) machine.endInput := by
  unfold endInput
  apply Joins.getBind
  intro left right closes
  rw [← closes.state]
  apply (couples_record (graph.coupling_closes ended) .eof left.state 0).bind
  intro _
  apply (couples_ask (machine.program.eofTransition left.state)).bind
  intro transition?
  cases transition? with
  | some transition =>
      have clamped : ∀ left right, graph.Closes ended left right →
          graph.Closes ended (clampPosition left) (clampPosition right : Scan World) := by
        intro left right closes
        have nonneg : 0 ≤ right.size := Int.natCast_nonneg _
        have ends := closes.position_eq_size
        rw [clampPosition_of_inside closes.low closes.high,
          clampPosition_of_inside (by omega) (by omega)]
        exact closes
      have again : Couples (graph.Closes ended) (Step.ensuring machine.again clampPosition) :=
        (couples_again (confounded_closes oblivious)).ensuring (fun _ => clamped) clamped
      apply (couples_take (confounded_closes oblivious) transition).discard.bind
      intro _
      apply again.discard.bind
      exact fun _ => .pure fun _ _ closes => ⟨rfl, closes⟩
  | none =>
      have placed : ∀ left right : Scan World, graph.Closes ended left right →
          graph.Closes ended { left with position := left.size }
            { right with position := right.size } := by
        intro left right closes
        rw [← closes.last, ← closes.position_eq_size]
        exact closes
      have ended := (couples_runEofActions (confounded_closes oblivious)).ensuring (fun _ => placed)
        placed
      exact ended.bind fun _ => .pure fun _ _ closes => ⟨rfl, closes⟩

/-- A key takes both scans on, or into the error state. -/
theorem joins_pathEndsAtKey :
    Joins (graph.Tracks ended rest) (graph.Reads ended rest) machine.pathEndsAtKey
      machine.pathEndsAtKey (Same fun out left right => graph.Tracks ended rest left right ∧
        (out = true → left.inError machine.program = true)) := by
  have confounded := confounded_reads oblivious ended rest
  have coupling := confounded.toCoupling
  suffices Joins (graph.Reads ended rest) (graph.Reads ended rest) machine.pathEndsAtKey
      machine.pathEndsAtKey (Same fun out left right => graph.Tracks ended rest left right ∧
        (out = true → left.inError machine.program = true)) from
    this.failing fun _ _ reads => reads.toTracks
  unfold pathEndsAtKey
  apply (joins_inError coupling).bind
  intro before
  split
  next isError =>
    refine .pure fun left right both => ⟨rfl, both.1.toTracks, fun _ => ?_⟩
    rw [← both.2, isError]
  next =>
    refine Joins.strengthen ?_ fun _ _ both => both.1
    apply (couples_resume confounded).discard.bind
    intro _
    apply (couples_again confounded).discard.bind
    intro _
    apply (joins_inError coupling).bind
    intro after
    split
    next isError =>
      refine .pure fun left right both => ⟨rfl, both.1.toTracks, fun _ => ?_⟩
      rw [← both.2, isError]
    next =>
      -- The key is consumed, so the first scan may now be at the end of its chunk.
      intro left right both
      have inside := both.1.inside
      refine .done ⟨rfl, ?_, fun impossible => by cases impossible⟩
      exact { both.1.toTracks with
        absolute := by
          have same := both.1.absolute
          unfold Scan.absolute at same ⊢
          dsimp only
          omega
        low := by
          have low := both.1.low
          dsimp only
          omega
        high := inside }

def Left (graph : Graph) (ended : Bool) (rest : List (Array Key)) :
    Unit ⊕ ScanResult → Unit ⊕ ScanResult → Scan World → Scan World → Prop
  | .inl (), .inl (), left, right => graph.Tracks ended rest left right
  | .inr _, .inr _, left, right => left.Matches right ∧ (rest = [] ∨ left.done = true)
  | _, _, _, _ => False

theorem joins_flaggedEnd (out : Bool) :
    Joins (graph.Tracks ended rest)
      (fun left right => graph.Tracks ended rest left right ∧
        (out = true → rest = [] ∨ left.inError machine.program = true))
      (machine.flaggedEnd out) (machine.flaggedEnd out) (Left graph ended rest) := by
  cases out with
  | false => exact .pure fun left right both => both.1
  | true =>
      refine Joins.bind ((joins_endPath oblivious).strengthen fun left right both =>
        ⟨both.1, both.2 rfl⟩) fun goesOn => ?_
      cases goesOn with
      | true => exact .pure fun left right tracks => tracks
      | false => exact fun left right tracks => .done ⟨{ tracks.toMatches with }, .inr rfl⟩

def sweep (machine : Machine World) : Step World (Unit ⊕ ScanResult) := do
  if (← get).atEnd then
    if !(← get).ended then return .inr (← suspend)
    else machine.flaggedEnd (!(← machine.endInput))
  else machine.flaggedEnd (← machine.pathEndsAtKey)

def turn (machine : Machine World) (_ : Unit) : Step World (Unit ⊕ ScanResult) := do
  match ← machine.sweep with
  | .inl () => machine.pushAlternates; return .inl ()
  | .inr result => return .inr result

section Sweep

variable {scan : Scan World}

omit oblivious

theorem sweep_of_ne (inside : scan.position ≠ scan.size) :
    machine.sweep scan = (machine.pathEndsAtKey >>= machine.flaggedEnd) scan := by
  change (if scan.atEnd then _ else _ : Step World (Unit ⊕ ScanResult)) scan = _
  rw [if_neg (by simpa [Scan.atEnd] using inside)]

theorem sweep_of_ended (ends : scan.position = scan.size) (ended : scan.ended = true) :
    machine.sweep scan =
      (machine.endInput >>= fun taken => machine.flaggedEnd (!taken)) scan := by
  change (if scan.atEnd then _ else _ : Step World (Unit ⊕ ScanResult)) scan = _
  rw [if_pos (by simpa [Scan.atEnd] using ends)]
  change (if !scan.ended then _ else _ : Step World (Unit ⊕ ScanResult)) scan = _
  rw [if_neg (by simp [ended])]

theorem sweep_of_not_ended (ends : scan.position = scan.size) (waits : scan.ended = false) :
    ∃ result, machine.sweep scan = .ok (.ok (.inr result), { scan with resumed := true }) := by
  refine ⟨{ scan.result with suspended := true }, ?_⟩
  change (if scan.atEnd then _ else _ : Step World (Unit ⊕ ScanResult)) scan = _
  rw [if_pos (by simpa [Scan.atEnd] using ends)]
  change (if !scan.ended then _ else _ : Step World (Unit ⊕ ScanResult)) scan = _
  rw [if_pos (by simp [waits])]
  rfl

end Sweep

/-- At the end of a chunk that is not the last one the first scan waits. Anywhere else a round
does the same to both. -/
theorem joins_sweep {left right : Scan World} (tracks : graph.Tracks ended rest left right)
    (goes : rest = [] ∨ left.position ≠ left.size) :
    Step.Joined (graph.Tracks ended rest) (Left graph ended rest) (machine.sweep left)
      (machine.sweep right) := by
  have position := tracks.position_eq
  by_cases ends : left.position = left.size
  · have last := goes.resolve_right (not_not_intro ends)
    subst last
    have closes : graph.Closes ended left right := ⟨tracks, ends⟩
    have otherEnds := closes.position_eq_size
    have ended := tracks.ended_eq
    cases waits : left.ended with
    | false =>
        rcases sweep_of_not_ended ends waits with ⟨result, swept⟩
        rcases sweep_of_not_ended otherEnds (ended ▸ waits) with ⟨other, otherSwept⟩
        rw [swept, otherSwept]
        exact .done ⟨{ tracks.toMatches with }, .inl rfl⟩
    | true =>
        rw [sweep_of_ended ends waits, sweep_of_ended otherEnds (ended ▸ waits)]
        refine Joins.bind ((joins_endInput oblivious).failing fun _ _ closes => closes.toTracks)
          (fun taken => ?_) left right closes
        exact (joins_flaggedEnd oblivious _).strengthen fun _ _ closes =>
          ⟨closes.toTracks, fun _ => .inl rfl⟩
  · have high := tracks.high
    have size := tracks.size_le
    rw [sweep_of_ne ends, sweep_of_ne (by omega)]
    refine Joins.bind (joins_pathEndsAtKey oblivious) (fun out => ?_) left right
      ⟨tracks, by omega⟩
    exact (joins_flaggedEnd oblivious out).strengthen fun _ _ both =>
      ⟨both.1, fun isOut => .inr (both.2 isOut)⟩

theorem joins_turn {left right : Scan World} (tracks : graph.Tracks ended rest left right)
    (goes : rest = [] ∨ left.position ≠ left.size) :
    Step.Joined (graph.Tracks ended rest) (Left graph ended rest) (machine.turn () left)
      (machine.turn () right) := by
  have joined := joins_sweep oblivious tracks goes
  unfold turn
  rw [Step.bind_apply, Step.bind_apply]
  generalize machine.sweep left = outcome, machine.sweep right = other at joined
  cases joined with
  | problem failing => exact .problem failing
  | fault alike => exact .fault alike
  | stale => exact .stale
  | @done value otherValue nextLeft nextRight leaves =>
      match value, otherValue, leaves with
      | .inr _, .inr _, leaves => exact .done leaves
      | .inl (), .inl (), tracks =>
          have pushes : Joins (graph.Tracks ended rest) (graph.Tracks ended rest)
              (machine.pushAlternates >>= fun _ => pure (.inl ()))
              (machine.pushAlternates >>= fun _ => pure (.inl ())) (Left graph ended rest) :=
            (couples_pushAlternates oblivious).bind fun _ => .pure fun _ _ tracks => tracks
          exact pushes _ _ tracks

end Oblivious

end Machine

end StateTables
