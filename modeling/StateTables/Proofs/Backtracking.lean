import Mathlib.Data.List.Forall2
import StateTables.Proofs.DriverVariants
import StateTables.Proofs.Language

/-! # Backtracking decides the language of a graph

A machine follows one path at a time and keeps the alternates it has passed on a stack.
At every round, the word is accepted if and only if a path has been accepted already, the
current configuration accepts, or one on the stack does. When the stack is empty and
the last path has ended, the first of these is all that is left.
-/

namespace StateTables

open Step (Ensures)

/-! ## What hooks leave alone -/

def Untouched {World : Type} (property : Scan World → Prop) : Prop :=
  ∀ scan trace world, property scan → property { scan with trace := trace, world := world }

def Callback.Answers {World : Type} (callback : Callback World Bool) (predicate : Int → Key → Bool) :
    Prop :=
  ∀ view key world answer after, view.key? = some key →
    callback view world = .ok (answer, after) → answer = predicate view.absolute key

/-- The machine executes a graph without end-of-input behaviour whose actions are hooks that
do not reject, under conditions that are functions of position and key. -/
structure Machine.Decides {World : Type} (machine : Machine World) (graph : Graph)
    (predicates : Predicates) : Prop where
  program : machine.program = graph.program
  wired : graph.Wired
  valid : graph.Valid
  unended : graph.hasEof = false
  actions : ∀ action ∈ graph.actions, action.kind = .hook
  hooks : ∀ hook, some hook ∈ machine.hooks → ∀ view world answer after,
    hook view world = .ok (answer, after) → answer = .done
  conditions : ∀ (number : Nat) (space : ConditionSpace), graph.spaces[number]? = some space →
    ∃ callbacks, machine.conditions[number]? = some callbacks ∧
      List.Forall₂ (fun name callback => Callback.Answers callback (predicates name))
        space.conditions callbacks

namespace Machine

variable {World : Type} {machine : Machine World} {graph : Graph} {predicates : Predicates}

section Hooks

variable {property : Scan World → Prop} (untouched : Untouched property)
include untouched

theorem ensures_record (kind : EventKind) (state action : Nat) :
    Ensures property (machine.record kind state action) fun _ => property := by
  unfold record
  split
  next => exact .modify fun scan holds => untouched scan _ scan.world holds
  next => exact .pure fun _ holds => holds

variable (decides : machine.Decides graph predicates)
include decides

theorem ensures_runHook (id : Nat) :
    Ensures property (machine.runHook id) fun _ => property := by
  unfold runHook
  split
  next => exact .pure fun _ holds => holds
  next hook bound =>
    have isHook : some hook ∈ machine.hooks :=
      Array.mem_of_getElem? (Option.join_eq_some_iff.mp bound)
    have called : Ensures property (Step.call hook) fun answer scan =>
        answer = .done ∧ property scan := by
      refine .call fun scan holds answer world called => ?_
      exact ⟨decides.hooks hook isHook _ _ _ _ called, untouched scan scan.trace world holds⟩
    refine called.bind fun answer => ?_
    cases answer with
    | done => exact .pure fun _ holds => holds.2
    | reject =>
        refine .given ?_
        intro impossible
        cases impossible

theorem ensures_runActions (actions : List Nat) :
    Ensures property (machine.runActions actions) fun control scan =>
      control = .next ∧ property scan := by
  induction actions with
  | nil => exact .pure fun _ holds => ⟨rfl, holds⟩
  | cons id rest induction =>
      refine .askBind fun action found => .getBind fun scan _ => ?_
      refine (ensures_record untouched .action scan.state id).bind fun _ => ?_
      have member : action ∈ graph.actions := by
        have member := Graph.mem_of_part found
        rwa [decides.program] at member
      rw [decides.actions action member]
      exact (ensures_runHook untouched decides id).bind fun _ => induction

theorem ensures_runList (location : Nat) :
    Ensures property (machine.runList location) fun control scan =>
      control = .next ∧ property scan := by
  unfold runList
  split
  next => exact .pure fun _ holds => ⟨rfl, holds⟩
  next => exact .askBind fun actions _ => ensures_runActions untouched decides actions

theorem ensures_discard_runList (location : Nat) :
    Ensures property (discard (machine.runList location)) fun _ => property :=
  (ensures_runList untouched decides location).discard fun _ _ holds => holds.2

end Hooks

/-! ## The course of a scan -/

/-- Where a scan of a word stands: at a state and a position, with a path accepted or not,
and with some alternates on the stack. -/
structure On (word : Array Key) (state position : Nat) (accepted : Bool) (frames : List Frame)
    (scan : Scan World) : Prop where
  state : scan.state = state
  position : scan.position = position
  chunk : scan.chunk = word
  ended : scan.ended = true
  base : scan.base = 0
  resumed : scan.resumed = false
  accepted : scan.accepted = accepted
  frames : scan.alternates.frames = frames

theorem untouched_on (word : Array Key) (state position : Nat) (accepted : Bool)
    (frames : List Frame) :
    Untouched fun scan : Scan World => On word state position accepted frames scan :=
  fun _ _ _ on => { on with }

variable {word : Array Key} {state position : Nat} {accepted : Bool} {frames : List Frame}

theorem On.absolute {scan : Scan World} (on : On word state position accepted frames scan) :
    scan.view.absolute = position := by
  unfold View.absolute Scan.view
  rw [on.base, on.position, Int.zero_add]

theorem On.key? {scan : Scan World} (on : On word state position accepted frames scan) :
    scan.view.key? = word[position]? := by
  unfold View.key? Scan.view
  rw [on.position, on.chunk]

theorem On.atEnd {scan : Scan World} (on : On word state position accepted frames scan) :
    (scan.position == scan.size) = (position == word.size) := by
  rw [Scan.size, on.position, on.chunk, Bool.eq_iff_iff, beq_iff_eq, beq_iff_eq]
  exact Int.natCast_inj

/-- The frame of an alternate that is pushed at a position. -/
def frameOf (position : Nat) (pending : PendingMove) : Frame :=
  ⟨pending.target, position, pending.popTest⟩

theorem ensures_evaluate {key : Key} (here : word[position]? = some key) {names : List String}
    {callbacks : List (Callback World Bool)}
    (answers : List.Forall₂ (fun name callback => Callback.Answers callback (predicates name))
      names callbacks) (index : Nat) :
    Ensures (On word state position accepted frames) (evaluate index callbacks) fun value scan =>
      value = ConditionValue.ofPredicates (fun name => predicates name position key) index names ∧
        On word state position accepted frames scan := by
  induction answers generalizing index with
  | nil => exact .pure fun _ on => ⟨rfl, on⟩
  | @cons name callback names callbacks answers _ induction =>
      have called : Ensures (On word state position accepted frames) (Step.call callback)
          fun answer scan => answer = predicates name position key ∧
            On word state position accepted frames scan := by
        refine .call fun scan on answer world called => ⟨?_, { on with }⟩
        rw [← on.absolute]
        exact answers _ _ _ _ _ (on.key?.trans here) called
      refine called.bindKnown ?_
      refine (induction (index + 1)).bindKnown ?_
      exact .pure fun _ on => ⟨rfl, on⟩

/-- The scan goes on with the latest frame, if there is one. -/
def Backtracked (word : Array Key) (state position : Nat) (accepted : Bool) :
    List Frame → Bool → Scan World → Prop
  | [], goesOn, scan => goesOn = false ∧ On word state position accepted [] scan
  | frame :: rest, goesOn, scan => goesOn = true ∧
      On word frame.state.toNat frame.position.toNat accepted rest scan

/-! ## The search -/

/-- A frame stands for a configuration of the graph. -/
def Placed (graph : Graph) (word : Array Key) (frame : Frame) : Prop :=
  frame.state.toNat < graph.states.size ∧ ∃ at_ ≤ word.size, frame.position = (at_ : Nat)

/-- One of the configurations on the stack accepts. -/
def Pending (graph : Graph) (predicates : Predicates) (word : Array Key)
    (frames : List Frame) : Prop :=
  ∃ frame ∈ frames, graph.Accepts predicates word ⟨frame.state.toNat, frame.position.toNat⟩

/-- The search has accepted or will do so, if and only if that is the goal. -/
structure Searching (graph : Graph) (predicates : Predicates) (word : Array Key) (goal : Prop)
    (state position : Nat) (accepted : Bool) (frames : List Frame) : Prop where
  declared : state < graph.states.size
  within : position ≤ word.size
  placed : ∀ frame ∈ frames, Placed graph word frame
  goal : (accepted = true ∨ graph.Accepts predicates word ⟨state, position⟩ ∨
    Pending graph predicates word frames) ↔ goal

def Searches (graph : Graph) (predicates : Predicates) (word : Array Key) (goal : Prop)
    (scan : Scan World) : Prop :=
  ∃ state position accepted frames, Searching graph predicates word goal state position accepted
    frames ∧ On word state position accepted frames scan

/-- Once its alternates are pushed, the current state needs them no longer. -/
theorem Searching.push {goal : Prop}
    (searching : Searching graph predicates word goal state position accepted frames)
    (linked : graph.Linked) {own : State} (declared : graph.states[state]? = some own)
    {pushed : List Frame} (same : pushed =
      ((own.alternates.map graph.pendingOf).map (frameOf position)).reverse ++ frames) :
    (∀ frame ∈ pushed, Placed graph word frame) ∧
      ((accepted = true ∨ graph.AcceptsHere predicates word ⟨state, position⟩ ∨
        Pending graph predicates word pushed) ↔ goal) := by
  have member : ∀ frame, frame ∈ pushed ↔
      (∃ alternate ∈ own.alternates, frameOf position (graph.pendingOf alternate) = frame) ∨
        frame ∈ frames := by
    simp [same]
  constructor
  · intro frame isFrame
    rcases (member frame).mp isFrame with ⟨alternate, isAlternate, rfl⟩ | old
    · exact ⟨(linked.states own (Array.mem_of_getElem? declared)).targets alternate isAlternate,
        position, searching.within, rfl⟩
    · exact searching.placed frame old
  · rw [← searching.goal, Graph.accepts_iff_here declared]
    have pending : Pending graph predicates word pushed ↔
        (∃ alternate ∈ own.alternates, graph.Accepts predicates word ⟨alternate.target, position⟩) ∨
          Pending graph predicates word frames := by
      constructor
      · intro isPending
        rcases isPending with ⟨frame, isFrame, accepts⟩
        rcases (member frame).mp isFrame with ⟨alternate, isAlternate, rfl⟩ | old
        · exact .inl ⟨alternate, isAlternate, accepts⟩
        · exact .inr ⟨frame, old, accepts⟩
      · intro accepts
        rcases accepts with ⟨alternate, isAlternate, accepts⟩ | ⟨frame, old, accepts⟩
        · exact ⟨_, (member _).mpr (.inl ⟨alternate, isAlternate, rfl⟩), accepts⟩
        · exact ⟨frame, (member frame).mpr (.inr old), accepts⟩
    rw [pending, or_assoc]

/-- After a round the search goes on, or it has decided the goal. -/
def Decided (graph : Graph) (predicates : Predicates) (word : Array Key) (goal : Prop) :
    Unit ⊕ ScanResult → Scan World → Prop :=
  Sum.elim (fun _ => Searches graph predicates word goal)
    fun result _ => result.accepted = true ↔ goal

theorem ensures_finish :
    Ensures (fun scan : Scan World => On word state position accepted frames scan) finish
      fun result _ => result.accepted = accepted := by
  have finished : Ensures (On word state position accepted frames)
      (modify fun scan : Scan World => { scan with done := true }) fun _ =>
        On word state position accepted frames := .modify fun _ on => { on with }
  exact finished.bind fun _ => .getBind fun scan on => .pure fun _ _ => on.accepted

/-- Is the word accepted once a path ends? -/
def acceptedAt (graph : Graph) (word : Array Key) (state position : Nat) (accepted : Bool) : Bool :=
  accepted || (position == word.size && decide (graph.firstFinal ≤ state) &&
    !(graph.error == some state))

theorem acceptedAt_of_lt (before : position < word.size) :
    acceptedAt graph word state position accepted = accepted := by
  have unfinished : (position == word.size) = false := beq_eq_false_iff_ne.mpr (Nat.ne_of_lt before)
  rw [acceptedAt, unfinished, Bool.false_and, Bool.false_and, Bool.or_false]

section Course

variable (decides : machine.Decides graph predicates)
include decides

theorem ensures_pushAlternate (pending : PendingMove) :
    Ensures (On word state position accepted frames) (machine.pushAlternate pending) fun _ =>
      On word state position accepted (frameOf position pending :: frames) := by
  unfold pushAlternate
  refine .getBind fun scan on => ?_
  split
  next =>
    split
    next => exact .fault _
    next => exact .throw _
  next alternates pushed =>
    have after : alternates.frames = frameOf position pending :: frames := by
      unfold FrameStack.push? at pushed
      split at pushed
      next => cases pushed
      next =>
        cases pushed
        have absolute : scan.absolute = position := on.absolute
        simp [frameOf, absolute, on.frames]
    refine Ensures.bind (.set ?_) fun _ =>
      (ensures_record (untouched_on word state position accepted
        (frameOf position pending :: frames)) .push pending.target 0).bind fun _ => ?_
    · exact { on with frames := after }
    · exact ensures_discard_runList (untouched_on _ _ _ _ _) decides pending.push

theorem ensures_pushAll (pending : List PendingMove) :
    Ensures (On word state position accepted frames) (machine.pushAll pending) fun _ =>
      On word state position accepted ((pending.map (frameOf position)).reverse ++ frames) := by
  induction pending generalizing frames with
  | nil => exact .pure fun _ on => on
  | cons first rest induction =>
      refine (ensures_pushAlternate decides first).bind fun _ => ?_
      rw [List.map_cons, List.reverse_cons, List.append_assoc]
      exact induction

theorem ensures_pushAlternates {own : State} (declared : graph.states[state]? = some own) :
    Ensures (On word state position accepted frames) machine.pushAlternates fun _ =>
      On word state position accepted
        (((own.alternates.map graph.pendingOf).map (frameOf position)).reverse ++ frames) := by
  unfold pushAlternates
  refine .getBind fun scan on => ?_
  rw [on.resumed, on.state, decides.program]
  refine .askBind fun pending found => ?_
  have answer : graph.program.alternates state = .ok (own.alternates.map graph.pendingOf) := by
    change (_ <$> Graph.part "states" graph.states state) = _
    rw [Graph.part_eq_ok "states" declared]
    rfl
  cases answer.symm.trans found
  exact ensures_pushAll decides _

/-! ## Transitions -/

theorem ensures_conditionValue {key : Key} (here : word[position]? = some key) {number : Nat}
    {space : ConditionSpace} (found : graph.spaces[number]? = some space) :
    Ensures (On word state position accepted frames) (machine.conditionValue number)
      fun value scan => value = ConditionValue.ofPredicates
          (fun name => predicates name position key) 0 space.conditions ∧
        On word state position accepted frames scan := by
  rcases decides.conditions number space found with ⟨callbacks, bound, answers⟩
  refine .askBind fun others read => ?_
  cases (Graph.part_eq_ok "spaces" bound).symm.trans read
  exact ensures_evaluate here answers 0

theorem ensures_choose {key : Key} (here : word[position]? = some key) {number : Nat}
    {transition : Transition} (located : graph.locate state key = some number)
    (found : graph.transitions[number]? = some transition) :
    Ensures (On word state position accepted frames) (machine.choose number) fun move scan =>
      graph.LeadsTo predicates state position key move.target ∧
        On word state position accepted frames scan := by
  have used := Array.mem_of_getElem? found
  refine .askBind fun space read => ?_
  have same : space = transition.space := by
    rw [decides.program] at read
    change (Transition.space <$> Graph.part "transitions" graph.transitions number) = _ at read
    rw [Graph.part_eq_ok "transitions" found] at read
    exact (Except.ok.inj read).symm
  subst same
  cases space : transition.space with
  | none =>
      refine .ask fun move moved scan on => ⟨?_, on⟩
      rw [decides.program] at moved
      exact Graph.leadsTo_of_plainMove located found decides.valid space moved
  | some guard =>
      have known := Array.getElem?_eq_getElem (decides.wired.linked.spaces transition used guard space)
      refine (ensures_conditionValue decides here known).bindKnown ?_
      refine .ask fun move moved scan on => ⟨?_, on⟩
      rw [decides.program] at moved
      exact Graph.leadsTo_of_guardedMove located found decides.wired decides.valid space known moved

theorem ensures_take {key : Key} (here : word[position]? = some key) {number : Nat}
    {transition : Transition} (located : graph.locate state key = some number)
    (found : graph.transitions[number]? = some transition) :
    Ensures (On word state position accepted frames) (machine.take number) fun control scan =>
      control = .next ∧ ∃ target, graph.LeadsTo predicates state position key target ∧
        On word target position accepted frames scan := by
  refine (ensures_choose decides here located found).bind fun move => .given fun leads => ?_
  have untouched : Untouched fun scan : Scan World =>
      On word move.target position accepted frames scan := untouched_on _ _ _ _ _
  refine Ensures.bind (.modify ?_) fun _ =>
    (ensures_record untouched .transition move.target move.actions).bind fun _ => ?_
  · exact fun _ on => { on with state := rfl }
  · exact (ensures_runList untouched decides move.actions).weaken
      fun _ _ holds => ⟨holds.1, move.target, leads, holds.2⟩

theorem ensures_resume (inside : state < graph.states.size) {key : Key}
    (here : word[position]? = some key) (contained : graph.alphabet.contains key = true) :
    Ensures (On word state position accepted frames) machine.resume fun control scan =>
      control = .next ∧ ∃ target, graph.LeadsTo predicates state position key target ∧
        On word target position accepted frames scan := by
  unfold resume
  refine .getBind fun before _ => .askBind fun location _ => ?_
  refine (ensures_runList (untouched_on _ _ _ _ _) decides location).bindKnown ?_
  rw [if_neg (by simp)]
  refine .getBind fun scan on => .askBind fun other read => ?_
  have same : other = key := by
    unfold View.key at read
    rw [on.key?, here] at read
    exact (Except.ok.inj read).symm
  subst same
  refine .askBind fun number located => ?_
  rw [on.state, decides.program] at located
  have located := Graph.program_locate_eq_ok.mp located
  have declared := Array.getElem?_eq_getElem inside
  have member := Array.mem_of_getElem? declared
  have used : number < graph.transitions.size := by
    rw [Graph.locate, declared] at located
    exact State.locate_lt (decides.wired.linked.states _ member) (decides.valid.states _ member)
      located
  exact ensures_take decides here located (Array.getElem?_eq_getElem used)

theorem ensures_again :
    Ensures (On word state position accepted frames) machine.again fun control scan =>
      control = .next ∧ On word state position accepted frames scan := by
  unfold again
  refine .getBind fun before _ => .askBind fun location _ => ?_
  refine (ensures_runList (untouched_on _ _ _ _ _) decides location).bindKnown ?_
  exact .pure fun _ on => ⟨rfl, on⟩

theorem ensures_inError :
    Ensures (On word state position accepted frames) machine.inError fun isError scan =>
      isError = (graph.error == some state) ∧ On word state position accepted frames scan := by
  refine .getBind fun scan on => .pure fun _ other => ⟨?_, other⟩
  unfold Scan.inError
  rw [decides.program, on.state]
  rfl

/-! ## End of input -/

theorem ensures_endInput (inside : state < graph.states.size) :
    Ensures (On word state word.size accepted frames) machine.endInput fun taken scan =>
      taken = false ∧ On word state word.size accepted frames scan := by
  have declared := Array.getElem?_eq_getElem inside
  have nowhere : ¬graph.hasEof = true := by simp [decides.unended]
  rcases Graph.hasEof_of_not_hasEof nowhere declared with ⟨noActions, noTransition, _⟩
  have transition : machine.program.eofTransition state = .ok none := by
    rw [decides.program]
    change (State.eofTransition <$> Graph.part "states" graph.states state) = _
    rw [Graph.part_eq_ok "states" declared, ← noTransition]
    rfl
  have actions : machine.program.eofActions state = .ok 0 := by
    rw [decides.program]
    change ((fun state => graph.location state.eofActions) <$>
      Graph.part "states" graph.states state) = _
    rw [Graph.part_eq_ok "states" declared]
    change Except.ok (graph.location _) = _
    rw [noActions]
    rfl
  have quiet : Ensures (On word state word.size accepted frames) machine.runEofActions fun _ =>
      On word state word.size accepted frames := by
    refine .getBind fun scan on => ?_
    rw [on.state, actions]
    exact .pure fun _ on => on
  unfold endInput
  refine .getBind fun scan on => ?_
  refine (ensures_record (untouched_on word state word.size accepted frames) .eof _ 0).bind
    fun _ => ?_
  rw [on.state, transition]
  refine .askBind fun answer read => ?_
  cases read
  refine Ensures.bind (quiet.ensuring ?_) fun _ => .pure fun scan on => ⟨rfl, on⟩
  intro _ scan on
  have size : scan.size = word.size := by rw [Scan.size, on.chunk]
  exact { on with position := size }

/-! ## Ends of paths -/

theorem On.pathEnded {scan : Scan World} (on : On word state position accepted frames scan) :
    On word state position (acceptedAt graph word state position accepted) frames
      (machine.pathEnded scan) := by
  have ends : (scan.ended && scan.position == scan.size &&
      decide (machine.program.firstFinal ≤ scan.state) && !scan.inError machine.program) =
        (position == word.size && decide (graph.firstFinal ≤ state) &&
          !(graph.error == some state)) := by
    unfold Scan.inError
    rw [on.ended, on.atEnd, on.state, decides.program, Bool.true_and]
    rfl
  unfold Machine.pathEnded acceptedAt
  rw [ends]
  split
  next accepts =>
    rw [accepts, Bool.or_true]
    exact { on with accepted := rfl }
  next fails =>
    rw [Bool.not_eq_true] at fails
    rw [fails, Bool.or_false]
    exact on

theorem ensures_enterAlternate {frame : Frame} {at_ : Nat} (there : frame.position = at_) :
    Ensures (On word state position accepted frames) (machine.enterAlternate frame)
      fun entered scan => entered = true ∧ On word frame.state.toNat at_ accepted frames scan := by
  unfold enterAlternate
  refine .getBind fun scan on => ?_
  split
  next =>
    intro other _ value next done
    cases done
  next =>
    have untouched : Untouched fun scan : Scan World =>
        scan.rejected = false ∧ On word frame.state.toNat at_ accepted frames scan :=
      fun _ _ _ holds => ⟨holds.1, { holds.2 with }⟩
    refine Ensures.bind (.set ?_) fun _ =>
      (ensures_record untouched .pop frame.state.toNat frame.popTest.toNat).bind fun _ => ?_
    · refine ⟨rfl, { on with state := rfl, position := ?_ }⟩
      rw [on.base, Int.sub_zero, there]
    · refine (ensures_discard_runList untouched decides frame.popTest.toNat).bind fun _ => ?_
      refine .getBind fun after holds => .pure fun _ => fun on => ⟨?_, on.2⟩
      rw [holds.1]
      rfl

theorem ensures_popAlternates
    (placed : ∀ frame ∈ frames, ∃ at_ : Nat, frame.position = at_) :
    Ensures (On word state position accepted frames) (machine.popAlternates frames)
      (Backtracked word state position accepted frames) := by
  cases frames with
  | nil => exact .pure fun _ on => ⟨rfl, on⟩
  | cons frame rest =>
      rcases placed frame (by simp) with ⟨at_, there⟩
      have popped : Ensures (On word state position accepted (frame :: rest))
          (modify fun scan : Scan World => scan.dropAlternate) fun _ =>
            On word state position accepted rest := by
        refine .modify fun scan on => ?_
        unfold Scan.dropAlternate FrameStack.pop?
        rw [on.frames]
        exact { on with frames := rfl }
      refine popped.bind fun _ => ?_
      refine (ensures_enterAlternate decides there).bindKnown ?_
      refine .pure fun _ on => ⟨rfl, ?_⟩
      rw [there, Int.toNat_natCast]
      exact on

theorem ensures_endPath (placed : ∀ frame ∈ frames, ∃ at_ : Nat, frame.position = at_) :
    Ensures (On word state position accepted frames) machine.endPath
      (Backtracked word state position (acceptedAt graph word state position accepted) frames) := by
  have ended : Ensures (On word state position accepted frames) (modify machine.pathEnded) fun _ =>
      On word state position (acceptedAt graph word state position accepted) frames :=
    .modify fun _ on => on.pathEnded decides
  refine ended.bind fun _ => .getBind fun scan on => ?_
  rw [on.frames]
  exact ensures_popAlternates decides placed

/-! ## Rounds -/

/-- When a path has ended, the scan goes on searching with an alternate, or is decided. -/
theorem ensures_gotoOut {goal : Prop} (placed : ∀ frame ∈ frames, Placed graph word frame)
    (open_ : (acceptedAt graph word state position accepted = true ∨
      Pending graph predicates word frames) ↔ goal) :
    Ensures (On word state position accepted frames) machine.gotoOut
      (Decided graph predicates word goal) := by
  refine (ensures_endPath decides fun frame member => ?_).bind fun goesOn => ?_
  · rcases placed frame member with ⟨_, at_, _, there⟩
    exact ⟨at_, there⟩
  cases frames with
  | nil =>
      refine .given fun same => ?_
      subst same
      refine ensures_finish.bind fun result => .pure fun _ same => ?_
      change result.accepted = true ↔ goal
      rw [same, ← open_]
      simp [Pending]
  | cons frame rest =>
      refine .given fun same => ?_
      subst same
      refine .pure fun _ on => ⟨_, _, _, _, ?_, on⟩
      rcases placed frame (by simp) with ⟨inside, at_, before, there⟩
      exact {
        declared := inside
        within := by rw [there, Int.toNat_natCast]; exact before
        placed := fun other member => placed other (by simp [member])
        goal := by rw [← open_]; simp [Pending] }

theorem acceptedAt_iff (inside : state < graph.states.size) :
    acceptedAt graph word state position accepted = true ↔
      accepted = true ∨ (position = word.size ∧ graph.IsFinal state) := by
  have alive : graph.IsFinal state → graph.error ≠ some state := fun isFinal isError =>
    decides.wired.trapped.not_isFinal isError isFinal
  rw [decides.valid.isFinal_iff inside] at alive ⊢
  simp only [acceptedAt, Bool.or_eq_true, Bool.and_eq_true, beq_iff_eq, decide_eq_true_eq,
    Bool.not_eq_true', beq_eq_false_iff_ne, ne_eq, and_assoc]
  constructor
  · intro isAccepted
    rcases isAccepted with already | ⟨ended, final, _⟩
    · exact .inl already
    · exact .inr ⟨ended, final⟩
  · intro isAccepted
    rcases isAccepted with already | ⟨ended, final⟩
    · exact .inl already
    · exact .inr ⟨ended, final, alive final⟩

theorem ensures_gotoTestEof {goal : Prop} (inside : state < graph.states.size)
    (placed : ∀ frame ∈ frames, Placed graph word frame)
    (open_ : (accepted = true ∨ graph.AcceptsHere predicates word ⟨state, word.size⟩ ∨
      Pending graph predicates word frames) ↔ goal) :
    Ensures (On word state word.size accepted frames) machine.gotoTestEof
      (Decided graph predicates word goal) := by
  unfold gotoTestEof
  refine .getBind fun scan on => ?_
  rw [on.ended]
  refine (ensures_endInput decides inside).bindKnown ?_
  refine ensures_gotoOut decides placed ?_
  rw [acceptedAt_iff decides inside, ← open_, Graph.acceptsHere_end, or_assoc]
  simp

/-- A path that cannot go on before the end of the word ends without being accepted. -/
theorem ensures_gotoOut_stuck {goal : Prop} {here : Nat} (before : position < word.size)
    (placed : ∀ frame ∈ frames, Placed graph word frame)
    (open_ : (accepted = true ∨ graph.AcceptsHere predicates word ⟨here, position⟩ ∨
      Pending graph predicates word frames) ↔ goal)
    (stuck : ¬graph.AcceptsHere predicates word ⟨here, position⟩) :
    Ensures (On word state position accepted frames) machine.gotoOut
      (Decided graph predicates word goal) := by
  refine ensures_gotoOut decides placed ?_
  rw [acceptedAt_of_lt before, ← open_]
  simp [stuck]

/-- Behind a key the search goes on where it leads, unless that is the error state. -/
theorem ensures_gotoAgain {goal : Prop} {key : Key} (here : word[position]? = some key) {target : Nat}
    (leads : graph.LeadsTo predicates state position key target)
    (placed : ∀ frame ∈ frames, Placed graph word frame)
    (open_ : (accepted = true ∨ graph.AcceptsHere predicates word ⟨state, position⟩ ∨
      Pending graph predicates word frames) ↔ goal) :
    Ensures (On word target position accepted frames)
      (do if ← machine.inError then machine.gotoOut else do advance; return .inl ())
      (Decided graph predicates word goal) := by
  have before : position < word.size := (Array.getElem?_eq_some_iff.mp here).1
  refine (ensures_inError decides).bindKnown ?_
  split
  next isError =>
    refine ensures_gotoOut_stuck decides before placed open_ (Graph.not_acceptsHere here ?_)
    intro other otherLeads
    rcases leads with leads | ⟨nowhere, _⟩
    · cases leads.symm.trans otherLeads
      simpa using isError
    · cases nowhere.symm.trans otherLeads
  next alive =>
    have alive : graph.error ≠ some target := by simpa using alive
    have advanced : Ensures (On word target position accepted frames)
        (advance : Step World Unit) fun _ => On word target (position + 1) accepted frames :=
      .modify fun _ on => { on with position := by rw [on.position]; rfl }
    refine advanced.bind fun _ => .pure fun _ on => ⟨_, _, _, _, ?_, on⟩
    have goesOn : graph.target? predicates state position key = some target :=
      leads.resolve_right fun missed => alive missed.2
    exact {
      declared := leads.lt decides.wired
      within := before
      placed := placed
      goal := by rw [← open_, Graph.acceptsHere_key here goesOn alive] }

theorem ensures_round {goal : Prop}
    (searching : Searching graph predicates word goal state position accepted frames)
    (contained : ∀ key ∈ word, graph.alphabet.contains key = true) :
    Ensures (On word state position accepted frames) (machine.gotoResume ())
      (Decided graph predicates word goal) := by
  have declared := Array.getElem?_eq_getElem searching.declared
  unfold gotoResume
  refine (ensures_pushAlternates decides declared).bind fun _ => ?_
  generalize same : ((_ : List PendingMove).map (frameOf position)).reverse ++ frames = pushed
  rcases searching.push decides.wired.linked declared same.symm with ⟨placed, open_⟩
  refine .getBind fun scan on => ?_
  unfold Scan.atEnd
  rw [on.atEnd]
  split
  next ended =>
    rw [beq_iff_eq] at ended
    subst ended
    exact ensures_gotoTestEof decides searching.declared placed open_
  next unfinished =>
    have before : position < word.size := by
      have within := searching.within
      rw [beq_iff_eq] at unfinished
      omega
    have here := Array.getElem?_eq_getElem before
    refine (ensures_inError decides).bindKnown ?_
    split
    next isError =>
      refine ensures_gotoOut_stuck decides before placed open_ (Graph.not_acceptsHere here ?_)
      have isError : graph.error = some state := by simpa using isError
      intro target leads
      rw [decides.wired.trapped.target?_eq isError] at leads
      rw [isError, leads]
    next =>
      have inside := contained _ (Array.mem_of_getElem? here)
      refine (ensures_resume decides searching.declared here inside).bindKnown ?_
      refine .ofExists fun target => .given fun leads => ?_
      refine (ensures_again decides).bindKnown ?_
      exact ensures_gotoAgain decides here leads placed open_

end Course

/-! ## The whole search -/

theorem ensures_search (decides : machine.Decides graph predicates) (goal : Prop)
    (contained : ∀ key ∈ word, graph.alphabet.contains key = true) (fuel : Nat) :
    Ensures (Searches graph predicates word goal) (machine.driveBy .goto fuel) fun result _ =>
      result.accepted = true ↔ goal := by
  have round : ∀ current, Ensures (Searches graph predicates word goal)
      (machine.gotoResume current) (Decided graph predicates word goal) := by
    intro current scan searches
    rcases searches with ⟨state, position, accepted, frames, searching, on⟩
    exact ensures_round decides searching contained scan on
  exact Ensures.repeated round fuel ()

def begin (machine : Machine World) (world : World) (word : Array Key) : Scan World :=
  { machine.start world with chunk := word, ended := true }

theorem searches_begin (decides : machine.Decides graph predicates) (world : World) :
    Searches graph predicates word (graph.Accepts predicates word ⟨graph.start, 0⟩)
      (machine.begin world word) := by
  refine ⟨graph.start, 0, false, [], ?_, ?_⟩
  · exact {
      declared := decides.wired.linked.start
      within := Nat.zero_le _
      placed := by simp
      goal := by simp [Pending] }
  · exact {
      state := congrArg Program.start decides.program
      position := rfl
      chunk := rfl
      ended := rfl
      base := rfl
      resumed := rfl
      accepted := rfl
      frames := rfl }

theorem driveBy_of_execute {fuel : Nat} {world : World} {report : Report} {after : Scan World}
    (executed : machine.execute fuel (machine.start world) word true = .ok (report, after))
    (fine : report.error = none) :
    (∀ key ∈ word, machine.program.alphabet.contains key = true) ∧
      machine.driveBy machine.driver fuel (machine.begin world word) =
        .ok (.ok report.result, after) := by
  unfold execute at executed
  rw [if_neg (by simp [start])] at executed
  split at executed
  next =>
    cases executed
    cases fine
  next strayless =>
    refine ⟨contained_of_strayKey strayless, ?_⟩
    dsimp only at executed
    split at executed
    next => cases executed
    next driven =>
      cases executed
      exact driven
    next =>
      cases executed
      cases fine

/-! ## Machines that were set up -/

section Created

variable {program : Program} {bindings : Bindings World}

theorem Created.hook (created : Created program bindings machine)
    {hook : Callback World HookAnswer} (member : some hook ∈ machine.hooks) :
    ∃ name, bindings.hook? name = some hook := by
  rw [created.hooks, Array.mem_map] at member
  rcases member with ⟨action, _, same⟩
  split at same
  next => exact ⟨action.name, same⟩
  next => cases same

theorem forall₂_condition {names : List String}
    (bound : ∀ name ∈ names, (bindings.condition? name).isSome = true) :
    List.Forall₂ (fun name callback => bindings.condition? name = some callback) names
      (names.filterMap bindings.condition?) := by
  induction names with
  | nil => exact .nil
  | cons name rest induction =>
      rcases Option.isSome_iff_exists.mp (bound name (by simp)) with ⟨callback, isBound⟩
      rw [List.filterMap_cons, isBound]
      exact .cons isBound (induction fun other member => bound other (by simp [member]))

theorem Created.callbacks (created : Created program bindings machine) {number : Nat}
    {space : ConditionSpace} (found : program.spaces[number]? = some space) :
    ∃ callbacks, machine.conditions[number]? = some callbacks ∧
      List.Forall₂ (fun name callback => bindings.condition? name = some callback)
        space.conditions callbacks := by
  have stored : machine.conditions[number]? =
      some (space.conditions.filterMap bindings.condition?) := by
    rw [created.conditions]
    simp [found, conditionsOf]
  refine ⟨_, stored, forall₂_condition fun name member => ?_⟩
  have all := List.flatMap_eq_nil_iff.mp created.bound (conditionsOf bindings space) (by
    rw [Array.toList_map]
    exact List.mem_map_of_mem (by simpa using Array.mem_of_getElem? found))
  exact Option.isSome_iff_ne_none.mpr (by simpa using List.filter_eq_nil_iff.mp all name member)

end Created

/-- With jumps, a machine that executes only hooks ends as it does with its own driver. -/
theorem ends_goto (decides : machine.Decides graph predicates) {kind : DriverKind}
    {scan : Scan World} {outcome : Except Fault (Except ScanError ScanResult × Scan World)}
    (ends : machine.Ends kind scan outcome) : machine.Ends .goto scan outcome := by
  have unstoppable : ∀ action ∈ machine.program.actions, action.kind ≠ .stop := by
    intro action member isStop
    rw [decides.program] at member
    cases (decides.actions action member).symm.trans isStop
  cases kind with
  | goto => exact ends
  | phased => exact ends_phased_iff.mp ends
  | flagged => exact (ends_flagged_iff unstoppable).mp ends

theorem Decides.accepted_iff (decides : machine.Decides graph predicates) {fuel : Nat}
    {world : World} {report : Report} {after : Scan World}
    (executed : machine.execute fuel (machine.start world) word true = .ok (report, after))
    (fine : report.error = none) :
    report.result.accepted = true ↔ graph.Accepts predicates word ⟨graph.start, 0⟩ := by
  rcases driveBy_of_execute executed fine with ⟨contained, driven⟩
  rw [decides.program] at contained
  have ends : machine.Ends machine.driver (machine.begin world word)
      (.ok (.ok report.result, after)) := ⟨(by intro exhausted; cases exhausted), fuel, driven⟩
  rcases ends_goto decides ends with ⟨_, enough, jumped⟩
  exact ensures_search decides _ contained enough _ (searches_begin decides world) _ _ jumped

end Machine

/-- Backtracking decides the language of a graph. Take a graph that was built, without end-of-input
behaviour and with hooks as its only actions, callbacks that never reject, and conditions that are
functions of position and key. Whenever a new machine for one of its encodings scans a word to the
end without an error, it accepts the word if and only if moves of the graph lead from the start to a
final state at the end of the word. The draft of the graph names only condition spaces of its own.
-/
theorem Graph.accepted_iff_moves_to_final {World : Type} {graph : Graph} (built : graph.Built)
    (unended : graph.hasEof = false) (hooksOnly : ∀ action ∈ graph.actions, action.kind = .hook)
    {encodingOptions : EncodingOptions} {encoding : Encoding}
    (encoded : graph.encode encodingOptions = .ok encoding) {options : MachineOptions}
    {bindings : Bindings World} {machine : Machine World}
    (created : Machine.create encoding.program options bindings = .ok machine)
    (unrejecting : ∀ name hook, bindings.hook? name = some hook → ∀ view world answer after,
      hook view world = .ok (answer, after) → answer = .done)
    {predicates : Predicates} (functional : ∀ name callback,
      bindings.condition? name = some callback → Callback.Answers callback (predicates name))
    {fuel : Nat} {world : World} {word : Array Key} {report : Machine.Report} {after : Scan World}
    (executed : machine.execute fuel (machine.start world) word true = .ok (report, after))
    (fine : report.error = none) :
    report.result.accepted = true ↔ ∃ final,
      Relation.ReflTransGen (graph.Moves predicates word) ⟨graph.start, 0⟩ ⟨final, word.size⟩ ∧
        graph.IsFinal final := by
  have agrees := built.agrees encoded
  have setUp := Machine.created_of_create created
  have small := Machine.small_of_create agrees created
  have laid := laid_of_encode encoded
  rw [← setUp.runs] at agrees
  -- The graph itself is executed in place of its encoding.
  have same := (Machine.execute_running agrees small (Machine.inside_start agrees world) fuel word
    true).1
  rw [executed, ← Machine.start_running agrees] at same
  have decides : (machine.running graph.program).Decides graph predicates := {
    program := rfl
    wired := built.wired
    valid := built.valid
    unended := unended
    actions := hooksOnly
    hooks := by
      intro hook member
      rcases setUp.hook member with ⟨name, bound⟩
      exact unrejecting name hook bound
    conditions := by
      intro number space found
      rcases setUp.callbacks (laid.spaces ▸ found) with ⟨callbacks, stored, bound⟩
      exact ⟨callbacks, stored, bound.imp functional⟩ }
  exact decides.accepted_iff same fine

namespace Sample

def predicates : Predicates :=
  fun _ _ key => key.signedValue % 2 == 0

def word : Array Key :=
  #[.ofInt 30, .ofInt 12]

def report? : Option Machine.Report := do
  let encoding ← (graph.encode options).toOption
  let machine ← (Machine.create encoding.program machineOptions bindings).toOption
  let result ← (machine.execute 16 (machine.start 0) word true).toOption
  return result.1

theorem exists_scan : ∃ encoding machine report after,
    graph.encode options = .ok encoding ∧
      Machine.create encoding.program machineOptions bindings = .ok machine ∧
      machine.execute 16 (machine.start 0) word true = .ok (report, after) ∧
      report.error = none := by
  have scanned : report?.any (·.error.isNone) = true := by decide +kernel
  rw [Option.any_eq_true] at scanned
  rcases scanned with ⟨report, reported, fine⟩
  simp only [report?, bind, pure, Option.bind_eq_some_iff, toOption_eq_some, Option.some_inj]
    at reported
  rcases reported with ⟨encoding, encoded, machine, created, ⟨_, after⟩, executed, rfl⟩
  exact ⟨encoding, machine, _, after, encoded, created, executed, by simpa using fine⟩

theorem bound_of_lookup {name : String} {kind : BindingKind} {binding : Binding Nat} {distance : Nat}
    (found : bindings.lookup name kind = some (binding, distance)) :
    binding.bound = .action (fun _ notes => .ok (.done, notes + 1)) ∨
      binding.bound = .condition fun view notes => do
        return ((← view.key).signedValue % 2 == 0, notes) := by
  unfold bindings Bindings.lookup at found
  split at found
  next other isFor =>
    cases found
    have member := List.mem_of_find?_eq_some isFor
    simp only [List.mem_cons, List.not_mem_nil, or_false] at member
    rcases member with rfl | rfl
    · exact .inl rfl
    · exact .inr rfl
  next => cases found

theorem done_of_hook {name : String} {hook : Callback Nat HookAnswer}
    (bound : bindings.hook? name = some hook) {view : View} {world : Nat} {answer : HookAnswer}
    {after : Nat} (called : hook view world = .ok (answer, after)) : answer = .done := by
  unfold Bindings.hook? at bound
  split at bound
  next found =>
    cases bound
    rcases bound_of_lookup found with same | same
    · cases same
      cases called
      rfl
    · cases same
  next => cases bound

theorem answers_of_condition {name : String} {callback : Callback Nat Bool}
    (bound : bindings.condition? name = some callback) :
    Callback.Answers callback (predicates name) := by
  unfold Bindings.condition? at bound
  split at bound
  next found =>
    cases bound
    rcases bound_of_lookup found with same | same
    · cases same
    · cases same
      intro view key world answer after here called
      simp only [View.key, here] at called
      cases called
      rfl
  next => cases bound

end Sample

/-- The sample decides a word whose second key is guarded. -/
theorem accepted_iff_moves_to_final_sample : ∃ encoding machine report after,
    Sample.graph.encode Sample.options = .ok encoding ∧
      Machine.create encoding.program Sample.machineOptions Sample.bindings = .ok machine ∧
      machine.execute 16 (machine.start 0) Sample.word true = .ok (report, after) ∧
      report.error = none ∧
      (report.result.accepted = true ↔ ∃ final,
        Relation.ReflTransGen (Sample.graph.Moves Sample.predicates Sample.word)
          ⟨Sample.graph.start, 0⟩ ⟨final, Sample.word.size⟩ ∧ Sample.graph.IsFinal final) := by
  rcases Sample.exists_scan with
    ⟨encoding, machine, report, after, encoded, created, executed, fine⟩
  refine ⟨encoding, machine, report, after, encoded, created, executed, fine, ?_⟩
  exact Graph.accepted_iff_moves_to_final Sample.built_graph (by decide +kernel)
    (by decide +kernel) encoded created (fun _ _ bound _ _ _ _ => Sample.done_of_hook bound)
    (fun _ _ => Sample.answers_of_condition) executed fine

end StateTables
