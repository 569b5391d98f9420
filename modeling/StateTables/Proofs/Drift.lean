import StateTables.Proofs.DriverVariants
import StateTables.Proofs.TableSafety

/-! # How far actions move a scan

Actions that hold back a key move the position back by one, and an action that stops the scan
moves it forward. A graph is steady if a transition and the to-state actions behind it hold back
at most one key, and nothing is held back where alternates are pending.
-/

namespace StateTables

open Step (Meets)

/-! ## Graphs that hold back one key at most -/

namespace Graph

def countKind (graph : Graph) (kind : ActionKind) (actions : List Nat) : Nat :=
  (actions.filterMap fun id => graph.actions[id]?).countP fun action => action.kind == kind

def holds (graph : Graph) (list : Option Nat) : Nat :=
  graph.countKind .hold (graph.actionsOf list)

def stops (graph : Graph) (list : Option Nat) : Nat :=
  graph.countKind .stop (graph.actionsOf list)

/-- A transition and the to-state actions behind it hold back one key at most. Where there are
alternates nothing is held back, and neither pushing nor testing them stops. -/
structure Steady (graph : Graph) : Prop where
  once : ∀ state ∈ graph.states, graph.holds state.toState ≤ 1 ∧
    ∀ condition ∈ graph.conditions, graph.holds condition.actions + graph.holds state.toState ≤ 1
  unheld : graph.hasAlternates = true → ∀ list ∈ graph.lists,
    graph.countKind .hold list.actions = 0
  unstopped : ∀ state ∈ graph.states, ∀ alternate ∈ state.alternates,
    graph.stops alternate.push = 0 ∧ graph.stops alternate.popTest = 0

variable {graph : Graph}

theorem countKind_cons (kind : ActionKind) {id : Nat} (rest : List Nat) {action : Action}
    (found : graph.actions[id]? = some action) :
    graph.countKind kind (id :: rest) =
      graph.countKind kind rest + if action.kind = kind then 1 else 0 := by
  simp [countKind, found, List.countP_cons]

theorem countKind_actionsOf {kind : ActionKind}
    (absent : ∀ list ∈ graph.lists, graph.countKind kind list.actions = 0) (list : Option Nat) :
    graph.countKind kind (graph.actionsOf list) = 0 := by
  cases list with
  | none => rfl
  | some number =>
      cases found : graph.lists[number]? with
      | none => simp [actionsOf, found, countKind]
      | some list => simpa [actionsOf, found] using absent list (Array.mem_of_getElem? found)

theorem Steady.holds_eq_zero (steady : graph.Steady) (pending : graph.hasAlternates = true)
    (list : Option Nat) : graph.holds list = 0 :=
  countKind_actionsOf (steady.unheld pending) list

/-- As many keys may be held back before the to-state actions run. -/
def Spares (graph : Graph) (held : Nat) : Prop :=
  (graph.hasAlternates = true → held = 0) ∧
    ∀ state ∈ graph.states, held + graph.holds state.toState ≤ 1

theorem Steady.spares_zero (steady : graph.Steady) : graph.Spares 0 := by
  refine ⟨fun _ => rfl, fun state member => ?_⟩
  rw [Nat.zero_add]
  exact (steady.once state member).1

theorem Steady.spares_condition (steady : graph.Steady) {condition : ConditionTarget}
    (member : condition ∈ graph.conditions) : graph.Spares (graph.holds condition.actions) :=
  ⟨fun pending => steady.holds_eq_zero pending _, fun state declared =>
    (steady.once state declared).2 condition member⟩

theorem holds_fromState_of_checkState {id : Nat} {state : State}
    (fine : graph.checkState id state = .ok ()) : graph.holds state.fromState = 0 := by
  have unheld : graph.findKind .hold state.fromState = none := by
    unfold checkState at fine
    dsimp only at fine
    split at fine
    next => cases fine
    split at fine
    next => cases fine
    rcases bind_eq_ok.mp fine with ⟨_, _, fine⟩
    split at fine
    next => cases fine
    split at fine
    next => cases fine
    split at fine
    next => cases fine
    next unheld => simpa [Option.eq_none_iff_forall_ne_some] using unheld
  exact List.countP_eq_zero.mpr fun action member => List.find?_eq_none.mp unheld action member

theorem Built.holds_fromState (built : graph.Built) {state : State}
    (member : state ∈ graph.states) : graph.holds state.fromState = 0 := by
  have fine := built.validated
  unfold validate at fine
  rcases bind_eq_ok.mp fine with ⟨_, states, _⟩
  rcases Array.mem_iff_getElem?.mp member with ⟨id, found⟩
  exact holds_fromState_of_checkState (checked_of_checkEach states (by simpa using found))

/-- The frames of pending alternates were pushed one after the other, and none ahead of where
the scan stands. No test stops. -/
structure Stacked {World : Type} (graph : Graph) (scan : Scan World) : Prop where
  ordered : scan.alternates.frames.Pairwise fun later earlier => earlier.position ≤ later.position
  behind : ∀ frame ∈ scan.alternates.frames, frame.position ≤ scan.absolute
  without : graph.hasAlternates = false → scan.alternates.frames = []
  tested : ∀ frame ∈ scan.alternates.frames, ∃ list, frame.popTest = graph.location list ∧
    graph.stops list = 0

/-- The scan stands within its chunk. -/
structure Level {World : Type} (graph : Graph) (scan : Scan World) : Prop extends
    graph.Stacked scan where
  low : 0 ≤ scan.position
  high : scan.position ≤ scan.size

/-- The scan may end its path here. -/
structure Ending {World : Type} (graph : Graph) (scan : Scan World) : Prop extends
    graph.Stacked scan where
  high : scan.position ≤ scan.size

end Graph

/-! ## Steps that move the scan -/

/-- The scan has moved back and forth by no more than so many keys, and pending alternates are
the same. -/
structure Scan.Drifts {World : Type} (origin : Scan World) (back forth : Nat) (scan : Scan World) :
    Prop where
  base : scan.base = origin.base
  chunk : scan.chunk = origin.chunk
  alternates : scan.alternates = origin.alternates
  low : origin.position ≤ scan.position + back
  high : scan.position ≤ origin.position + forth

namespace Scan.Drifts

variable {World : Type} {origin scan : Scan World} {back forth : Nat}

theorem refl (scan : Scan World) : scan.Drifts 0 0 scan :=
  ⟨rfl, rfl, rfl, by omega, by omega⟩

theorem mono (drifts : origin.Drifts back forth scan) {further ahead : Nat} (less : back ≤ further)
    (fewer : forth ≤ ahead) : origin.Drifts further ahead scan :=
  { drifts with low := by have := drifts.low; omega, high := by have := drifts.high; omega }

theorem size (drifts : origin.Drifts back forth scan) : scan.size = origin.size := by
  unfold Scan.size
  rw [drifts.chunk]

theorem position (drifts : origin.Drifts 0 0 scan) : scan.position = origin.position := by
  have low := drifts.low
  have high := drifts.high
  omega

theorem trans {middle : Scan World} (first : origin.Drifts back forth middle) {further ahead : Nat}
    (second : middle.Drifts further ahead scan) :
    origin.Drifts (back + further) (forth + ahead) scan where
  base := second.base.trans first.base
  chunk := second.chunk.trans first.chunk
  alternates := second.alternates.trans first.alternates
  low := by
    have before := first.low
    have after := second.low
    omega
  high := by
    have before := first.high
    have after := second.high
    omega

theorem held (scan : Scan World) : scan.Drifts 1 0 { scan with position := scan.position - 1 } :=
  ⟨rfl, rfl, rfl, by dsimp only; omega, by dsimp only; omega⟩

theorem stopped (scan : Scan World) :
    scan.Drifts 0 1 { scan with position := scan.position + 1 } :=
  ⟨rfl, rfl, rfl, by dsimp only; omega, by dsimp only; omega⟩

theorem lt_size (drifts : origin.Drifts back 0 scan) (high : origin.position ≤ origin.size)
    (inside : origin.position ≠ origin.size) : scan.position < scan.size := by
  have before := drifts.high
  rw [drifts.size]
  omega

end Scan.Drifts

/-- Where alternates may be pending the scan must not move back. -/
theorem Graph.Stacked.place {World : Type} {graph : Graph} {origin scan : Scan World}
    {back forth : Nat} (stacked : graph.Stacked origin) (drifts : origin.Drifts back forth scan)
    {position : Int} (ahead : graph.hasAlternates = true → origin.position ≤ position) :
    graph.Stacked { scan with position := position } where
  ordered := drifts.alternates ▸ stacked.ordered
  behind frame member := by
    have inside : frame ∈ origin.alternates.frames := by simpa [drifts.alternates] using member
    cases pending : graph.hasAlternates with
    | false => simp [stacked.without pending] at inside
    | true =>
        have before := stacked.behind frame inside
        have ahead := ahead pending
        have base := drifts.base
        unfold Scan.absolute at before ⊢
        dsimp only
        omega
  without := drifts.alternates ▸ stacked.without
  tested := drifts.alternates ▸ stacked.tested

theorem Graph.Stacked.drift {World : Type} {graph : Graph} {origin scan : Scan World}
    {back forth : Nat} (stacked : graph.Stacked origin) (drifts : origin.Drifts back forth scan)
    (unheld : graph.hasAlternates = true → back = 0) : graph.Stacked scan := by
  apply stacked.place drifts
  intro pending
  have low := drifts.low
  have clear := unheld pending
  omega

/-- Where actions leave a scan that drifted back before: they hold back keys, and go on by one key
only if one of them stops. -/
structure Graph.Moved {World : Type} (graph : Graph) (origin : Scan World) (back : Nat)
    (actions : List Nat) (control : Control) (scan : Scan World) : Prop where
  drifts : origin.Drifts (back + graph.countKind .hold actions)
    (if control = .stop then 1 else 0) scan
  stopped : control = .stop → 0 < graph.countKind .stop actions

theorem Graph.Moved.cons {World : Type} {graph : Graph} {origin scan : Scan World}
    {back before : Nat} {control : Control} {number : Nat} {rest : List Nat}
    (moved : graph.Moved origin before rest control scan)
    (held : before + graph.countKind .hold rest = back + graph.countKind .hold (number :: rest))
    (stopped : graph.countKind .stop rest ≤ graph.countKind .stop (number :: rest)) :
    graph.Moved origin back (number :: rest) control scan where
  drifts := held ▸ moved.drifts
  stopped isStop := Nat.lt_of_lt_of_le (moved.stopped isStop) stopped

/-- A scan that drifts is left behind as it should be by a step that fails. Nothing is held back
if alternates may be pending. -/
def Graph.Strays {World : Type} (graph : Graph) (origin : Scan World)
    (failed : Scan World → Prop) : Prop :=
  ∀ back scan, (graph.hasAlternates = true → back = 0) → origin.Drifts back 0 scan → failed scan

theorem Graph.Stacked.strays {World : Type} {graph : Graph} {origin : Scan World}
    (stacked : graph.Stacked origin) : graph.Strays origin graph.Stacked :=
  fun _ _ unheld drifts => stacked.drift drifts unheld

/-- The property is not about the state, the call stack, the trace and the world. -/
def Scan.Blind {World : Type} (property : Scan World → Prop) : Prop :=
  ∀ scan state rejected calls trace world, property scan → property { scan with
    state := state, rejected := rejected, calls := calls, trace := trace, world := world }

/-- The property is not about the trace, the world and what callbacks reject. -/
def Scan.Unaware {World : Type} (property : Scan World → Prop) : Prop :=
  ∀ scan rejected trace world, property scan →
    property { scan with rejected := rejected, trace := trace, world := world }

theorem Scan.Blind.unaware {World : Type} {property : Scan World → Prop}
    (blind : Scan.Blind property) : Scan.Unaware property :=
  fun scan rejected trace world => blind scan scan.state rejected scan.calls trace world

theorem Scan.blind_drifts {World : Type} (origin : Scan World) (back forth : Nat) :
    Scan.Blind (origin.Drifts back forth) :=
  fun _ _ _ _ _ _ drifts => { drifts with }

namespace Machine

variable {World : Type} {machine : Machine World} {graph : Graph}

def Reads (machine : Machine World) (fault : Fault) : Prop :=
  ∀ position, fault = .outsideChunk position → machine.Raised (fun _ => True) fault

theorem reads_of_isTable {fault : Fault} (isTable : fault.isTable = true) :
    machine.Reads fault := by
  rintro position rfl
  cases isTable

/-- The question is left open by a table only. -/
def TableOnly {α : Type} (answer : Except Fault α) : Prop :=
  ∀ fault, answer = .error fault → fault.isTable = true

theorem tableOnly_part {α : Type} (table : String) (parts : Array α) (index : Nat) :
    TableOnly (Graph.part table parts index) := by
  intro fault missing
  unfold Graph.part at missing
  split at missing
  next => cases missing
  next =>
    cases missing
    rfl

theorem TableOnly.bind {α β : Type} {answer : Except Fault α} {next : α → Except Fault β}
    (first : TableOnly answer) (second : ∀ value, TableOnly (next value)) :
    TableOnly (answer >>= next) := by
  cases answer with
  | ok value => exact second value
  | error fault =>
      intro other missing
      cases missing
      exact first fault rfl

theorem TableOnly.ok {α : Type} (value : α) : TableOnly (.ok value) := by
  intro fault missing
  cases missing

theorem TableOnly.map {α β : Type} {answer : Except Fault α} (first : TableOnly answer)
    (view : α → β) : TableOnly (view <$> answer) :=
  first.bind fun value => .ok (view value)

theorem reads_of_targetOf {action : Action} {fault : Fault}
    (missing : targetOf action = .error fault) : machine.Reads fault := by
  unfold targetOf at missing
  split at missing
  next => cases missing
  next =>
    cases missing
    exact reads_of_isTable rfl

theorem exists_of_map_part {α β : Type} {table : String} {view : α → β} {parts : Array α}
    {index : Nat} {value : β} (asked : view <$> Graph.part table parts index = .ok value) :
    ∃ found ∈ parts, view found = value := by
  rcases map_eq_ok.mp asked with ⟨found, read, same⟩
  exact ⟨found, Graph.mem_of_part read, same⟩

/-- Faults of tables are harmless, and so are those that callbacks raise. -/
structure Allows (machine : Machine World) (harmless : Fault → Prop) : Prop where
  tables : ∀ fault, fault.isTable = true → harmless fault
  raised : ∀ fault, machine.Raised (fun _ => True) fault → harmless fault

theorem allows_reads : machine.Allows machine.Reads :=
  ⟨fun _ => reads_of_isTable, fun _ raised _ _ => raised⟩

section Unaware

variable {property failed : Scan World → Prop} {harmless : Fault → Prop}
  (unaware : Scan.Unaware property) (allows : machine.Allows harmless)
include unaware

theorem meets_record (kind : EventKind) (state action : Nat) :
    Meets failed harmless property (machine.record kind state action) fun _ => property := by
  unfold record
  split
  next => exact .modify fun scan holds => unaware scan scan.rejected _ scan.world holds
  next => exact .pure fun _ => id

include allows

theorem meets_runHook (action : Nat) :
    Meets failed harmless property (machine.runHook action) fun _ => property := by
  unfold runHook
  split
  next => exact .pure fun _ => id
  next hook bound =>
    have isHook : some hook ∈ machine.hooks :=
      Array.mem_of_getElem? (Option.join_eq_some_iff.mp bound)
    have called : Meets failed harmless property (Step.call hook) fun _ => property := by
      apply Meets.call
      · intro scan holds _ world _
        exact unaware scan scan.rejected scan.trace world holds
      · intro scan _ fault raised
        exact allows.raised fault (.inl ⟨hook, isHook, scan.view, scan.world, trivial, raised⟩)
    apply called.bind
    intro answer
    cases answer with
    | done => exact .pure fun _ => id
    | reject => exact .modify fun scan holds => unaware scan true scan.trace scan.world holds

theorem meets_evaluate (index : Nat) {conditions all : List (Callback World Bool)}
    (own : all ∈ machine.conditions) (part : ∀ condition ∈ conditions, condition ∈ all) :
    Meets failed harmless property (evaluate index conditions) fun _ => property := by
  induction conditions generalizing index with
  | nil => exact .pure fun _ => id
  | cons condition rest induction =>
      have called : Meets failed harmless property (Step.call condition) fun _ => property := by
        apply Meets.call
        · intro scan holds _ world _
          exact unaware scan scan.rejected scan.trace world holds
        · intro scan _ fault raised
          exact allows.raised fault (.inr ⟨all, own, condition, part condition (by simp), scan.view,
            scan.world, trivial, raised⟩)
      apply called.bind
      intro isTrue
      apply (induction (index + 1) fun other member => part other (by simp [member])).bind
      intro others
      exact .pure fun _ => id

theorem meets_conditionValue (space : Nat) :
    Meets failed harmless property (machine.conditionValue space) fun _ => property := by
  apply Meets.question
  · intro conditions found
    exact meets_evaluate unaware allows 0 (Graph.mem_of_part found) fun _ => id
  · intro fault missing
    exact allows.tables fault (tableOnly_part _ _ _ fault missing)

end Unaware

section Blind

variable {property failed : Scan World → Prop} (blind : Scan.Blind property)
  (fails : ∀ scan, property scan → failed scan)
include blind

theorem meets_enter (target : Nat) :
    Meets failed machine.Reads property (modify fun scan => { scan with state := target })
      fun _ => property :=
  .modify fun scan holds => blind scan target scan.rejected scan.calls scan.trace scan.world holds

include fails

theorem meets_runReturn (action : Action) :
    Meets failed machine.Reads property (runReturn action) fun _ => property := by
  unfold runReturn
  apply Meets.getBind
  intro scan holds
  cases scan.calls.pop? with
  | none => exact .throw fails
  | some result =>
      exact .set
        (blind scan result.1.state.toNat scan.rejected result.2 scan.trace scan.world holds)

theorem meets_runCall (action : Action) :
    Meets failed machine.Reads property (runCall action) fun _ => property := by
  unfold runCall
  apply Meets.getBind
  intro scan holds
  cases scan.calls.push? ⟨scan.state, 0, 0⟩ with
  | none => exact .throw fails
  | some calls =>
      apply Meets.question
      · intro target _
        exact .set (blind scan target scan.rejected calls scan.trace scan.world holds)
      · intro fault
        exact reads_of_targetOf

end Blind

/-! ## Lists of actions -/

/-- The machine executes a graph whose lists stand at their places and which holds back one key
at most. -/
structure Poised (machine : Machine World) (graph : Graph) : Prop extends
    machine.Carries graph where
  fromState : ∀ state ∈ graph.states, graph.holds state.fromState = 0
  steady : graph.Steady

section Poised

variable (poised : machine.Poised graph) {origin : Scan World}
include poised

/-- Actions move the scan back by the keys they hold back, and forward by one if they stop. -/
theorem meets_runActions (actions : List Nat) (back : Nat) :
    Meets (origin.Drifts (back + graph.countKind .hold actions) 0) machine.Reads
      (origin.Drifts back 0) (machine.runActions actions) (graph.Moved origin back actions) := by
  induction actions generalizing back with
  | nil =>
      refine .pure fun scan drifts => ⟨?_, fun impossible => by cases impossible⟩
      exact drifts.mono (by omega) (by omega)
  | cons number rest induction =>
      unfold runActions
      refine .question (fun action read => ?_) fun fault missing =>
        reads_of_isTable (tableOnly_part _ _ _ fault missing)
      rw [poised.program] at read
      have found : graph.actions[number]? = some action := Graph.getElem?_of_part read
      have held := graph.countKind_cons .hold rest found
      have stopped := graph.countKind_cons .stop rest found
      have blind := Scan.blind_drifts origin back 0
      have fails : ∀ scan, origin.Drifts back 0 scan →
          origin.Drifts (back + graph.countKind .hold (number :: rest)) 0 scan :=
        fun _ drifts => drifts.mono (by omega) (by omega)
      -- The rest of the list, after an action that has held back the key or has not.
      have later : ∀ before,
          before + graph.countKind .hold rest = back + graph.countKind .hold (number :: rest) →
          Meets (origin.Drifts (back + graph.countKind .hold (number :: rest)) 0) machine.Reads
            (origin.Drifts before 0) (machine.runActions rest)
            (graph.Moved origin back (number :: rest)) := by
        intro before same
        rw [← same]
        apply (induction before).weaken
        exact fun _ _ moved => moved.cons same (by omega)
      have unheld : action.kind ≠ .hold →
          back + graph.countKind .hold rest = back + graph.countKind .hold (number :: rest) := by
        intro other
        rw [held, if_neg other, Nat.add_zero]
      -- An action that jumps leaves the rest out.
      have leaves : Meets (origin.Drifts (back + graph.countKind .hold (number :: rest)) 0)
          machine.Reads (origin.Drifts back 0) (pure .again)
          (graph.Moved origin back (number :: rest)) :=
        .pure fun scan drifts => ⟨fails scan drifts, fun impossible => by cases impossible⟩
      apply Meets.getBind
      intro scan _
      apply (meets_record blind.unaware .action scan.state number).bind
      intro _
      cases kind : action.kind with
      | hook =>
          exact (meets_runHook blind.unaware allows_reads number).bind fun _ =>
            later back (unheld (by simp [kind]))
      | hold =>
          refine .bind (.modify fun scan drifts => drifts.trans (.held scan)) fun _ =>
            later (back + 1) ?_
          rw [held, if_pos kind]
          omega
      | next =>
          refine .question (fun target _ => ?_) fun _ => reads_of_targetOf
          exact (meets_enter blind target).bind fun _ => later back (unheld (by simp [kind]))
      | goto =>
          refine .question (fun target _ => ?_) fun _ => reads_of_targetOf
          exact (meets_enter blind target).bind fun _ => leaves
      | call => exact (meets_runCall blind fails action).bind fun _ => leaves
      | ret => exact (meets_runReturn blind fails action).bind fun _ => leaves
      | stop =>
          refine .bind (.modify fun scan drifts => ?_) fun _ => .pure fun scan => id
          refine ⟨(drifts.trans (.stopped scan)).mono (by omega) (by simp), fun _ => ?_⟩
          rw [stopped, if_pos kind]
          omega

theorem meets_runList {failed : Scan World → Prop} (strays : graph.Strays origin failed)
    {back : Nat} (list : Option Nat) (unheld : graph.hasAlternates = true → back = 0) :
    Meets failed machine.Reads (origin.Drifts back 0) (machine.runList (graph.location list))
      (graph.Moved origin back (graph.actionsOf list)) := by
  rw [poised.toCarries.runList_location]
  apply (meets_runActions poised (graph.actionsOf list) back).failing
  intro scan drifts
  apply strays _ _ _ drifts
  intro pending
  have unheldList := poised.steady.holds_eq_zero pending list
  unfold Graph.holds at unheldList
  rw [unheld pending, unheldList]

/-! ## Alternates -/

theorem meets_discard_runList (stacked : graph.Stacked origin) (list : Option Nat)
    (unheld : graph.holds list = 0) (unstopped : graph.stops list = 0) :
    Meets graph.Stacked machine.Reads (origin.Drifts 0 0)
      (discard (machine.runList (graph.location list))) fun _ => origin.Drifts 0 0 := by
  apply (meets_runList poised stacked.strays list fun _ => rfl).discard
  intro control scan moved
  have drifts := moved.drifts
  have goes : ¬control = .stop := by
    intro isStop
    have positive := moved.stopped isStop
    unfold Graph.stops at unstopped
    omega
  unfold Graph.holds at unheld
  rwa [if_neg goes, unheld] at drifts

omit poised in
theorem level_of_drifts (level : graph.Level origin) {scan : Scan World}
    (drifts : origin.Drifts 0 0 scan) : graph.Level scan where
  toStacked := level.toStacked.drift drifts fun _ => rfl
  low := by
    have low := drifts.low
    have before := level.low
    omega
  high := by
    have high := drifts.high
    have before := level.high
    rw [drifts.size]
    omega

theorem meets_pushAlternate {alternate : Alternate} (pending : graph.hasAlternates = true)
    (unstopped : graph.stops alternate.push = 0 ∧ graph.stops alternate.popTest = 0) :
    Meets graph.Stacked machine.Reads graph.Level (machine.pushAlternate ⟨alternate.target,
      graph.location alternate.push, graph.location alternate.popTest⟩) fun _ => graph.Level := by
  unfold pushAlternate
  apply Meets.getBind
  intro scan level
  cases pushed : scan.alternates.push? _ with
  | none =>
      dsimp only
      split
      next => exact .fault fun position impossible => by cases impossible
      next => exact .throw fun _ => Graph.Level.toStacked
  | some alternates =>
      have frames : alternates.frames = ⟨alternate.target, scan.absolute,
          graph.location alternate.popTest⟩ :: scan.alternates.frames := by
        unfold FrameStack.push? at pushed
        split at pushed
        next => cases pushed
        next => cases pushed; rfl
      have next : graph.Level { scan with alternates := alternates } := {
        level with
        ordered := by
          rw [frames]
          exact List.pairwise_cons.mpr ⟨level.behind, level.ordered⟩
        behind := by
          intro frame member
          rw [frames] at member
          rcases List.mem_cons.mp member with rfl | old
          · exact Int.le_refl _
          · exact level.behind frame old
        without := fun lacks => by cases lacks.symm.trans pending
        tested := by
          intro frame member
          rw [frames] at member
          rcases List.mem_cons.mp member with rfl | old
          · exact ⟨alternate.popTest, rfl, unstopped.2⟩
          · exact level.tested frame old }
      apply Meets.setBind (Scan.Drifts.refl { scan with alternates := alternates })
      apply (meets_record (Scan.blind_drifts _ 0 0).unaware .push alternate.target 0).bind
      intro _
      apply (meets_discard_runList poised next.toStacked alternate.push
        (poised.steady.holds_eq_zero pending _) unstopped.1).weaken
      exact fun _ _ => level_of_drifts next

theorem meets_pushAll {state : State} (member : state ∈ graph.states)
    {alternates : List Alternate} (own : ∀ alternate ∈ alternates, alternate ∈ state.alternates) :
    Meets graph.Stacked machine.Reads graph.Level (machine.pushAll (alternates.map fun alternate =>
      ⟨alternate.target, graph.location alternate.push, graph.location alternate.popTest⟩))
      fun _ => graph.Level := by
  induction alternates with
  | nil => exact .pure fun _ => id
  | cons first rest induction =>
      have isOwn := own first (by simp)
      have pending : graph.hasAlternates = true :=
        Array.any_eq_true'.mpr ⟨state, member, by simpa using List.ne_nil_of_mem isOwn⟩
      have unstopped := poised.steady.unstopped state member first isOwn
      apply (meets_pushAlternate poised pending unstopped).bind
      intro _
      exact induction fun alternate inside => own alternate (by simp [inside])

theorem meets_pushAlternates :
    Meets graph.Stacked machine.Reads graph.Level machine.pushAlternates fun _ => graph.Level := by
  unfold pushAlternates
  apply Meets.getBind
  intro scan level
  split
  next => exact .set { level with }
  next =>
    rw [poised.program]
    refine .question (fun pending asked => ?_) fun fault missing => ?_
    · rcases exists_of_map_part asked with ⟨state, member, rfl⟩
      exact meets_pushAll poised member fun _ => id
    · exact reads_of_isTable ((tableOnly_part _ _ _).map _ fault missing)

end Poised

end Machine

end StateTables
