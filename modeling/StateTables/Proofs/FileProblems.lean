import StateTables.GraphFile.Build
import StateTables.Proofs.Records

/-! # Problems of graph files

Each entry of a graph file is reported or handed to the draft, whatever became of the entries before
it. Reports and problems of the draft are never lost, so a file that fails because of one of the two
says all there is to say. But reports keep the draft from being built, and so its problems are left
out where there is anything to report.
-/

namespace StateTables

/-! ## Texts of failures -/

/-- The text stands in the text of the failure. -/
def Failure.Mentions (failure : Failure) (text : String) : Prop :=
  text.toList <:+: failure.message.toList

instance (failure : Failure) (text : String) : Decidable (failure.Mentions text) :=
  inferInstanceAs (Decidable (text.toList <:+: failure.message.toList))

theorem infix_intercalate {α : Type} {separator part : List α} {parts : List (List α)}
    (member : part ∈ parts) : part <:+: separator.intercalate parts := by
  induction parts with
  | nil => cases member
  | cons first parts induction =>
      cases parts with
      | nil =>
          obtain rfl := List.mem_singleton.mp member
          have alone : separator.intercalate [part] = part := List.intercalate_singleton
          exact alone.symm ▸ List.infix_rfl
      | cons second parts =>
          rw [List.intercalate_cons_cons, List.append_assoc]
          rcases List.mem_cons.mp member with rfl | member
          · exact (List.prefix_append _ _).isInfix
          · exact (induction member).trans
              ((List.suffix_append _ _).trans (List.suffix_append _ _)).isInfix

theorem Failure.mentions_gather {failures : List Failure} {failure : Failure}
    (member : failure ∈ failures) : (gather failures).Mentions failure.message := by
  rw [Mentions, gather, String.toList_intercalate, List.map_map]
  exact infix_intercalate (List.mem_map_of_mem member)

theorem GraphFileError.mentions_diagnosed {diagnostics : Diagnostics} {message : String}
    (member : message ∈ diagnostics.messages) :
    (GraphFileError.diagnosed diagnostics).failure.Mentions message := by
  have counted : diagnostics.count ≠ 0 := List.length_pos_iff.mpr (List.ne_nil_of_mem member) |>.ne'
  have inside : message.toList <:+: ("; ".intercalate diagnostics.messages).toList := by
    rw [String.toList_intercalate]
    exact infix_intercalate (List.mem_map_of_mem member)
  rw [Failure.Mentions, failure, Diagnostics.failure?, if_neg counted]
  refine inside.trans ⟨(toString diagnostics.count ++ " error(s): ").toList,
    (": " ++ Reason.diagnostics.sentence ++ (": " ++ Reason.graphFile.sentence)).toList, ?_⟩
  simp only [Option.map_some, Option.getD_some, Failure.because, String.toList_append,
    List.append_assoc]

theorem GraphFileError.mentions_rejected {problems : List GraphError} {problem : GraphError}
    (member : problem ∈ problems) :
    (GraphFileError.rejected problems).failure.Mentions problem.failure.message :=
  Failure.mentions_gather (List.mem_append_left _ (List.mem_map_of_mem member))

/-! ## Entries -/

/-- What becomes of an entry: a report, or operations on the draft. -/
inductive Handover where
  | reported (message : String)
  | handed (operations : List DraftStep)

namespace Handover

def message? : Handover → Option String
  | .reported message => some message
  | .handed _ => none

def operations : Handover → List DraftStep
  | .reported _ => []
  | .handed operations => operations

def guarded (spaces : List (String × ConditionSpace)) (state name : String)
    (operations : ConditionSpace → List DraftStep) : Handover :=
  match spaces.lookup name with
  | some space => .handed (operations space)
  | none => .reported <|
      "state " ++ state ++ ": unknown condition space " ++ Text.Quoted.text name

end Handover

def ActionEntry.handover (entry : ActionEntry) : Handover :=
  match if entry.kind.isEmpty then some .hook else ActionKind.named? entry.kind with
  | some kind => .handed [.defineAction ⟨entry.name, kind, entry.code, entry.target⟩]
  | none => .reported <|
      "action " ++ entry.name ++ ": unknown kind " ++ Text.Quoted.text entry.kind

section States

variable (alphabet : Alphabet) (spaces : List (String × ConditionSpace)) (state : String)

def BranchEntry.handover (entry : BranchEntry) (operations : Branch → List DraftStep) : Handover :=
  if entry.guard.isEmpty then .handed (operations (.plain entry.target))
  else .guarded spaces state entry.guard fun space => operations ⟨some space, entry.outcomes⟩

/-- A transition is reported if its keys can not be read. -/
def TransitionEntry.handover (entry : TransitionEntry) : Handover :=
  match alphabet.readKeyList entry.keys with
  | .error problem => .reported ("state " ++ state ++ ": " ++ (problem.failure entry.keys).message)
  | .ok ranges => entry.branch.handover spaces state fun branch =>
      ranges.map fun range => .addClaim state ⟨range.low, range.high, branch⟩

def actionsHandover (actions : List String) (operation : String → List String → DraftStep) :
    Handover :=
  .handed (if actions.isEmpty then [] else [operation state actions])

def StateEntry.handovers (entry : StateEntry) : List Handover :=
  entry.transitions.map (·.handover alphabet spaces entry.name) ++
    entry.fallback.toList.map (·.handover spaces entry.name fun branch =>
      [.setFallback entry.name branch]) ++
    [actionsHandover entry.name entry.toState .setToState,
      actionsHandover entry.name entry.fromState .setFromState,
      actionsHandover entry.name entry.eofActions .setEofActions] ++
    entry.eofGuard.toList.map (fun guard => .guarded spaces entry.name guard.space fun space =>
      [.guardEof entry.name space guard.values]) ++
    entry.eofTarget.toList.map (fun target => .handed [.setEofTransition entry.name target]) ++
    entry.alternates.map (fun alternate => .handed [.addAlternate entry.name alternate])

end States

/-! ## Loading -/

theorem Draft.mem_errors_of_prefix {name : String} {alphabet : Alphabet}
    {earlier operations : List DraftStep} (before : earlier <+: operations) {problem : GraphError}
    (found : problem ∈ (ofSteps name alphabet earlier).errors) :
    problem ∈ (ofSteps name alphabet operations).errors := by
  rcases before with ⟨later, rfl⟩
  induction later using List.reverseRecOn with
  | nil => rwa [List.append_nil]
  | append_singleton later operation induction =>
      rw [← List.append_assoc, ofSteps_concat]
      exact mem_errors_perform _ operation induction

namespace Assembly

def take (assembly : Assembly) : Handover → Assembly
  | .reported message => assembly.report message
  | .handed operations => assembly.change (operations.foldl Draft.perform)

section Take

variable (assembly : Assembly) (handovers : List Handover)

theorem draft_foldl_take : (handovers.foldl take assembly).draft =
    (handovers.flatMap Handover.operations).foldl Draft.perform assembly.draft := by
  induction handovers generalizing assembly with
  | nil => rfl
  | cons handover handovers induction =>
      rw [List.foldl_cons, induction, List.flatMap_cons, List.foldl_append]
      cases handover <;> rfl

theorem messages_foldl_take : (handovers.foldl take assembly).diagnostics.messages =
    assembly.diagnostics.messages ++ handovers.filterMap Handover.message? := by
  induction handovers generalizing assembly with
  | nil => rw [List.filterMap_nil, List.append_nil]; rfl
  | cons handover handovers induction =>
      rw [List.foldl_cons, induction]
      cases handover with
      | reported message =>
          have found : (Handover.reported message).message? = some message := rfl
          rw [List.filterMap_cons_some found, take, report, Diagnostics.report, List.append_assoc]
          rfl
      | handed operations =>
          rw [List.filterMap_cons_none rfl]
          rfl

theorem spaces_foldl_take : (handovers.foldl take assembly).spaces = assembly.spaces := by
  induction handovers generalizing assembly with
  | nil => rfl
  | cons handover handovers induction =>
      rw [List.foldl_cons, induction]
      cases handover <;> rfl

theorem alphabet_foldl_take :
    (handovers.foldl take assembly).draft.alphabet = assembly.draft.alphabet := by
  rw [draft_foldl_take]
  generalize handovers.flatMap Handover.operations = operations
  induction operations using List.reverseRecOn with
  | nil => rfl
  | append_singleton operations operation induction =>
      rw [List.foldl_append, List.foldl_cons, List.foldl_nil, Draft.alphabet_perform, induction]

end Take

structure Knows (alphabet : Alphabet) (spaces : List (String × ConditionSpace))
    (assembly : Assembly) : Prop where
  alphabet : assembly.draft.alphabet = alphabet
  spaces : assembly.spaces = spaces

/-- The step takes in the handovers, one after the other. -/
def Takes (alphabet : Alphabet) (spaces : List (String × ConditionSpace))
    (step : Assembly → Assembly) (handovers : List Handover) : Prop :=
  ∀ assembly : Assembly, assembly.Knows alphabet spaces →
    step assembly = handovers.foldl take assembly

section Takes

variable {alphabet : Alphabet} {spaces : List (String × ConditionSpace)}

theorem Knows.foldl_take {assembly : Assembly} (knows : assembly.Knows alphabet spaces)
    (handovers : List Handover) : (handovers.foldl take assembly).Knows alphabet spaces where
  alphabet := (alphabet_foldl_take assembly handovers).trans knows.alphabet
  spaces := (spaces_foldl_take assembly handovers).trans knows.spaces

theorem Takes.one {step : Assembly → Assembly} {handover : Handover}
    (same : ∀ assembly : Assembly, assembly.Knows alphabet spaces →
      step assembly = assembly.take handover) : Takes alphabet spaces step [handover] :=
  same

theorem Takes.andThen {step further : Assembly → Assembly} {handovers later : List Handover}
    (takes : Takes alphabet spaces step handovers) (goesOn : Takes alphabet spaces further later) :
    Takes alphabet spaces (fun assembly => further (step assembly)) (handovers ++ later) := by
  intro assembly knows
  dsimp only
  rw [takes assembly knows, List.foldl_append]
  exact goesOn _ (knows.foldl_take handovers)

theorem Takes.all {Entry : Type} {step : Assembly → Entry → Assembly}
    {handovers : Entry → List Handover}
    (takes : ∀ entry, Takes alphabet spaces (step · entry) (handovers entry))
    (entries : List Entry) :
    Takes alphabet spaces (entries.foldl step ·) (entries.flatMap handovers) := by
  induction entries with
  | nil => exact fun _ _ => rfl
  | cons entry entries induction => exact (takes entry).andThen induction

theorem Takes.each {Entry : Type} {step : Assembly → Entry → Assembly}
    {handover : Entry → Handover}
    (takes : ∀ entry, Takes alphabet spaces (step · entry) [handover entry])
    (entries : List Entry) :
    Takes alphabet spaces (entries.foldl step ·) (entries.map handover) := by
  rw [List.map_eq_flatMap]
  exact .all takes entries

/-! ### What entries become -/

theorem takes_addAction (entry : ActionEntry) :
    Takes alphabet spaces (addAction · entry) [entry.handover] := by
  refine .one fun assembly _ => ?_
  unfold addAction ActionEntry.handover
  cases if entry.kind.isEmpty then some .hook else ActionKind.named? entry.kind <;> rfl

theorem takes_addActions (operation : String → List String → DraftStep) (state : String)
    (actions : List String) :
    Takes alphabet spaces
      (addActions · actions fun names draft => draft.perform (operation state names))
      [actionsHandover state actions operation] := by
  refine .one fun assembly _ => ?_
  unfold addActions actionsHandover
  split <;> rfl

theorem take_guarded {assembly : Assembly} (knows : assembly.Knows alphabet spaces)
    (state name : String) (operations : ConditionSpace → List DraftStep) :
    assembly.take (.guarded spaces state name operations) =
      match assembly.spaces.lookup name with
      | some space => assembly.change ((operations space).foldl Draft.perform)
      | none => assembly.reportSpace state name := by
  rw [Handover.guarded, knows.spaces]
  cases spaces.lookup name <;> rfl

variable (state : String)

theorem takes_withBranch (entry : BranchEntry) {step : Branch → Draft → Draft}
    {operations : Branch → List DraftStep}
    (same : ∀ branch draft, step branch draft = (operations branch).foldl Draft.perform draft) :
    Takes alphabet spaces (withBranch · state entry step)
      [entry.handover spaces state operations] := by
  refine .one fun assembly knows => ?_
  unfold withBranch BranchEntry.handover
  split
  next => exact congrArg assembly.change (funext (same _))
  next =>
    rw [take_guarded knows]
    cases assembly.spaces.lookup entry.guard with
    | none => rfl
    | some space => exact congrArg assembly.change (funext (same _))

theorem takes_addTransition (entry : TransitionEntry) :
    Takes alphabet spaces (addTransition state · entry)
      [entry.handover alphabet spaces state] := by
  refine .one fun assembly knows => ?_
  rw [addTransition, TransitionEntry.handover, knows.alphabet]
  cases alphabet.readKeyList entry.keys with
  | error problem => rfl
  | ok ranges =>
      refine takes_withBranch state entry.branch (fun branch draft => ?_) assembly knows
      rw [List.foldl_map]
      rfl

theorem takes_addGuard (entry : EofGuardEntry) : Takes alphabet spaces (addGuard state · entry)
    [.guarded spaces state entry.space fun space => [.guardEof state space entry.values]] := by
  refine .one fun assembly knows => ?_
  rw [take_guarded knows]
  rfl

theorem takes_addState (entry : StateEntry) :
    Takes alphabet spaces (addState · entry) (entry.handovers alphabet spaces) := by
  have transitions : Takes alphabet spaces
      (entry.transitions.foldl (addTransition entry.name) ·) _ :=
    .each (takes_addTransition entry.name) _
  have fallback : Takes alphabet spaces (entry.fallback.toList.foldl (fun assembly branch =>
      assembly.withBranch entry.name branch fun branch draft =>
        draft.setFallback entry.name branch) ·)
      (entry.fallback.toList.map (·.handover spaces entry.name fun branch =>
        [.setFallback entry.name branch])) := by
    refine .each (fun branch => ?_) _
    exact takes_withBranch entry.name branch fun _ _ => rfl
  have target : Takes alphabet spaces (entry.eofTarget.toList.foldl (fun assembly target =>
      assembly.change fun draft => draft.setEofTransition entry.name target) ·)
      (entry.eofTarget.toList.map fun target => .handed [.setEofTransition entry.name target]) := by
    refine .each (fun target => ?_) _
    exact .one fun _ _ => rfl
  have alternates : Takes alphabet spaces (entry.alternates.foldl (fun assembly alternate =>
      assembly.change fun draft => draft.addAlternate entry.name alternate) ·)
      (entry.alternates.map fun alternate => .handed [.addAlternate entry.name alternate]) := by
    refine .each (fun alternate => ?_) _
    exact .one fun _ _ => rfl
  exact transitions.andThen fallback
    |>.andThen (takes_addActions .setToState entry.name entry.toState
      |>.andThen (takes_addActions .setFromState entry.name entry.fromState)
      |>.andThen (takes_addActions .setEofActions entry.name entry.eofActions))
    |>.andThen (.each (takes_addGuard entry.name) entry.eofGuard.toList)
    |>.andThen target
    |>.andThen alternates

end Takes

theorem addSpaces_eq (entries : List (String × List String)) (assembly : Assembly) :
    entries.foldl addSpace assembly =
      { assembly.take (.handed (entries.map fun entry => .internSpace entry.2)) with
        spaces := (entries.foldl addSpace assembly).spaces } := by
  induction entries generalizing assembly with
  | nil => rfl
  | cons entry entries induction =>
      rw [List.foldl_cons, induction]
      rfl

end Assembly

namespace GraphFile

variable (file : GraphFile) (host : IntegerType)

def graphName : String :=
  if file.name.isEmpty then "fsm" else file.name

def narrowed : Alphabet :=
  (Assembly.start file host).draft.alphabet

theorem draft_start :
    (Assembly.start file host).draft = .empty file.graphName (file.narrowed host) := by
  unfold narrowed Assembly.start
  rcases file.alphabet.range with _ | ⟨_, _ | ⟨_, _ | _⟩⟩ <;> rfl

def orderedSpaces : List (String × List String) :=
  file.spaces.mergeSort fun (name, _) (other, _) => !decide (other < name)

def madeSpaces : List (String × ConditionSpace) :=
  (file.orderedSpaces.foldl Assembly.addSpace
    (file.actions.foldl Assembly.addAction (.start file host))).spaces

theorem foldl_addAction : file.actions.foldl Assembly.addAction (.start file host) =
    (file.actions.map ActionEntry.handover).foldl Assembly.take (.start file host) :=
  Assembly.Takes.each Assembly.takes_addAction file.actions _ ⟨rfl, rfl⟩

theorem spaces_foldl_addSpace (entries : List (String × List String)) (assembly : Assembly) :
    (entries.foldl Assembly.addSpace assembly).spaces.map Prod.fst =
      (entries.map Prod.fst).reverse ++ assembly.spaces.map Prod.fst := by
  induction entries generalizing assembly with
  | nil => rfl
  | cons entry entries induction =>
      rw [List.foldl_cons, induction, List.map_cons, List.reverse_cons, List.append_assoc]
      rfl

/-- A condition space is known exactly if the file has one of the name. -/
theorem isSome_lookup_madeSpaces_iff {name : String} :
    ((file.madeSpaces host).lookup name).isSome = true ↔ name ∈ file.spaces.map Prod.fst := by
  have before : (file.actions.foldl Assembly.addAction (.start file host)).spaces = [] := by
    rw [foldl_addAction, Assembly.spaces_foldl_take, Assembly.start]
    rcases file.alphabet.range with _ | ⟨_, _ | ⟨_, _ | _⟩⟩ <;> rfl
  have names : (file.madeSpaces host).map Prod.fst = (file.orderedSpaces.map Prod.fst).reverse := by
    rw [madeSpaces, spaces_foldl_addSpace, before]
    exact List.append_nil _
  have known : ((file.madeSpaces host).lookup name).isSome = true ↔
      name ∈ (file.madeSpaces host).map Prod.fst := by
    rw [List.lookup_isSome_iff, List.mem_map]
    exact exists_congr fun space => and_congr_right fun _ => beq_iff_eq.trans eq_comm
  rw [known, names, List.mem_reverse]
  exact ((List.mergeSort_perm _ _).map Prod.fst).mem_iff

def startHandover : Handover :=
  if file.start.isEmpty then .reported "no start state" else .handed [.setStart file.start]

def declarations : List DraftStep :=
  file.states.map (fun state => .declareState state.name) ++
    .markFinal file.final :: if file.errorRequired then [.requireError] else []

def opening : List Handover :=
  file.actions.map ActionEntry.handover ++
    [.handed (file.orderedSpaces.map fun entry => .internSpace entry.2)]

def closing : List Handover :=
  [file.startHandover, .handed file.declarations] ++
    file.states.flatMap (StateEntry.handovers (file.narrowed host) (file.madeSpaces host))

def handovers : List Handover :=
  (Assembly.start file host).diagnostics.messages.map .reported ++ file.opening ++
    file.closing host

def operations : List DraftStep :=
  (file.handovers host).flatMap Handover.operations

def reports : List String :=
  (file.handovers host).filterMap Handover.message?

section Loading

variable {alphabet : Alphabet} {spaces : List (String × ConditionSpace)}

theorem takes_setStart :
    Assembly.Takes alphabet spaces (Assembly.setStart · file.start) [file.startHandover] := by
  refine .one fun assembly _ => ?_
  unfold startHandover Assembly.setStart
  split <;> rfl

theorem takes_declarations : Assembly.Takes alphabet spaces (fun assembly =>
    let declared := assembly.change fun draft =>
      (file.states.foldl (fun draft state => draft.declareState state.name) draft).markFinal
        file.final
    if file.errorRequired then declared.change Draft.requireError else declared)
    [.handed file.declarations] := by
  refine .one fun assembly _ => ?_
  have declared : ∀ draft : Draft, file.declarations.foldl Draft.perform draft =
      (if file.errorRequired then [DraftStep.requireError] else []).foldl Draft.perform
        ((file.states.foldl (fun draft state => draft.declareState state.name) draft).markFinal
          file.final) := by
    intro draft
    rw [declarations, List.foldl_append, List.foldl_map, List.foldl_cons]
    rfl
  rw [Assembly.take, funext declared]
  cases file.errorRequired <;> rfl

end Loading

/-- Behind the actions and the condition spaces, the spaces are known by their names. -/
theorem foldl_opening : file.orderedSpaces.foldl Assembly.addSpace
    (file.actions.foldl Assembly.addAction (.start file host)) =
      { file.opening.foldl Assembly.take (.start file host) with
        spaces := file.madeSpaces host } := by
  rw [opening, List.foldl_append, ← foldl_addAction]
  exact Assembly.addSpaces_eq _ _

theorem assemble_eq_foldl : file.assemble host = (file.closing host).foldl Assembly.take
    { file.opening.foldl Assembly.take (.start file host) with
      spaces := file.madeSpaces host } := by
  have knows : Assembly.Knows (file.narrowed host) (file.madeSpaces host)
      { file.opening.foldl Assembly.take (.start file host) with
        spaces := file.madeSpaces host } :=
    ⟨Assembly.alphabet_foldl_take (.start file host) file.opening, rfl⟩
  have loaded := (file.takes_setStart.andThen file.takes_declarations).andThen
    (.all Assembly.takes_addState file.states) _ knows
  rw [← foldl_opening] at loaded ⊢
  exact loaded

/-- What is reported and what is handed to the draft does not depend on what was reported or refused
before. -/
theorem assemble_eq :
    (file.assemble host).draft =
        Draft.ofSteps file.graphName (file.narrowed host) (file.operations host) ∧
      (file.assemble host).diagnostics.messages = file.reports host := by
  have silent : ((Assembly.start file host).diagnostics.messages.map Handover.reported).flatMap
      Handover.operations = [] := by simp [Handover.operations]
  have told : ((Assembly.start file host).diagnostics.messages.map Handover.reported).filterMap
      Handover.message? = (Assembly.start file host).diagnostics.messages := by
    rw [List.filterMap_map]
    exact List.filterMap_some
  rw [assemble_eq_foldl, Assembly.draft_foldl_take, Assembly.messages_foldl_take,
    Assembly.draft_foldl_take, Assembly.messages_foldl_take, draft_start, Draft.ofSteps,
    operations, reports, handovers, List.flatMap_append, List.flatMap_append, silent,
    List.nil_append, List.foldl_append, List.filterMap_append, List.filterMap_append, told]
  exact ⟨rfl, rfl⟩

/-! ## Building -/

variable {file host} (known : IntegerType.declared? file.alphabet.type = some host)
include known

/-- Anything that is reported keeps the draft from being built. -/
theorem build_of_reports (reported : file.reports host ≠ []) :
    file.build = .error (.diagnosed ⟨file.reports host⟩) := by
  have messages := (file.assemble_eq host).2
  have count : (file.assemble host).diagnostics.count ≠ 0 := by
    rw [Diagnostics.count, messages]
    exact (List.length_pos_iff.mpr reported).ne'
  unfold build
  rw [known]
  dsimp only
  rw [if_pos count, ← messages]

theorem build_of_no_reports (silent : file.reports host = []) :
    file.build = match (Draft.ofSteps file.graphName (file.narrowed host)
        (file.operations host)).build.2 with
      | .ok graph => .ok graph
      | .error problems => .error (.rejected problems) := by
  have count : ¬(file.assemble host).diagnostics.count ≠ 0 := by
    rw [Diagnostics.count, (file.assemble_eq host).2, silent]
    exact not_not.mpr rfl
  unfold build
  rw [known, ← (file.assemble_eq host).1]
  exact if_neg count

/-- A file that fails says all that is reported about it. If there are reports, it says nothing
else, whatever is wrong with what was handed to the draft. Without reports it says all that building
the draft reports, and these are at least the problems that any of the operations left behind. -/
theorem problems_reported {error : GraphFileError} (failed : file.build = .error error) :
    (∀ message ∈ file.reports host, error.failure.Mentions message) ∧
    (file.reports host ≠ [] → error = .diagnosed ⟨file.reports host⟩) ∧
    (file.reports host = [] → ∃ problems,
      (Draft.ofSteps file.graphName (file.narrowed host) (file.operations host)).build.2 =
        .error problems ∧
      (∀ problem ∈ problems, error.failure.Mentions problem.failure.message) ∧
      ∀ earlier, earlier <+: file.operations host →
        ∀ problem ∈ (Draft.ofSteps file.graphName (file.narrowed host) earlier).errors,
          problem ∈ problems) := by
  have diagnosed : file.reports host ≠ [] → error = .diagnosed ⟨file.reports host⟩ :=
    fun reported => (Except.error.inj ((build_of_reports known reported).symm.trans failed)).symm
  refine ⟨fun message member => ?_, diagnosed, fun silent => ?_⟩
  · rw [diagnosed (List.ne_nil_of_mem member)]
    exact GraphFileError.mentions_diagnosed member
  · rw [build_of_no_reports known silent] at failed
    cases built : (Draft.ofSteps file.graphName (file.narrowed host)
        (file.operations host)).build with
    | mk after result =>
        rw [built] at failed
        cases result with
        | ok graph => cases failed
        | error problems =>
            cases failed
            refine ⟨problems, rfl, fun problem => GraphFileError.mentions_rejected,
              fun earlier before problem found => ?_⟩
            rcases Draft.build_of_problem _ (Draft.mem_errors_of_prefix before found) with
              ⟨_, _, same, member⟩
            rw [built] at same
            cases same
            exact member

end GraphFile

namespace Sample

def overlapFile (kind : String) : GraphFile where
  name := "overlap"
  alphabet := ⟨"char", []⟩
  start := "s"
  final := []
  errorRequired := false
  actions := [⟨"a", kind, "", ""⟩]
  spaces := []
  states := [{
    name := "s"
    transitions := [⟨"1..9", ⟨"", [], ⟨"s", []⟩⟩⟩, ⟨"5", ⟨"", [], ⟨"s", []⟩⟩⟩]
    fallback := none
    toState := []
    fromState := []
    eofActions := []
    eofGuard := none
    eofTarget := none
    alternates := [] }]

theorem reports_overlapFile : (overlapFile "jump").reports ⟨true, .one⟩ =
    ["action a: unknown kind \"jump\""] := by
  decide +kernel

theorem build_overlapFile : (overlapFile "jump").build =
    .error (.diagnosed ⟨["action a: unknown kind \"jump\""]⟩) := by
  rw [← reports_overlapFile]
  exact GraphFile.build_of_reports rfl (by rw [reports_overlapFile]; exact List.cons_ne_nil _ _)

theorem overlap_mem_errors : ∀ kind ∈ ["hook", "jump"],
    GraphError.overlap "s" "5" "5" "1" "9" ∈ (Draft.ofSteps (overlapFile kind).graphName
      ((overlapFile kind).narrowed ⟨true, .one⟩)
      ((overlapFile kind).operations ⟨true, .one⟩)).errors := by
  decide +kernel

end Sample

/-- The overlap is reported if the action is a hook. If its kind is unknown, that is reported. -/
theorem problems_reported_sample :
    (∃ error, (Sample.overlapFile "hook").build = .error error ∧
      error.failure.Mentions (GraphError.overlap "s" "5" "5" "1" "9").failure.message) ∧
    ∃ error, (Sample.overlapFile "jump").build = .error error ∧
      error.failure.Mentions "action a: unknown kind \"jump\"" := by
  constructor
  · have silent : (Sample.overlapFile "hook").reports ⟨true, .one⟩ = [] := by decide +kernel
    have overlap := Sample.overlap_mem_errors "hook" (by simp)
    rcases Draft.build_of_problem _ overlap with ⟨_, problems, built, _⟩
    have failed : (Sample.overlapFile "hook").build = .error (.rejected problems) := by
      rw [GraphFile.build_of_no_reports rfl silent, built]
    rcases (GraphFile.problems_reported rfl failed).2.2 silent with ⟨_, _, mentions, every⟩
    exact ⟨_, failed, mentions _ (every _ List.prefix_rfl _ overlap)⟩
  · refine ⟨_, Sample.build_overlapFile, ?_⟩
    refine (GraphFile.problems_reported rfl Sample.build_overlapFile).1 _ ?_
    rw [Sample.reports_overlapFile]
    exact List.mem_singleton_self _

/-- The overlap is left out if the kind of the action is unknown. -/
theorem problems_left_out_sample :
    ¬∀ (file : GraphFile) (host : IntegerType) (error : GraphFileError),
      IntegerType.declared? file.alphabet.type = some host → file.build = .error error →
        (∀ message ∈ file.reports host, error.failure.Mentions message) ∧
        ∀ problem ∈ (Draft.ofSteps file.graphName (file.narrowed host)
            (file.operations host)).errors, error.failure.Mentions problem.failure.message := by
  intro all
  have overlap := Sample.overlap_mem_errors "jump" (by simp)
  have mentions := (all _ _ _ rfl Sample.build_overlapFile).2 _ overlap
  revert mentions
  decide +kernel

end StateTables
