import StateTables.Machine.Step
import StateTables.Source.Lookup

/-! # Generated phases

Everything of a generated machine but its driver: constants and tables, the
machine type, the evaluation of conditions, the execution of actions, and the
treatment of end of input and alternates.
-/

namespace StateTables.Source.Model

/-- How a driver goes on after a list of actions. -/
def controlCode : Control → Expression
  | .next => 0
  | .again => 1
  | .stop => 2

/-! ## Data -/

def constants (model : Model) : Documented :=
  let error := (model.encoding.error.map fun state =>
    (model.named "error", (state : Int))).toList
  ⟨[], .constants <| [(model.named "start", (model.encoding.start : Int)),
    (model.named "first_final", model.encoding.firstFinal)] ++ error⟩

def tables (model : Model) : List Documented :=
  let names := model.conditionNames
  (model.encoding.columns.map fun column => ⟨[], .table (model.named column.name) column⟩) ++
    if names.isEmpty then [] else
      [⟨["Condition names, indexed by the cond argument of OnCond."],
        .texts (model.named "cond_names") names⟩]

def types (model : Model) : List Documented :=
  let type := model.settings.type
  let frame := model.named "frame"
  let stack := toString model.settings.stackDepth
  (if model.encoding.hasAlternates then
    [⟨[frame ++ " is a pending NFA alternate."], .recordType frame ["cs, pos, pop int"]⟩]
  else []) ++
  [⟨[type ++ " scans input for machine " ++ model.encoding.name ++ "."], .recordType type <|
    [ "CS int // current state",
      "Accepted bool // some path processed EOF in a final state",
      "Suspended bool // last Exec ran out of input",
      "Broke bool // last Exec returned from fbreak",
      "OnAction func(m *" ++ type ++ ", action, p int)",
      "OnCond func(m *" ++ type ++ ", cond, p int) bool",
      "stack [" ++ stack ++ "]int",
      "top int",
      "base int",
      "pe int",
      "eof bool",
      "resumed bool",
      "rejected bool" ] ++
    if model.encoding.hasAlternates then ["nfa []" ++ frame] else []⟩]

def resetCode (model : Model) : String :=
  "*m = " ++ model.settings.type ++ "\x7b\nCS: " ++ model.named "start" ++
    ",\nOnAction: m.OnAction,\nOnCond: m.OnCond,\n\x7d"

def publicMethods (model : Model) : List Documented :=
  [ model.documented ["Init resets the machine to the start state. Hooks are kept."]
      "Init" "" none [.host model.resetCode],
    model.documented ["Reject vetoes the NFA alternate whose pop test is running."]
      "Reject" "" none [assign (register "rejected") "true"] ]

/-! ## Entering and leaving -/

def leaving (model : Model) (name : String) (flags : List String) : Documented :=
  model.function name "p int" (some "int") <|
    flags.map (fun flag => assign (register flag) "true") ++
    [assignAll [register "base"] .increase ["p"], give "p"]

def support (model : Model) : List Documented :=
  let atEnd := both (both (register "eof") (equal "p" (register "pe")))
    (atLeast currentState (.name (model.named "first_final")))
  let accepted := if model.encoding.error.isSome then
      both atEnd (notEqual currentState (.name (model.named "error")))
    else atEnd
  [ model.function "begin" "pe int, eof bool" none
      [ assignAll [register "pe", register "eof"] .assign ["pe", "eof"],
        assignAll [register "Suspended", register "Broke"] .assign ["false", "false"] ],
    model.leaving "suspend" ["Suspended", "resumed"],
    model.leaving "broke" ["Broke"],
    model.leaving "finish" [],
    model.documented
      ["ended records acceptance of a path which processed EOF in a final state."]
      "ended" "p int" none [branch accepted [assign (register "Accepted") "true"]] ]

/-! ## Conditions -/

def evaluateSpace (model : Model) (space : ConditionSpace) : List Statement :=
  space.conditions.zipIdx.map fun (name, bit) =>
    branch (method "cond" [numeral (model.conditionNames.idxOf name), "p"])
      [assignAll ["v"] .combine [numeral (Nat.pow 2 bit)]]

def conditions (model : Model) : List Documented :=
  [ model.function "cpc" "space, p int" (some "int")
      [ define "v" 0,
        switchOn "space" (model.encoding.spaces.toList.zipIdx.map fun (space, id) =>
          (some (numeral id), model.evaluateSpace space)),
        give "v" ],
    model.function "cond" "c, p int" (some "bool")
      [give (both (notEqual (register "OnCond") "nil") (method "OnCond" ["m", "c", "p"]))] ]

def conditionSearch (model : Model) : Documented :=
  let columns := model.encoding.transitions
  model.function "condIndex" "slot, p int" (some "int")
    [ define "off" (model.integer columns.offsets "slot"),
      define "space" (model.integer columns.spaces "slot"),
      branch (less "space" 0) [give "off"],
      define "v" (method "cpc" ["space", "p"]),
      assignAll ["lo", "hi"] .define
        ["off", "off" + model.integer columns.lengths "slot" - 1],
      loop (atMost "lo" "hi")
        [ define "mid" middle,
          define "key" (model.integer model.encoding.conditions.keys "mid"),
          choose
            [ (some (less "v" "key"), [assign "hi" ("mid" - 1)]),
              (some (greater "v" "key"), [assign "lo" ("mid" + 1)]),
              (none, [give "mid"]) ] ],
      give (numeral model.encoding.errorEntry) ]

def take (model : Model) : Documented :=
  let columns := model.encoding.conditions
  model.function "take" ("slot int, " ++ model.dataParameters) (some "int")
    [ define "c" (method "condIndex" ["slot", pointee "p"]),
      assign currentState (model.integer columns.targets "c"),
      branchOn "a" (model.integer columns.actions "c") (notEqual "a" 0)
        [give (method "runActions" ["a", "data", "p"])],
      give (controlCode .next) ]

/-! ## Actions -/

def actionCode (model : Model) (id : Nat) (action : Action) : List Statement :=
  let position : Expression := .paren (pointee "p")
  let target := numeral (action.target.getD 0)
  let fail (problem : String) :=
    panicWith (model.settings.tables ++ ": " ++ problem ++ " in action " ++ action.name)
  let top := Expression.element (register "stack") (register "top")
  match action.kind with
  | .hold => [.decrement position]
  | .next => [assign currentState target]
  | .goto => [assign currentState target, give (controlCode .again)]
  | .call =>
    [ branch (equal (register "top") (call "len" [register "stack"]))
        [fail "call stack overflow"],
      assign top currentState,
      .increment (register "top"),
      assign currentState target,
      give (controlCode .again) ]
  | .ret =>
    [ branch (equal (register "top") 0) [fail "call stack underflow"],
      .decrement (register "top"),
      assign currentState top,
      give (controlCode .again) ]
  | .stop => [.increment position, give (controlCode .stop)]
  | .hook =>
    if action.code.isEmpty then
      [branch (notEqual (register "OnAction") "nil")
        [.evaluate (method "OnAction" ["m", numeral id, pointee "p"])]]
    else [.host action.code]

def actionRunner (model : Model) : Documented :=
  let column := model.encoding.actionTable
  let cases := model.encoding.actions.toList.zipIdx.map fun (action, id) =>
    (some (numeral id), .comment action.name :: model.actionCode id action)
  model.documented
    [ "runActions executes the action list at location loc. Inline code sees",
      "the machine m, the input chunk data and the position pointer p." ]
    "runActions" ("loc int, " ++ model.dataParameters) (some "int")
    [ define "n" (model.integer column "loc"),
      countUp "i" ("loc" + 1) (atMost "i" ("loc" + "n"))
        [switchOn (model.integer column "i") cases],
      give (controlCode .next) ]

def stateActions (model : Model) (name : String) (column : Option Column)
    (run : Expression → Statement) : Documented :=
  let body := (column.map fun column =>
    branchOn "a" (model.integer column currentState) (notEqual "a" 0)
      [run (method "runActions" ["a", "data", "p"])]).toList
  model.function name model.dataParameters (some "int") (body ++ [give (controlCode .next)])

/-! ## End of input -/

def eofGuard (model : Model) (columns : EofGuardColumns) : Documented :=
  model.function "eofCond" "p int" (some "bool")
    [ define "space" (model.integer columns.spaces currentState),
      branch (less "space" 0) [give "true"],
      define "v" (method "cpc" ["space", "p"]),
      define "off" (model.integer columns.offsets currentState),
      define "n" (model.integer columns.lengths currentState),
      countUp "i" "off" (less "i" ("off" + "n"))
        [branch (equal (model.integer columns.keys "i") "v") [give "true"]],
      give "false" ]

def atEof (model : Model) (columns : EofColumns) : Documented :=
  let guarded := if columns.guards.isSome then
      both (notEqual "a" 0) (method "eofCond" [pointee "p"])
    else notEqual "a" 0
  let clamp : Statement := .branch ⟨none, less (pointee "p") 0⟩
    (.ofList [assign (pointee "p") 0])
    (.branch ⟨none, greater (pointee "p") (register "pe")⟩
      (.ofList [assign (pointee "p") (register "pe")]) .nothing)
  model.documented
    [ "atEOF takes the EOF transition of the current state if it has one, and",
      "runs its EOF actions otherwise. It returns true if a transition was taken;",
      "the scan then resumes in the target state." ]
    "atEOF" model.dataParameters (some "bool")
    [ branchOn "t" (model.integer columns.transitions currentState) (greater "t" 0)
        [ .evaluate (method "take" ["t" - 1, "data", "p"]),
          .evaluate (method "again" ["data", "p"]),
          clamp,
          give "true" ],
      branchOn "a" (model.integer columns.actions currentState) guarded
        [.evaluate (method "runActions" ["a", "data", "p"])],
      assign (pointee "p") (register "pe"),
      give "false" ]

def eof (model : Model) : List Documented :=
  let stop := controlCode .stop
  [ model.stateActions "from" model.encoding.fromState give,
    model.stateActions "again" model.encoding.toState
      fun run => branch (equal run stop) [give stop] ] ++
    match model.encoding.eof with
    | none => []
    | some columns => (columns.guards.map model.eofGuard).toList ++ [model.atEof columns]

/-! ## Alternates -/

def pushMethod (model : Model) (columns : AlternateColumns) : Documented :=
  let pending := register "nfa"
  model.documented
    [ "nfaPush pushes the NFA alternates of the current state. After a",
      "suspension they have been pushed already." ]
    "nfaPush" ("data []" ++ model.keyType ++ ", p int") none
    [ branch (register "resumed") [assign (register "resumed") "false", givesNothing],
      define "off" (model.integer columns.offsets currentState),
      branch (equal "off" 0) [givesNothing],
      define "n" (model.integer columns.targets "off"),
      countUp "i" ("off" + 1) (atMost "i" ("off" + "n"))
        [ branch (equal (call "len" [pending]) (.number model.settings.alternateDepth))
            [panicWith (model.settings.tables ++ ": NFA stack overflow")],
          assign pending (call "append" [pending, .record (model.named "frame") (.ofList
            [ model.integer columns.targets "i",
              register "base" + "p",
              model.integer columns.popTests "i" ])]),
          branchOn "a" (model.integer columns.pushActions "i") (notEqual "a" 0)
            [.evaluate (method "runActions" ["a", "data", address "p"])] ] ]

def popMethod (model : Model) : Documented :=
  let pending := register "nfa"
  let last := call "len" [pending] - 1
  model.documented
    ["nfaPop continues with the latest pending alternate whose pop test passes."]
    "nfaPop" model.dataParameters (some "bool")
    [ loop (greater (call "len" [pending]) 0) <|
        [ define "f" (.element pending last),
          assign pending (.before pending last),
          branch (less (.field "f" "pos") (register "base"))
            [panicWith (model.settings.tables ++ ": NFA alternate before current chunk")],
          assignAll [currentState, pointee "p"] .assign
            [.field "f" "cs", .field "f" "pos" - register "base"],
          assign (register "rejected") "false",
          branch (notEqual (.field "f" "pop") 0)
            [.evaluate (method "runActions" [.field "f" "pop", "data", "p"])],
          branch (negation (register "rejected")) [give "true"] ] ++
        model.ifError [assign currentState (.name (model.named "error"))] ++
        [.evaluate (method "ended" [pointee "p"])],
      give "false" ]

def alternates (model : Model) : List Documented :=
  match model.encoding.alternates with
  | none => []
  | some columns => [model.pushMethod columns, model.popMethod]

end StateTables.Source.Model
