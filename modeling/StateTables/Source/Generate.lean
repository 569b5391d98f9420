import StateTables.Format
import StateTables.Source.Phases

/-! # Generating source

The source of a machine: constants, tables, the machine type, the phases of a
scan, and a method that moves control between them the way the chosen driver
does.
-/

namespace StateTables.Source

namespace Model

/-! ## Pieces of drivers -/

def pushStatements (model : Model) : List Statement :=
  model.ifAlternates [.evaluate (method "nfaPush" ["data", "p"])]

def currentSlot : Expression :=
  method "locate" [currentState, .element "data" "p"]

/-- Process the end of input; after a transition the statements follow. -/
def eofStatements (model : Model) (afterwards : List Statement) : List Statement :=
  model.ifEof [branch (method "atEOF" ["data", address "p"]) afterwards]

def keyStatements : List Statement :=
  let leave := give (method "broke" ["p"])
  let stop := controlCode .stop
  [ assign "_ctl" (method "from" ["data", address "p"]),
    branch (equal "_ctl" (controlCode .next))
      [assign "_ctl" (method "take" [currentSlot, "data", address "p"])],
    branch (equal "_ctl" stop) [leave],
    branch (equal (method "again" ["data", address "p"]) stop) [leave] ]

def outStatements (model : Model) (resume : List Statement) : List Statement :=
  [.evaluate (method "ended" ["p"])] ++
    model.ifAlternates [branch (method "nfaPop" ["data", address "p"]) resume] ++
    [give (method "finish" ["p"])]

def suspendStatement : Statement :=
  branch (negation "eof") [give (method "suspend" ["p"])]

/-! ## Drivers -/

def gotoStatements (model : Model) : List Statement :=
  let out := model.ifError [branch model.inError [.jump "_out"]]
  [.declare "_ctl" "int", .label "_resume"] ++ model.pushStatements ++
    [branch (equal "p" "pe") [.jump "_test_eof"]] ++ out ++ keyStatements ++ out ++
    [.increment "p", .jump "_resume", .label "_test_eof", suspendStatement] ++
    model.eofStatements [.jump "_resume"] ++ model.ifError [.label "_out"] ++
    model.outStatements [.jump "_resume"]

def phasedStatements (model : Model) : List Statement :=
  let enter (phase : Expression) : List Statement :=
    [assign "_targ" phase, .continueAt "_goto"]
  let out := model.ifError [branch model.inError (enter 2)]
  let resume := model.pushStatements ++ [branch (equal "p" "pe") (enter 1)] ++ out ++
    [.declare "_ctl" "int"] ++ keyStatements ++ out ++ [.increment "p"]
  let testEof := [suspendStatement] ++ model.eofStatements (enter 0) ++ [assign "_targ" 2]
  [ define "_targ" 0,
    .label "_goto",
    .loop .forever (.ofList
      [switchOn "_targ"
        [ (some 0, resume),
          (some 1, testEof),
          (some 2, model.outStatements (enter 0)) ]]) ]

def flaggedPhases (model : Model) : Statement :=
  let key := [ branch (equal (method "from" ["data", address "p"]) (controlCode .next))
      [.evaluate (method "take" [currentSlot, "data", address "p"])],
    .evaluate (method "again" ["data", address "p"]) ]
  let eof := [suspendStatement, assign "_out" "true"] ++
    model.eofStatements [assign "_out" "false"]
  let otherwise : Otherwise := if model.encoding.error.isSome then
      .branch ⟨none, model.inError⟩ (.ofList [assign "_out" "true"]) <|
        .block <| .ofList <| key ++ [.branch ⟨none, model.inError⟩
          (.ofList [assign "_out" "true"]) (.block (.ofList [.increment "p"]))]
    else .block (.ofList (key ++ [.increment "p"]))
  .branch ⟨none, equal "p" "pe"⟩ (.ofList eof) otherwise

def flaggedStatements (model : Model) : List Statement :=
  let goesOn := if model.encoding.hasAlternates then method "nfaPop" ["data", address "p"]
    else "false"
  [ define "_cont" "true",
    loop "_cont" <|
      [define "_out" "false"] ++ model.pushStatements ++
      [ model.flaggedPhases,
        branch "_out" [.evaluate (method "ended" ["p"]), assign "_cont" goesOn] ],
    give (method "finish" ["p"]) ]

def execute (model : Model) : Documented :=
  let body := match model.settings.driver with
    | .goto => model.gotoStatements
    | .phased => model.phasedStatements
    | .flagged => model.flaggedStatements
  model.documented
    [ "Exec scans a chunk of input. With eof set, the chunk ends the input.",
      "It returns the position in data where scanning stopped." ]
    "Exec" ("data []" ++ model.keyType ++ ", eof bool") (some "int") <|
    [ assignAll ["p", "pe"] .define [0, call "len" ["data"]],
      .evaluate (method "begin" ["pe", "eof"]) ] ++ body

/-! ## The file -/

def declarations (model : Model) : List Documented :=
  [model.constants] ++ model.tables ++ model.types ++ model.publicMethods ++ model.support ++
    [model.locate] ++ model.conditions ++ [model.conditionSearch, model.take] ++
    [model.actionRunner] ++ model.eof ++ model.alternates ++ [model.execute]

end Model

inductive SourceError where
  | controlUnsupported (machine : String)
  /-- Names of the settings or code of actions make the source unreadable. -/
  | malformed
deriving DecidableEq, Repr

def SourceError.failure : SourceError → Failure
  | .controlUnsupported machine => .because .sourceControl machine
  | .malformed => .plain "malformed source"

def generate (encoding : Encoding) (settings : Settings) : Except SourceError String :=
  let settings := settings.completed
  if settings.driver == .flagged && encoding.usesControl then
    .error (.controlUnsupported encoding.name)
  else
    let model : Model := ⟨encoding, settings⟩
    match Format.canonical (fileText settings.package model.declarations) with
    | some source => .ok source
    | none => .error .malformed

end StateTables.Source
