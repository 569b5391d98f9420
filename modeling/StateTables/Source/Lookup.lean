import StateTables.Source.Vocabulary

/-! # Generated key lookup

The body of the method that finds the slot for a state and a key: by reading a
dense row, by bisection of sorted keys, or by comparisons.
-/

namespace StateTables.Source

namespace Model

def distance (model : Model) (before : Option Expression) (key low : Expression) :
    Expression :=
  let add (term : Expression) : Expression := match before with
    | some before => before + term
    | none => term
  if model.encoding.alphabet.host.signed then add (call "int" [key]) - call "int" [low]
  else add (call "int" [key - low])

/-! ## Dense rows -/

def locateByKey (model : Model) (keys : FlatKeys) : List Statement :=
  let otherwise := give (model.integer keys.indexDefaults "cs")
  [ branch (equal (model.entry keys.keySpans "cs") 0) [otherwise],
    assignAll ["lo", "hi"] .define
      [model.entry keys.transKeys (2 * "cs"), model.entry keys.transKeys (2 * "cs" + 1)],
    branch (either (less "k" "lo") (greater "k" "hi")) [otherwise],
    give (model.integer keys.indices
      (model.distance (some (model.integer keys.indexOffsets "cs")) "k" "lo")) ]

def locateByClass (model : Model) (keys : FlatKeys) (classes : ClassMap) : List Statement :=
  let alphabet := model.encoding.alphabet
  let envelope := classes.envelope.getD ⟨.ofInt 0, .ofInt 0⟩
  let otherwise := give (model.integer keys.indexDefaults "cs")
  let noRow := equal (model.entry keys.keySpans "cs") 0
  let notBelow := if envelope.low = alphabet.low then noRow
    else either noRow (less "k" (model.keyNumber envelope.low))
  let outside := if envelope.high = alphabet.high then notBelow
    else either notBelow (greater "k" (model.keyNumber envelope.high))
  let low := call model.keyType [model.keyNumber envelope.low]
  [ branch outside [otherwise],
    define "class" (model.integer classes.column (model.distance none "k" low)),
    assignAll ["lo", "hi"] .define
      [model.integer keys.transKeys (2 * "cs"), model.integer keys.transKeys (2 * "cs" + 1)],
    branch (either (less "class" "lo") (greater "class" "hi")) [otherwise],
    give (model.integer keys.indices (model.integer keys.indexOffsets "cs" + "class" - "lo")) ]

/-! ## Sorted keys -/

def middle : Expression :=
  "lo" + shiftRight (.paren ("hi" - "lo")) 1

def pairMiddle : Expression :=
  "lo" + .paren (.binary .without (shiftRight (.paren ("hi" - "lo")) 1) 1)

def locateSorted (model : Model) (keys : BinaryKeys) : List Statement :=
  let slot (entry : Expression) : Statement := match keys.indices with
    | some indices => give (model.integer indices entry)
    | none => give entry
  let key (index : Expression) := model.entry keys.transKeys index
  [ define "keys" (model.integer keys.keyOffsets "cs"),
    assignAll ["ns", "nr"] .define
      [model.integer keys.singleLengths "cs", model.integer keys.rangeLengths "cs"],
    define "off" (model.integer keys.indexOffsets "cs"),
    assignAll ["lo", "hi"] .define ["keys", "keys" + "ns" - 1],
    loop (atMost "lo" "hi")
      [ define "mid" middle,
        choose
          [ (some (less "k" (key "mid")), [assign "hi" ("mid" - 1)]),
            (some (greater "k" (key "mid")), [assign "lo" ("mid" + 1)]),
            (none, [slot ("off" + "mid" - "keys")]) ] ],
    assignAll ["lo", "hi"] .assign
      ["keys" + "ns", "keys" + "ns" + 2 * .paren ("nr" - 1)],
    loop (atMost "lo" "hi")
      [ define "mid" pairMiddle,
        choose
          [ (some (less "k" (key "mid")), [assign "hi" ("mid" - 2)]),
            (some (greater "k" (key ("mid" + 1))), [assign "lo" ("mid" + 2)]),
            (none, [slot ("off" + "ns" + shiftRight (.paren ("mid" - "keys" - "ns")) 1)]) ] ],
    slot ("off" + "ns" + "nr") ]

/-! ## Comparisons -/

/-- The comparisons a key that reached a node has still to pass. -/
def check (model : Model) (range : SlotRange) (checkLow checkHigh : Bool) :
    Option Expression :=
  let low := atLeast "k" (model.keyNumber range.low)
  let high := atMost "k" (model.keyNumber range.high)
  match checkLow, checkHigh with
  | true, true => some (both low high)
  | true, false => some low
  | false, true => some high
  | false, false => none

/-- Chain branches: each is tried if those before it are not taken. -/
def chain : List (Expression × Block) → Otherwise → Otherwise
  | [], last => last
  | (condition, body) :: rest, last => .branch ⟨none, condition⟩ body (chain rest last)

def chainBlock : Otherwise → Block
  | .nothing => .nil
  | .block body => body
  | .branch guard body otherwise => .cons (.branch guard body otherwise) .nil

/-- The comparisons of a tree. A key without a range falls off the end. -/
def treeBlock (model : Model) : RangeTree → Block
  | .miss => .nil
  | .node range checkLow checkHigh lower higher =>
    let found : Block := .cons (give (numeral range.slot)) .nil
    let below := if lower.isMiss then []
      else [(less "k" (model.keyNumber range.low), model.treeBlock lower)]
    let above := if higher.isMiss then []
      else [(greater "k" (model.keyNumber range.high), model.treeBlock higher)]
    chainBlock <| match model.check range checkLow checkHigh with
      | some condition => chain (below ++ above ++ [(condition, found)]) .nothing
      | none => chain (below ++ above) (.block found)

def statements : Block → List Statement
  | .nil => []
  | .cons head tail => head :: statements tail

/-- The lookup in one state: a switch over its singles, the comparisons of its
ranges, and its fallback. -/
def stateLookup (model : Model) (state : SwitchState) : List Statement :=
  (if state.singles.isEmpty then [] else
    [switchOn "k" (state.singles.map fun single =>
      (some (model.keyNumber single.key), [give (numeral single.slot)]))]) ++
    statements (model.treeBlock state.ranges) ++
    (state.fallback.map fun slot => give (numeral slot)).toList

def locateByComparison (model : Model) (states : Array SwitchState) : List Statement :=
  let cases := states.toList.zipIdx.filterMap fun (state, id) =>
    let body := model.stateLookup state
    if body.isEmpty then none else some (some (numeral id), body)
  [switchOn "cs" cases, give (.number (-1))]

def locate (model : Model) : Documented :=
  let body := match model.encoding.lookup with
    | .flat keys => match keys.classMap with
      | some classes => model.locateByClass keys classes
      | none => model.locateByKey keys
    | .binary keys => model.locateSorted keys
    | .switch states => model.locateByComparison states
  model.function "locate" ("cs int, k " ++ model.keyType) (some "int") body

end Model

end StateTables.Source
