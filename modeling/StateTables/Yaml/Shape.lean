import StateTables.Text.Quoted
import StateTables.Yaml.Document

/-! # Shapes

A shape tells how the values of a type are found in a document: as texts, truth
values, numbers, lists, tables or records. What does not fit a shape is
reported, and reading goes on. A node that stands for nothing fits every shape
and gives no value. A document that cannot be understood is refused as a whole.
-/

namespace StateTables.Yaml

inductive Misfit where
  | repeatedKey (line : Nat) (key : String) (firstLine : Nat)
  | repeatedField (line : Nat) (field : String) (type : String)
  | unknownField (line : Nat) (field : String) (type : String)
  | mismatch (node : Node) (type : String)
deriving Repr

/-- How the text of a scalar is quoted in messages: long ones are cut. -/
def quotedExtract (text : String) : String :=
  let bytes := text.toUTF8.toList
  if 10 < bytes.length then " `" ++ Text.Utf8.decodeLossy (bytes.take 7) ++ "...`"
  else " `" ++ text ++ "`"

def Misfit.message : Misfit → String
  | .repeatedKey line key firstLine =>
    s!"line {line}: mapping key " ++ Text.Quoted.text key ++ s!" already defined at line {firstLine}"
  | .repeatedField line field type => s!"line {line}: field {field} already set in type {type}"
  | .unknownField line field type => s!"line {line}: field {field} not found in type {type}"
  | .mismatch node type =>
    let extract := if node.tag = "!!seq" || node.tag = "!!map" then "" else quotedExtract node.text
    "line " ++ toString node.line ++ ": cannot unmarshal " ++ node.tag ++ extract ++ " into " ++ type

/-- Where aliases lead, and which of them are being followed. -/
structure Surroundings where
  anchored : List (Nat × Node)
  followed : List Nat
  /-- A bound for the depth of merging. -/
  depth : Nat

abbrev Fitting := ReaderT Surroundings (StateT (List Misfit) (Except Refusal))

def misfit {α : Type} (problem : Misfit) (value : α) : Fitting α := do
  modify (· ++ [problem])
  return value

def mismatch {α : Type} (node : Node) (type : String) : Fitting (Option α) :=
  misfit (.mismatch node type) none

def following {α : Type} (node : Node) (continuation : Node → Fitting α) : Fitting α := do
  match node with
  | .alias _ number name anchored =>
    let surroundings ← read
    if surroundings.followed.contains number then throw (.selfContaining name)
    match surroundings.anchored.lookup anchored with
    | some target =>
      withReader (fun surroundings =>
        { surroundings with followed := number :: surroundings.followed }) (continuation target)
    | none => throw (.selfContaining name)
  | node => continuation node

def meaningOf (tag text : String) : Fitting Meaning :=
  match Meaning.ofTagged tag text with
  | .ok meaning => return meaning
  | .error problem => throw problem

def repeatedKeys : List (Node × Node) → List Misfit
  | [] => []
  | (key, _) :: rest =>
    (rest.filter fun (other, _) => key.sameKey other).map
        (fun (other, _) => .repeatedKey other.line other.text key.line) ++
      repeatedKeys rest

structure Shape (α : Type) where
  /-- The name of the type in messages. -/
  type : String
  /-- The value of a node that stands for nothing. -/
  empty : α
  /-- Read a node that stands for something, is no alias and repeats no key. What
  does not fit gives no value. -/
  read : Node → Fitting (Option α)

namespace Shape

variable {α : Type}

def fit? (shape : Shape α) (node : Node) : Fitting (Option α) :=
  following node fun node => do
    match node with
    | .scalar _ tag text =>
      if (← meaningOf tag text) = .nothing then return none
      shape.read node
    | .mapping _ _ entries =>
      match repeatedKeys entries with
      | [] => shape.read node
      | problems =>
        modify (· ++ problems)
        return none
    | node => shape.read node

def fit (shape : Shape α) (node : Node) : Fitting α := do
  return (← shape.fit? node).getD shape.empty

/-- The text of a scalar, whatever else it might stand for. -/
def text : Shape String where
  type := "string"
  empty := ""
  read node := do
    match node with
    | .scalar _ tag text =>
      match ← meaningOf tag text with
      | .text content => return some content
      | _ => return some text
    | node => mismatch node "string"

def flagOfWord? : String → Option Bool
  | "y" | "Y" | "yes" | "Yes" | "YES" | "on" | "On" | "ON" => some true
  | "n" | "N" | "no" | "No" | "NO" | "off" | "Off" | "OFF" => some false
  | _ => none

def flagOf? : Meaning → Option Bool
  | .flag value => some value
  | .text word => flagOfWord? word
  | _ => none

/-- The word that a number gives without its digits behind the point. Numbers
beyond the signed words below give the least of those. -/
def wordOfNumber? : Number → Option UInt64
  | .undefined => none
  | .infinite negative => if negative then some (.ofNat (Nat.pow 2 63)) else none
  | .finite negative magnitude =>
    let whole := magnitude.whole
    if negative then
      some (.ofInt (-(min whole (Nat.pow 2 63) : Nat)))
    else if whole ≤ Nat.pow 2 64 then some (.ofNat whole) else none

/-- The word a scalar stands for: a number that is not negative, or the whole part
of one with a fraction. -/
def wordOf? : Meaning → Option UInt64
  | .integer value => if 0 ≤ value then some (.ofInt value) else none
  | .number value => wordOfNumber? value
  | _ => none

def ofMeaning (type : String) (empty : α) (value? : Meaning → Option α) : Shape α where
  type := type
  empty := empty
  read node := do
    match node with
    | .scalar _ tag text =>
      match value? (← meaningOf tag text) with
      | some value => return some value
      | none => mismatch node type
    | _ => mismatch node type

def flag : Shape Bool :=
  ofMeaning "bool" false flagOf?

def word : Shape UInt64 :=
  ofMeaning "uint64" 0 wordOf?

def optional (shape : Shape α) : Shape (Option α) where
  type := shape.type
  empty := none
  read node := do return (← shape.read node).map some

def list (element : Shape α) : Shape (List α) where
  type := "[]" ++ element.type
  empty := []
  read
    | .sequence _ _ items => return some ((← items.mapM element.fit?).filterMap id)
    | node => mismatch node ("[]" ++ element.type)

end Shape

/-! ## Mappings -/

structure Storage (Record : Type) where
  /-- Store a value under a name. `stored` are the names stored from this mapping
  before. -/
  store : (key : Node) → (name : String) → (stored : List String) → (value : Node) →
    Record → Fitting Record

abbrev Merged (Record : Type) := Record × Option (List Meaning)

namespace Storage

variable {Record : Type}

def storeEntries (storage : Storage Record) (stored : List String) :
    List (Node × Node) → Merged Record → Fitting (Merged Record)
  | [], merged => return merged
  | (key, value) :: rest, (record, closed) => do
    if key.isMergeKey then storage.storeEntries stored rest (record, closed)
    else match ← Shape.text.fit? key with
      | none => storage.storeEntries stored rest (record, closed)
      | some name =>
        match closed with
        | some names =>
          if names.contains (.text name) then storage.storeEntries stored rest (record, closed)
          else
            let record ← storage.store key name stored value record
            storage.storeEntries (name :: stored) rest (record, some (.text name :: names))
        | none =>
          let record ← storage.store key name stored value record
          storage.storeEntries (name :: stored) rest (record, none)

def keyMeaning? (key : Node) : Fitting (Option Meaning) :=
  following key fun key => do
    match key with
    | .scalar _ tag text => some <$> meaningOf tag text
    | _ => return none

/-- The mappings to be merged: a mapping or alias of one, or a sequence of those. -/
def mergeParts (node : Node) : List Node :=
  match node with
  | .sequence _ _ items => items
  | node => [node]

def isMergeable (node : Node) : Fitting Bool := do
  match node with
  | .alias _ _ _ anchored => return ((← read).anchored.lookup anchored).all Node.isMapping
  | node => return node.isMapping

def storeMapping (storage : Storage Record) :
    (depth : Nat) → List (Node × Node) → Merged Record → Fitting (Merged Record)
  | 0, _, merged => return merged
  | depth + 1, entries, merged => do
    let (record, closed) ← storage.storeEntries [] entries merged
    match (entries.filter fun (key, _) => key.isMergeKey).getLast? with
    | none => return (record, closed)
    | some (_, value) =>
      let names ← match closed with
        | some names => pure names
        | none => do pure ((← entries.mapM fun (key, _) => keyMeaning? key).filterMap id)
      let (record, names) ← (mergeParts value).foldlM (fun (record, names) part => do
        if !(← isMergeable part) then throw .unmergeable
        following part fun part => do
          match part with
          | .mapping _ _ inner =>
            match repeatedKeys inner with
            | [] => storeMapping storage depth inner (record, names)
            | problems =>
              modify (· ++ problems)
              return (record, names)
          | _ => return (record, names)) (record, some names)
      return (record, if closed.isSome then names else none)

def storeAll (storage : Storage Record) (entries : List (Node × Node)) (empty : Record) :
    Fitting Record := do
  let (record, _) ← storage.storeMapping ((← read).depth) entries (empty, none)
  return record

end Storage

/-- The entries of a mapping, by name. Entries without a name are passed over. -/
def Shape.table {α : Type} (element : Shape α) : Shape (List (String × α)) where
  type := "map[string]" ++ element.type
  empty := []
  read
    | .mapping _ _ entries =>
      let storage : Storage (List (String × α)) :=
        { store := fun _ name _ value table => do
            let content ← element.fit value
            return table.filter (fun (other, _) => other != name) ++ [(name, content)] }
      some <$> storage.storeAll entries []
    | node => mismatch node ("map[string]" ++ element.type)

structure FieldShape (Record : Type) where
  name : String
  store : Node → Record → Fitting Record

def FieldShape.of {α Record : Type} (name : String) (shape : Shape α)
    (set : α → Record → Record) : FieldShape Record where
  name := name
  store node record := do
    match ← shape.fit? node with
    | some value => return set value record
    | none => return record

/-- Entries go into the fields of their names. If there is none, that is a misfit
unless the record is open to more fields. -/
def Storage.ofFields {Record : Type} (type : String) (isOpen : Bool)
    (fields : List (FieldShape Record)) : Storage Record where
  store key name stored value record :=
    match fields.find? fun field => field.name == name with
    | some field =>
      if stored.contains name then misfit (.repeatedField key.line name type) record
      else field.store value record
    | none =>
      if isOpen then return record
      else misfit (.unknownField key.line name type) record

def Shape.record {Record : Type} (type : String) (isOpen : Bool) (empty : Record)
    (fields : List (FieldShape Record)) : Shape Record where
  type := type
  empty := empty
  read
    | .mapping _ _ entries =>
      some <$> (Storage.ofFields type isOpen fields).storeAll entries empty
    | node => mismatch node type

/-! ## Documents -/

inductive DocumentError where
  | noDocument
  | unreadable (problem : Problem)
  | refused (problem : Refusal)
  | misfits (problems : List Misfit)
deriving Repr

def DocumentError.message : DocumentError → String
  | .noDocument => "EOF"
  | .unreadable problem => "yaml: " ++ problem.message
  | .refused problem => "yaml: " ++ problem.message
  | .misfits problems =>
    "yaml: unmarshal errors:\n  " ++ "\n  ".intercalate (problems.map Misfit.message)

def Shape.ofDocument {α : Type} (shape : Shape α) (text : String) : Except DocumentError α :=
  match readDocument text with
  | .error problem => .error (.unreadable problem)
  | .ok none => .error .noDocument
  | .ok (some document) =>
    match ((shape.fit document.root).run ⟨document.anchored, [], text.length + 1⟩).run [] with
    | .error problem => .error (.refused problem)
    | .ok (value, []) => .ok value
    | .ok (_, problems) => .error (.misfits problems)

end StateTables.Yaml
