import StateTables.Yaml.Meaning

/-! # Nodes of documents

A document is a tree of scalars, sequences and mappings. Instead of a node there
can be an alias that stands for a node elsewhere, even for one around it.
-/

namespace StateTables.Yaml

inductive Node where
  | scalar (line : Nat) (tag text : String)
  | sequence (line : Nat) (tag : String) (items : List Node)
  | mapping (line : Nat) (tag : String) (entries : List (Node × Node))
  /-- Aliases are numbered. The node that one stands for has a number too, among
  the nodes with anchors. -/
  | alias (line : Nat) (number : Nat) (name : String) (anchored : Nat)
deriving Repr

namespace Node

def line : Node → Nat
  | .scalar line _ _ => line
  | .sequence line _ _ => line
  | .mapping line _ _ => line
  | .alias line _ _ _ => line

def tag : Node → String
  | .scalar _ tag _ => tag
  | .sequence _ tag _ => tag
  | .mapping _ tag _ => tag
  | .alias _ _ _ _ => ""

def text : Node → String
  | .scalar _ _ text => text
  | .alias _ _ name _ => name
  | _ => ""

def sameKey : Node → Node → Bool
  | .scalar _ _ text, .scalar _ _ other => text == other
  | .sequence _ _ _, .sequence _ _ _ => true
  | .mapping _ _ _, .mapping _ _ _ => true
  | .alias _ _ name _, .alias _ _ other _ => name == other
  | _, _ => false

def isMergeKey : Node → Bool
  | .scalar _ tag text => tag == "!!merge" && text == "<<"
  | _ => false

def isMapping : Node → Bool
  | .mapping _ _ _ => true
  | _ => false

end Node

structure Document where
  root : Node
  anchored : List (Nat × Node)
deriving Repr

def defaultTag (plain : Bool) (text : String) : String :=
  if plain then (Meaning.ofText true text).tag else "!!str"

end StateTables.Yaml
