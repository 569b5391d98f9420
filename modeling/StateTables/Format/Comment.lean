import StateTables.Format.Token

/-! # Comments

Comments are set apart from the other tokens, and gathered in groups. A token knows
whether a group stands right above it, and whether one stands before it on the line
of the token before.
-/

namespace StateTables.Format

structure Comment where
  place : Place
  text : String
deriving DecidableEq, Repr

namespace Comment

/-- Does a comment go to the end of its line? -/
def isLine (comment : Comment) : Bool :=
  comment.text.startsWith "//"

def stopLine (comment : Comment) : Nat :=
  comment.place.line + comment.text.toList.count '\n'

def stop (comment : Comment) : Place :=
  comment.text.toList.foldl Place.past comment.place

end Comment

/-- A token with what is known about the comments before it. -/
structure Marked where
  lexeme : Lexeme
  /-- Is there a group of comments right above? -/
  isHeaded : Bool
  /-- Does a group of comments end the line of the token before? -/
  isTrailed : Bool
deriving DecidableEq, Repr

namespace Comment

/-- The group at the head of some comments: each starts at most `gap` lines below
the end of the one before. -/
def group (gap : Nat) (line : Nat) : List Comment → List Comment × Nat
  | [] => ([], line)
  | comment :: rest =>
    if comment.place.line ≤ line + gap then
      let (more, stop) := group gap comment.stopLine rest
      (comment :: more, stop)
    else ([], line)

/-- Comments in groups of adjacent lines, and the line the last group ends on. -/
def groups : Nat → List Comment → List (List Comment) × Nat
  | 0, _ => ([], 0)
  | _, [] => ([], 0)
  | fuel + 1, comment :: rest =>
    let (first, stop) := group 1 comment.place.line (comment :: rest)
    match (comment :: rest).drop first.length with
    | [] => ([first], stop)
    | others =>
      let (more, stop) := groups fuel others
      (first :: more, stop)

def gather (lastLine : Nat) (comments : List Comment) (lexeme : Lexeme) :
    List (List Comment) × Marked :=
  let line := lexeme.place.line
  let isFirst := (comments.head?.map fun comment => comment.place.line == lastLine).getD false
  let (first, stop) := if isFirst then group 0 lastLine comments else ([], 0)
  let (others, lowest) := groups (comments.length + 1) (comments.drop first.length)
  let isTrailed := isFirst &&
    (line != stop || lexeme.token.isSemicolon || lexeme.token == .finish)
  let isHeaded := !others.isEmpty && lowest + 1 == line
  (if isFirst then first :: others else others, ⟨lexeme, isHeaded, isTrailed⟩)

/-- Set comments apart from other tokens, behind what is given last first. -/
def separate (lastLine : Nat) (pending : List Comment) (groups : List (List Comment))
    (tokens : Array Marked) : List Lexeme → List (List Comment) × Array Marked
  | [] => (groups.reverse, tokens)
  | lexeme :: rest =>
    match lexeme.token with
    | .comment text => separate lastLine (⟨lexeme.place, text⟩ :: pending) groups tokens rest
    | _ =>
      let (found, marked) := gather lastLine pending.reverse lexeme
      separate lexeme.place.line [] (found.reverse ++ groups) (tokens.push marked) rest

end Comment

end StateTables.Format
