/-! # Byte patterns

Regular patterns over bytes, matched by derivatives: the derivative of a
pattern by a byte matches what may follow that byte. A pattern that has become
`nothing` can not be continued.
-/

namespace StateTables

inductive Pattern where
  | nothing
  | empty
  | byte (accepts : UInt8 → Bool)
  | sequence (first second : Pattern)
  | choice (left right : Pattern)
  /-- One or more times. -/
  | repeated (item : Pattern)

namespace Pattern

/-- The byte sequences a pattern stands for. -/
inductive Matches : Pattern → List UInt8 → Prop where
  | empty : Matches .empty []
  | byte {accepts : UInt8 → Bool} {value : UInt8} (accepted : accepts value = true) :
      Matches (.byte accepts) [value]
  | sequence {first second : Pattern} {front back : List UInt8} :
      Matches first front → Matches second back →
      Matches (.sequence first second) (front ++ back)
  | left {left right : Pattern} {bytes : List UInt8} :
      Matches left bytes → Matches (.choice left right) bytes
  | right {left right : Pattern} {bytes : List UInt8} :
      Matches right bytes → Matches (.choice left right) bytes
  | once {item : Pattern} {bytes : List UInt8} :
      Matches item bytes → Matches (.repeated item) bytes
  | more {item : Pattern} {front back : List UInt8} :
      Matches item front → Matches (.repeated item) back →
      Matches (.repeated item) (front ++ back)

def nullable : Pattern → Bool
  | .nothing => false
  | .empty => true
  | .byte _ => false
  | .sequence first second => first.nullable && second.nullable
  | .choice left right => left.nullable || right.nullable
  | .repeated item => item.nullable

def followedBy (first second : Pattern) : Pattern :=
  match first with
  | .nothing => .nothing
  | _ => .sequence first second

def orElse (left right : Pattern) : Pattern :=
  match left, right with
  | .nothing, _ => right
  | _, .nothing => left
  | _, _ => .choice left right

/-- What may follow a byte. -/
def derivative (value : UInt8) : Pattern → Pattern
  | .nothing => .nothing
  | .empty => .nothing
  | .byte accepts => if accepts value then .empty else .nothing
  | .sequence first second =>
    if first.nullable then
      ((derivative value first).followedBy second).orElse (derivative value second)
    else (derivative value first).followedBy second
  | .choice left right => (derivative value left).orElse (derivative value right)
  | .repeated item => (derivative value item).followedBy (.choice .empty (.repeated item))

/-- Can the pattern be continued or end here? -/
def alive : Pattern → Bool
  | .nothing => false
  | _ => true

def exactly (character : Char) : Pattern :=
  .byte fun value => value.toNat == character.toNat

def oneOf (characters : List Char) : Pattern :=
  .byte fun value => characters.any fun character => value.toNat == character.toNat

def noneOf (characters : List Char) : Pattern :=
  .byte fun value => !characters.any fun character => value.toNat == character.toNat

def word (text : String) : Pattern :=
  text.toList.foldr (fun character rest => match rest with
    | .empty => exactly character
    | _ => .sequence (exactly character) rest) .empty

end Pattern

end StateTables
