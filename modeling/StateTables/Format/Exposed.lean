import StateTables.Format.Tree

/-! # Exposed composite values

Where a brace opens a block, a composite value whose type is a name stands between
parentheses. The parentheses around a term can only be left out there if the term
contains no such value outside of other parentheses.
-/

namespace StateTables.Format

inductive Part where
  | term (term : Term)
  | statement (statement : Statement)
  | declaration (declaration : Declaration)

namespace Part

def ofTerms (terms : List Term) : List Part :=
  terms.map .term

def ofBlock (block : Block) : List Part :=
  block.statements.map .statement

def ofFields (fields : Fields) : List Part :=
  fields.fields.flatMap fun field =>
    ofTerms (field.names ++ field.type :: field.tag.toList)

def ofSignature : Signature → List Part
  | .mk typeParameters parameters results =>
    (typeParameters.toList ++ parameters :: results.toList).flatMap ofFields

def ofTerm (term : Term) : List Part :=
  match term.form with
  | .name _ | .literal _ _ => []
  | .function signature body => ofSignature signature ++ ofBlock body
  | .composite type _ elements _ => ofTerms (type.toList ++ elements)
  | .paren inner _ => [.term inner]
  | .selector record field => ofTerms [record, field]
  | .index array _ indices _ => ofTerms (array :: indices)
  | .slice array _ low high limit _ =>
    ofTerms (array :: (low.toList ++ high.toList ++ limit.toList))
  | .assertion value _ type _ => ofTerms (value :: type.toList)
  | .call function _ arguments _ _ => ofTerms (function :: arguments)
  | .star operand => [.term operand]
  | .unary _ operand => [.term operand]
  | .binary left _ _ right => ofTerms [left, right]
  | .pair key _ value => ofTerms [key, value]
  | .ellipsis element => ofTerms element.toList
  | .arrayType length element => ofTerms (length.toList ++ [element])
  | .structType fields => ofFields fields
  | .functionType signature => ofSignature signature
  | .interfaceType methods => ofFields methods
  | .mapType key value => ofTerms [key, value]
  | .channelType _ _ value => [.term value]

def ofStatement (statement : Statement) : List Part :=
  let own (statement? : Option Statement) : List Part := statement?.toList.map .statement
  match statement.form with
  | .declaration declared => [.declaration declared]
  | .empty => []
  | .labeled label _ inner => [.term label, .statement inner]
  | .evaluate value => [.term value]
  | .send channel _ value => ofTerms [channel, value]
  | .count operand _ _ => [.term operand]
  | .assign left _ _ right => ofTerms (left ++ right)
  | .launch _ call => [.term call]
  | .result values => ofTerms values
  | .jump _ label => ofTerms label.toList
  | .block block => ofBlock block
  | .branch initial condition body otherwise =>
    own initial ++ .term condition :: (ofBlock body ++ own otherwise)
  | .caseClause terms _ body => ofTerms (terms.getD []) ++ body.map .statement
  | .switch initial subject body => own initial ++ ofTerms subject.toList ++ ofBlock body
  | .typeSwitch initial guard body => own initial ++ .statement guard :: ofBlock body
  | .channelClause operation _ body => own operation ++ body.map .statement
  | .select body => ofBlock body
  | .loop initial condition after body =>
    own initial ++ ofTerms condition.toList ++ own after ++ ofBlock body
  | .rangeLoop key value _ _ subject body =>
    ofTerms (key.toList ++ value.toList ++ [subject]) ++ ofBlock body

def ofSpecification : Specification → List Part
  | .imported name path => ofTerms (name.toList ++ [path])
  | .values names type values _ => ofTerms (names ++ type.toList ++ values)
  | .type name parameters _ type =>
    .term name :: (parameters.toList.flatMap ofFields ++ [.term type])

def ofDeclaration : Declaration → List Part
  | .group _ _ _ _ specifications _ _ => specifications.flatMap ofSpecification
  | .function _ _ receiver name signature body _ =>
    receiver.toList.flatMap ofFields ++ .term name ::
      (ofSignature signature ++ body.toList.flatMap ofBlock)

end Part

def Term.namesType : Term → Bool
  | .mk _ _ (.name _) => true
  | .mk _ _ (.selector record _) => record.namesType
  | _ => false

def Part.isExposed : Nat → Part → Bool
  | 0, _ => false
  | fuel + 1, .term whole =>
    match whole.form with
    | .paren _ _ => false
    | .composite type _ _ _ => (type.map Term.namesType).getD false
    | _ => (Part.ofTerm whole).any (isExposed fuel)
  | fuel + 1, .statement whole => (Part.ofStatement whole).any (isExposed fuel)
  | fuel + 1, .declaration whole => (Part.ofDeclaration whole).any (isExposed fuel)

def exposureDepth : Nat := 1000000

/-- A term without the parentheses around it that it does not need before a block. -/
def Term.bare : Term → Term
  | .mk start stopLine (.paren inner closing) =>
    if Part.isExposed exposureDepth (.term inner) then .mk start stopLine (.paren inner closing)
    else inner.bare
  | term => term

end StateTables.Format
