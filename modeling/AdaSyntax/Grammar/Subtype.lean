import AdaSyntax.Grammar.Name

/-!
Subtype indications, constraints and array definitions. What may follow a type mark depends on the shape
of the type; where the shape is unknown, index ranges are tried before discriminants.
-/

namespace AdaSyntax

namespace Grammar

open Program

def shapeOfSymbol : Option SymbolId → Program TypeShape
  | some id => .step (.shapeOf id)
  | none => .pure .unknown

def accuracy : Program (NodeId × Option NodeId) := do
  advance
  let value ← .call .simpleExpression
  return (value, ← after .kwRange range)

def floatingConstraint : Program NodeId := do
  let start ← position
  let (digits, bounds) ← accuracy
  add start (.type (.floatingConstraint digits bounds))

def fixedConstraint : Program NodeId := do
  let start ← position
  let (delta, bounds) ← accuracy
  add start (.type (.fixedConstraint delta bounds))

def indexConstraint : Program NodeId := do
  let start ← position
  let ranges ← parenthesized (separated .comma (discreteRange true))
  add start (.type (.indexConstraint ranges))

def discriminantConstraint : Program NodeId := do
  let start ← position
  let associations ← actualParameters
  add start (.type (.discriminantConstraint associations))

def parenthesizedConstraint (shape : TypeShape) : Program (Option NodeId) :=
  if shape.isArray then attempt indexConstraint
  else if shape.hasDiscriminants then attempt discriminantConstraint
  else if shape = .unknown then tryRules [.indexConstraint, .discriminantConstraint]
  else .pure none

def constraint (shape : TypeShape) : Program (Option NodeId) := do
  match ← kind with
  | .kwRange => attempt rangeConstraint
  | .kwDigits => attempt floatingConstraint
  | .kwDelta => attempt fixedConstraint
  | .leftParen => parenthesizedConstraint shape.dereferenced
  | _ => return none

def subtypeIndication : Program NodeId := do
  let start ← position
  if ← isAt .identifier then
    let (mark, symbol) ← typeMark
    let constraint ← constraint (← shapeOfSymbol symbol)
    add start (.type (.subtypeIndication mark constraint))
  else reject "a subtype indication"

def indicationShape (indication : NodeId) : Program TypeShape := do
  match ← inspect indication with
  | .type (.subtypeIndication mark constraint) =>
    match ← shapeOfSymbol (← classify mark).1 with
    | .array constrained => return .array (constrained || constraint.isSome)
    | shape => return shape
  | _ => return .unknown

/-! Array definitions -/

def indexSubtype : Program NodeId := do
  let start ← position
  let (mark, _) ← typeMark
  expectChoice .kwRange
  expectChoice .box
  add start (.type (.indexSubtype mark))

def arrayOf (indexes : Program NodeId) : Program (List NodeId × NodeId) := do
  expectAll [.kwArray, .leftParen]
  let indexes ← separated .comma indexes
  expectAll [.rightParen, .kwOf]
  return (indexes, ← subtypeIndication)

def unconstrainedArray : Program NodeId := do
  let start ← position
  let (indexes, element) ← arrayOf indexSubtype
  add start (.type (.unconstrainedArray indexes element))

def constrainedArray : Program NodeId := do
  let start ← position
  let (indexes, element) ← arrayOf (discreteRange true)
  add start (.type (.constrainedArray indexes element))

def arrayDefinition : Program (NodeId × TypeShape) := do
  let definition ← firstOf [.unconstrainedArray, .constrainedArray]
  match ← inspect definition with
  | .type (.constrainedArray ..) => return (definition, .array true)
  | _ => return (definition, .array false)

def accessDefinition : Program (NodeId × TypeShape) := do
  let start ← position
  advance
  let designated ← subtypeIndication
  let shape ← indicationShape designated
  return (← add start (.type (.access designated)), .access shape)

end Grammar

end AdaSyntax
