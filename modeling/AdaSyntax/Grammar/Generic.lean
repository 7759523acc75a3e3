import AdaSyntax.Grammar.Package
import AdaSyntax.Grammar.TypeDeclaration

/-!
Generic declarations and instantiations. The formals have a region of their own, in which the generic
unit is bound first, so that it sees itself and its formals. When the region closes the formals are
published under the unit, and the unit is bound around the declaration.
-/

namespace AdaSyntax

namespace Grammar

open Program

/-! Formals -/

def formalObjectKind : Mode → SymbolKind
  | .input => .constant
  | _ => .object

def formalObject : Program NodeId := do
  let start ← position
  let names ← identifierList
  expect .colon
  let mode ← mode
  let (mark, _) ← typeMark
  let initial ← initialValue
  expect .semicolon
  let node ← add start (.decl (.formalObject names mode mark initial))
  declareAll names (formalObjectKind mode) node
  return node

def formalTypeDefinition (discriminated : Bool) : Program (FormalTypeDef × TypeShape) := do
  match ← kind with
  | .kwLimited | .kwPrivate =>
    let isLimited ← accept .kwLimited
    expect .kwPrivate
    return (.privateType isLimited, .privateType discriminated)
  | .leftParen =>
    advance
    expectAll [.box, .rightParen]
    return (.discrete, .enumeration)
  | .kwRange =>
    advance
    expect .box
    return (.integer, .integer)
  | .kwDigits =>
    advance
    expect .box
    return (.float, .real)
  | .kwDelta =>
    advance
    expect .box
    return (.fixed, .real)
  | .kwArray =>
    let (node, shape) ← arrayDefinition
    return (.array node, shape)
  | .kwAccess =>
    let (node, shape) ← accessDefinition
    return (.access node, shape)
  | _ => reject "a generic formal type definition"

def formalType : Program NodeId := do
  let start ← position
  expect .kwType
  let name ← definingIdentifier
  let discriminated ← isAt .leftParen
  openRegion .typeDeclaration none
  let discriminants ← optionalDiscriminants discriminated
  expect .kwIs
  let (definition, shape) ← formalTypeDefinition discriminated
  expect .semicolon
  let _ ← closeRegion
  let node ← add start (.decl (.formalType name discriminants definition))
  let _ ← declareType name .type node shape
  return node

def formalDefault : Program FormalDefault := do
  if ← accept .kwIs then
    if ← accept .box then return .box else return .name (← name)
  else return .none

def formalSubprogram : Program NodeId := do
  let start ← position
  expect .kwWith
  let node ← reserve start
  let header ← subprogramSpecification node false
  let _ ← closeRegion
  let default ← formalDefault
  expect .semicolon
  fill node start (.decl (.formalSubprogram header.spec default))
  return node

/-! Units -/

def genericSubprogram (node : NodeId) : Program (NodeId × SymbolId) := do
  let header ← subprogramSpecification node true
  let _ ← closeRegion
  return (header.spec, header.symbol)

def genericUnit (node : NodeId) : Program (NodeId × SymbolId) := do
  if ← isAt .kwPackage then packageSpecification (some node) .genericPackage
  else genericSubprogram node

def genericDeclaration : Program NodeId := do
  let start ← position
  expect .kwGeneric
  let node ← reserve start
  openRegion .genericFormal none
  let formals ←
    .items .genericFormalPart .unrecognizedDeclaration (firstOf Rule.genericFormals)
  let (unit, symbol) ← genericUnit node
  expect .semicolon
  let members ← closeRegion
  .step (.publish symbol (members.withoutVisible symbol))
  .step (.bind symbol)
  fill node start (.decl (.generic formals unit))
  return node

/-! Instantiations -/

def genericKind : Program (GenericKind × SymbolKind) := do
  match ← kind with
  | .kwPackage =>
    advance
    return (.package, .package)
  | .kwProcedure =>
    advance
    return (.procedure, .procedure)
  | .kwFunction =>
    advance
    return (.function, .function)
  | _ => reject "a generic instantiation"

def instanceDesignator : GenericKind → Program (DefiningName Nat)
  | .function => functionDesignator
  | _ => definingIdentifier

def packageTemplate (template : NodeId) : Program (Option SymbolId) := do
  match ← classify template with
  | (target, .genericPackage) => return target
  | _ => return none

def genericInstantiation : Program NodeId := do
  let start ← position
  let (kind, symbolKind) ← genericKind
  let name ← instanceDesignator kind
  expectChoice .kwIs
  expectChoice .kwNew
  let template ← expandedName
  let actuals ← optionalActualParameters
  expect .semicolon
  let node ← add start (.decl (.instantiation kind name template actuals))
  let symbol ← declare name symbolKind node
  publishAs symbol (← packageTemplate template)
  return node

end Grammar

end AdaSyntax
