import AdaSyntax.Grammar.Subprogram

/-!
Simple declarations, renamings, body stubs, use clauses and pragmas. A name is declared when its
declaration is complete, so an initial value never sees the object it is for.
-/

namespace AdaSyntax

namespace Grammar

open Program

def declarativeItems (context : Context) : Program (List NodeId) :=
  .items context .unrecognizedDeclaration (firstOf Rule.declarativeItems)

def declarativePart : Program (List NodeId) := declarativeItems .declarativePart

def objectSubtype (isConstant : Bool) : Program NodeId := do
  let isNumber ← isAt .assign
  if isConstant && isNumber then reject "a subtype indication"
  else if ← isAt .kwArray then constrainedArray
  else subtypeIndication

def objectKind (isConstant : Bool) (initial : Option NodeId) : SymbolKind :=
  if !isConstant then .object
  else if initial.isSome then .constant
  else .deferredConstant

def objectDeclaration : Program NodeId := do
  let start ← position
  let names ← identifierList
  expect .colon
  let isConstant ← accept .kwConstant
  let indication ← objectSubtype isConstant
  let initial ← initialValue
  expect .semicolon
  let node ← add start (.decl (.object names isConstant indication initial))
  declareAll names (objectKind isConstant initial) node
  return node

def numberDeclaration : Program NodeId := do
  let start ← position
  let names ← identifierList
  expectAll [.colon, .kwConstant, .assign]
  let value ← expression
  expect .semicolon
  let node ← add start (.decl (.number names value))
  declareAll names .namedNumber node
  return node

def exceptionDeclaration : Program NodeId := do
  let start ← position
  let names ← identifierList
  expectAll [.colon, .kwException, .semicolon]
  let node ← add start (.decl (.exception names))
  declareAll names .exception node
  return node

def subtypeDeclaration : Program NodeId := do
  let start ← position
  expect .kwSubtype
  let name ← definingIdentifier
  expect .kwIs
  let indication ← subtypeIndication
  expect .semicolon
  let shape ← indicationShape indication
  let node ← add start (.decl (.subtype name indication))
  let _ ← declareType name .subtype node shape
  return node

/-! Renamings -/

def renamedEntity : Program NodeId := do
  expectChoice .kwRenames
  let renamed ← name
  expect .semicolon
  return renamed

def objectRenamingKind : Program (Renaming × SymbolKind) := do
  if ← accept .kwException then return (.exception, .exception)
  else return (.object (← typeMark).1, .object)

def objectRenaming : Program NodeId := do
  let start ← position
  let name ← definingIdentifier
  expect .colon
  let (kind, symbolKind) ← objectRenamingKind
  let renamed ← renamedEntity
  let node ← add start (.decl (.renames name kind renamed))
  let _ ← declare name symbolKind node
  return node

def publishAs (synonym : SymbolId) : Option SymbolId → Program Unit
  | some target => .step (.publishAlias synonym target)
  | none => .pure ()

def packageRenaming : Program NodeId := do
  let start ← position
  advance
  let name ← definingIdentifier
  let renamed ← renamedEntity
  let node ← add start (.decl (.renames name .package renamed))
  let synonym ← declare name .package node
  publishAs synonym (← classify renamed).1
  return node

def subprogramRenaming : Program NodeId := do
  let start ← position
  let node ← reserve start
  let header ← subprogramSpecification node false
  let renamed ← renamedEntity
  let _ ← closeRegion
  fill node start (.decl (.renames header.name (.subprogram header.spec) renamed))
  return node

def renamingDeclaration : Program NodeId := do
  match ← kind with
  | .identifier => objectRenaming
  | .kwPackage => packageRenaming
  | .kwProcedure | .kwFunction => subprogramRenaming
  | _ => reject "a renaming declaration"

/-! Body stubs -/

def separateTail : Program Unit := do
  expect .kwIs
  expectChoice .kwSeparate
  expect .semicolon

def packageStub : Program NodeId := do
  let start ← position
  advance
  expect .kwBody
  let name ← definingIdentifier
  separateTail
  add start (.decl (.bodyStub (.package name)))

def subprogramStub : Program NodeId := do
  let start ← position
  let node ← reserve start
  let header ← subprogramSpecification node false
  separateTail
  let _ ← closeRegion
  fill node start (.decl (.bodyStub (.subprogram header.spec)))
  return node

def bodyStub : Program NodeId := do
  match ← kind with
  | .kwPackage => packageStub
  | .kwProcedure | .kwFunction => subprogramStub
  | _ => reject "a body stub"

/-! Use clauses and pragmas -/

def usePackage (package : NodeId) : Program Unit := do
  match ← classify package with
  | (some id, .package) | (some id, .unit) => .step (.addImport id .use)
  | (_, kind) => find (.notAPackage package kind)

def usePackages : List NodeId → Program Unit
  | [] => .pure ()
  | package :: packages => do
    usePackage package
    usePackages packages

def useClause : Program NodeId := do
  let start ← position
  expect .kwUse
  let packages ← separated .comma name
  expect .semicolon
  usePackages packages
  add start (.decl (.useClause packages))

def pragma : Program NodeId := do
  let start ← position
  expect .kwPragma
  let name ← definingIdentifier
  let arguments ← optionalActualParameters
  expect .semicolon
  add start (.decl (.pragma name arguments))

end Grammar

end AdaSyntax
