import AdaSyntax.Grammar.Statement

/-!
Packages. The declarations of a specification are published under its symbol when its region closes; a
body sees all of them, private ones included.
-/

namespace AdaSyntax

namespace Grammar

open Program

def privatePart : Program (Option (List NodeId)) :=
  after .kwPrivate do
    .step .markPrivate
    declarativeItems .packageSpecification

/-- A package specification without its semicolon. Its symbol points at `owner`, where one is given,
or else at the specification itself. -/
def packageSpecification (owner : Option NodeId) (kind : SymbolKind) :
    Program (NodeId × SymbolId) := do
  let start ← position
  expect .kwPackage
  let name ← definingIdentifier
  expectChoice .kwIs
  if ← isAt .kwNew then reject "a basic declaration"
  let node ← reserve start
  let symbol ← declare name kind (owner.getD node)
  openRegion .package (some symbol)
  let visible ← declarativeItems .packageSpecification
  let hidden ← privatePart
  expect .kwEnd
  let endName ← endName name.name
  let members ← closeRegion
  .step (.publish symbol members)
  fill node start (.decl (.packageDecl name visible hidden endName))
  return (node, symbol)

def packageDeclaration : Program NodeId := do
  let (node, _) ← packageSpecification none .package
  expect .semicolon
  return node

def bodyOwner (name : Name) : Program (Option SymbolId) := do
  let resolution ← .step (.resolve name)
  match resolution.kind with
  | .package | .genericPackage => return resolution.symbol
  | _ => return none

def openBody (owner : Option SymbolId) : Program Unit := do
  openRegion .packageBody owner
  match owner with
  | some owner => .step (.addImport owner .body)
  | none => return ()

def packageBody : Program NodeId := do
  let start ← position
  expect .kwPackage
  expectChoice .kwBody
  let name ← definingIdentifier
  expect .kwIs
  rejectSeparate
  openBody (← bodyOwner name.name)
  let declarations ← declarativePart
  let body ← after .kwBegin handledStatements
  expect .kwEnd
  let endName ← endName name.name
  expect .semicolon
  let _ ← closeRegion
  add start (.decl (.packageBody name declarations body endName))

end Grammar

end AdaSyntax
