import AdaSyntax.Grammar.Declaration

/-!
Statements. The label of a loop or block is declared in the enclosing region and owns the region that
the loop or block opens, so that an exit statement finds the loop it names.
-/

namespace AdaSyntax

namespace Grammar

open Program

def statements : Program (List NodeId) :=
  .items .statementSequence .unrecognizedStatement (rule .statement)

/-! Exception handlers -/

def exceptionChoice : Program NodeId := do
  let start ← position
  if ← accept .kwOthers then add start (.expr .others) else expandedName

def exceptionHandler : Program NodeId := do
  let start ← position
  advance
  let choices ← separated .bar exceptionChoice
  expect .arrow
  let statements ← statements
  add start (.stmt (.handler choices statements))

def exceptionPart : Program (List NodeId) := do
  if ← accept .kwException then whileAt .kwWhen exceptionHandler else return []

def handledStatements : Program NodeId := do
  let start ← position
  let statements ← statements
  let handlers ← exceptionPart
  add start (.stmt (.handled statements handlers))

/-! Simple statements -/

def nullStatement : Program NodeId := do
  let start ← position
  advance
  expect .semicolon
  add start (.stmt .null)

def assignment : Program NodeId := do
  let start ← position
  let target ← name
  expectChoice .assign
  let value ← expression
  expect .semicolon
  add start (.stmt (.assignment target value))

def procedureCall : Program NodeId := do
  let start ← position
  let name ← name
  expect .semicolon
  add start (.stmt (.call name))

def optionalExpandedName : Program (Option NodeId) := do
  if ← isAt .identifier then return some (← expandedName) else return none

def namesEnclosingLoop (target : NodeId) : Program Bool := do
  match ← classify target with
  | (some label, .label) => .step (.enclosingLoop (some label))
  | _ => return false

def checkExit (statement : NodeId) (target : Option NodeId) : Program Unit := do
  if ← .step (.enclosingLoop none) then
    match target with
    | some target => if ← namesEnclosingLoop target then return () else find (.exitNotEnclosing target)
    | none => return ()
  else find (.exitOutsideLoop statement)

def exitStatement : Program NodeId := do
  let start ← position
  advance
  let target ← optionalExpandedName
  let condition ← after .kwWhen expression
  expect .semicolon
  let node ← add start (.stmt (.exit target condition))
  checkExit node target
  return node

def returnValue : Program (Option NodeId) := do
  if ← isAt .semicolon then return none else return some (← expression)

def returnStatement : Program NodeId := do
  let start ← position
  advance
  let value ← returnValue
  expect .semicolon
  add start (.stmt (.returnStatement value))

def raiseStatement : Program NodeId := do
  let start ← position
  advance
  let exception ← optionalExpandedName
  expect .semicolon
  add start (.stmt (.raise exception))

def gotoStatement : Program NodeId := do
  let start ← position
  advance
  let target ← expandedName
  expect .semicolon
  add start (.stmt (.goto target))

/-! Choices -/

def conditional : Program NodeId := do
  let start ← position
  advance
  let condition ← expression
  expect .kwThen
  let statements ← statements
  add start (.stmt (.conditional condition statements))

def ifStatement : Program NodeId := do
  let start ← position
  let first ← conditional
  let rest ← whileAt .kwElsif conditional
  let elseStatements := (← after .kwElse statements).getD []
  expectAll [.kwEnd, .kwIf, .semicolon]
  add start (.stmt (.ifStatement (first :: rest) elseStatements))

def caseAlternative : Program NodeId := do
  let start ← position
  advance
  let choices ← choiceList
  expect .arrow
  let statements ← statements
  add start (.stmt (.caseAlternative choices statements))

def caseStatement : Program NodeId := do
  let start ← position
  advance
  let selector ← expression
  expect .kwIs
  let alternatives ← whileAt .kwWhen caseAlternative
  expectAll [.kwEnd, .kwCase, .semicolon]
  add start (.stmt (.caseStatement selector alternatives))

/-! Loops and blocks -/

abbrev LabelSymbol := Option (DefiningName Nat × SymbolId)

/-- Only a labelled construct may repeat its name behind the end. -/
def labelEnd (label : LabelSymbol) : Program (Option Name) :=
  match label with
  | some (label, _) => endName label.name
  | none => .pure none

def loopScheme : Program (LoopScheme Nat) := do
  match ← kind with
  | .kwWhile =>
    advance
    return .whileLoop (← expression)
  | .kwFor =>
    advance
    let parameter ← definingIdentifier
    expect .kwIn
    let reverse ← accept .kwReverse
    return .forLoop parameter reverse (← discreteRange true)
  | _ => return .plain

def declareLoopParameter (node : NodeId) : LoopScheme Nat → Program Unit
  | .forLoop parameter _ _ => declareAll [parameter] .loopParameter node
  | _ => .pure ()

def loopStatement (start : Nat) (node : NodeId) (label : LabelSymbol) : Program NodeId := do
  let scheme ← loopScheme
  openRegion .loop (label.map (·.2))
  declareLoopParameter node scheme
  expect .kwLoop
  let statements ← statements
  expectAll [.kwEnd, .kwLoop]
  let endName ← labelEnd label
  expect .semicolon
  let _ ← closeRegion
  fill node start (.stmt (.loop (label.map (·.1)) scheme statements endName))
  return node

def blockStatement (start : Nat) (node : NodeId) (label : LabelSymbol) : Program NodeId := do
  openRegion .block (label.map (·.2))
  let declarations := (← after .kwDeclare declarativePart).getD []
  expect .kwBegin
  let body ← handledStatements
  expect .kwEnd
  let endName ← labelEnd label
  expect .semicolon
  let _ ← closeRegion
  fill node start (.stmt (.block (label.map (·.1)) declarations body endName))
  return node

def namedCompound : Program NodeId := do
  let start ← position
  let label ← definingIdentifier
  advance
  let node ← reserve start
  let symbol ← declare label .label node
  match ← kind with
  | .kwLoop | .kwWhile | .kwFor => loopStatement start node (some (label, symbol))
  | .kwDeclare | .kwBegin => blockStatement start node (some (label, symbol))
  | _ => reject "a loop or block statement"

def unnamedLoop : Program NodeId := do
  let start ← position
  loopStatement start (← reserve start) none

def unnamedBlock : Program NodeId := do
  let start ← position
  blockStatement start (← reserve start) none

/-! Statements -/

def nameStatement : Program NodeId := do
  if ← followedBy .identifier .colon then namedCompound
  else firstOf [.assignment, .procedureCall]

def unlabeledStatement : Program NodeId := do
  match ← kind with
  | .kwNull => nullStatement
  | .kwIf => ifStatement
  | .kwCase => caseStatement
  | .kwLoop | .kwWhile | .kwFor => unnamedLoop
  | .kwDeclare | .kwBegin => unnamedBlock
  | .kwExit => exitStatement
  | .kwReturn => returnStatement
  | .kwRaise => raiseStatement
  | .kwGoto => gotoStatement
  | .kwPragma => pragma
  | _ => nameStatement

def statementLabel (node : NodeId) : Program (DefiningName Nat) := do
  advance
  let label ← definingIdentifier
  expect .rightLabel
  let _ ← declare label .label node
  return label

def labeledStatement : Program NodeId := do
  let start ← position
  let node ← reserve start
  let labels ← whileAt .leftLabel (statementLabel node)
  let statement ← unlabeledStatement
  fill node start (.stmt (.labeled labels statement))
  return node

def statement : Program NodeId :=
  nested do
    if ← isAt .leftLabel then labeledStatement else unlabeledStatement

/-! Subprogram bodies -/

def rejectSeparate : Program Unit := do
  if ← isAt .kwSeparate then reject "a declarative part"

def subprogramBody : Program NodeId := do
  let start ← position
  let node ← reserve start
  let header ← subprogramSpecification node false
  expectChoice .kwIs
  rejectSeparate
  let declarations ← declarativePart
  expect .kwBegin
  let body ← handledStatements
  expect .kwEnd
  let endName ← endName header.name.name
  expect .semicolon
  let _ ← closeRegion
  fill node start (.decl (.subprogramBody header.spec declarations body endName))
  return node

end Grammar

end AdaSyntax
