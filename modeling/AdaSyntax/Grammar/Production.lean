import AdaSyntax.Grammar.Compilation

/-!
The grammar as a whole: the program of each production, and the execution of programs in which calls
run these programs. A call uses up one unit of a budget. Between two calls of the same production a
token is consumed, so a budget that grows with the number of tokens is never used up.
-/

namespace AdaSyntax

namespace Grammar

def ofRule : Rule → Program NodeId
  | .objectDeclaration => objectDeclaration
  | .numberDeclaration => numberDeclaration
  | .renamingDeclaration => renamingDeclaration
  | .exceptionDeclaration => exceptionDeclaration
  | .typeDeclaration => typeDeclaration
  | .subtypeDeclaration => subtypeDeclaration
  | .genericInstantiation => genericInstantiation
  | .bodyStub => bodyStub
  | .subprogramDeclaration => subprogramDeclaration
  | .subprogramBody => subprogramBody
  | .packageBody => packageBody
  | .packageDeclaration => packageDeclaration
  | .genericDeclaration => genericDeclaration
  | .useClause => useClause
  | .pragma => pragma
  | .componentDeclaration => componentDeclaration
  | .unconstrainedArray => unconstrainedArray
  | .constrainedArray => constrainedArray
  | .indexConstraint => indexConstraint
  | .discriminantConstraint => discriminantConstraint
  | .formalObject => formalObject
  | .formalType => formalType
  | .formalSubprogram => formalSubprogram
  | .statement => statement
  | .assignment => assignment
  | .procedureCall => procedureCall
  | .name => name
  | .expression => expression
  | .subtypeIndication => subtypeIndication
  | .discreteRange => discreteRange true
  | .range => range
  | .compilationUnit => compilationUnit

def ofProduction : ∀ {α : Type}, Production α → Program α
  | _, .rule rule => ofRule rule
  | _, .simpleExpression => simpleExpression
  | _, .componentList => componentList

def call : Nat → ∀ {α : Type}, Production α → Parser → Reply α × Parser
  | 0, _, _, parser => (.exhausted, parser)
  | budget + 1, _, production, parser => (ofProduction production).run (call budget) parser

def productionCount : Nat := 34

def callBudget (parser : Parser) : Nat := (parser.cursor.remaining + 1) * productionCount

end Grammar

def Program.execute {α : Type} (program : Program α) (parser : Parser) : Reply α × Parser :=
  program.run (Grammar.call (Grammar.callBudget parser)) parser

end AdaSyntax
