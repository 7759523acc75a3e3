import AdaSyntax.Grammar.Subtype

/-!
Subprogram specifications. The designator is bound in the enclosing region, and the region of the
subprogram is left open: what follows decides on the construct, which closes it.
-/

namespace AdaSyntax

namespace Grammar

open Program

structure Header where
  spec : NodeId
  symbol : SymbolId
  name : DefiningName Nat

def mode : Program Mode := do
  if ← accept .kwIn then
    if ← accept .kwOut then return .inOut else return .input
  else if ← accept .kwOut then return .output
  else return .input

def parameterSpecification : Program NodeId := do
  let start ← position
  let names ← identifierList
  expect .colon
  let mode ← mode
  let (mark, _) ← typeMark
  let initial ← initialValue
  let node ← add start (.decl (.parameter names mode mark initial))
  declareAll names .parameter node
  return node

def formalPart : Program (List NodeId) := do
  if ← isAt .leftParen then
    parenthesized (separated .semicolon parameterSpecification)
  else return []

def subprogramKind : Program SubprogramKind := do
  match ← kind with
  | .kwProcedure =>
    advance
    return .procedure
  | .kwFunction =>
    advance
    return .function
  | _ => reject "a subprogram specification"

def subprogramDesignator : SubprogramKind → Program (DefiningName Nat)
  | .procedure => definingIdentifier
  | .function => functionDesignator

def subprogramSymbolKind (isGeneric : Bool) : SubprogramKind → SymbolKind
  | .procedure => if isGeneric then .genericProcedure else .procedure
  | .function => if isGeneric then .genericFunction else .function

def resultMark : SubprogramKind → Program (Option NodeId)
  | .procedure => .pure none
  | .function => do
    expect .kwReturn
    return some (← typeMark).1

/-- Makes the formals of a generic subprogram visible to the specification that completes it. -/
def importFormals (kind : SymbolKind) (earlier : Resolution) : Program Unit :=
  match earlier.symbol with
  | some template =>
    if earlier.kind.isGeneric && kind.completes earlier.kind then
      .step (.addImport template .body)
    else .pure ()
  | none => .pure ()

def subprogramSpecification (node : NodeId) (isGeneric : Bool) : Program Header := do
  let start ← position
  let kind ← subprogramKind
  let name ← subprogramDesignator kind
  let symbolKind := subprogramSymbolKind isGeneric kind
  let earlier ← .step (.resolve name.name)
  let symbol ← declare name symbolKind node
  openRegion .subprogram (some symbol)
  importFormals symbolKind earlier
  let parameters ← formalPart
  let result ← resultMark kind
  let spec ← add start (.decl (.subprogramSpec kind name parameters result))
  return ⟨spec, symbol, name⟩

def subprogramDeclaration : Program NodeId := do
  let start ← position
  let node ← reserve start
  let header ← subprogramSpecification node false
  expect .semicolon
  let _ ← closeRegion
  fill node start (.decl (.subprogramDecl header.spec))
  return node

end Grammar

end AdaSyntax
