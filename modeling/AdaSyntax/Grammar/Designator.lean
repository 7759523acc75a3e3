import AdaSyntax.Grammar.Basic

/-!
Identifiers, simple and expanded names, type marks, and ranges. A name is classified where it is used, by
what it resolves to there: one that denotes a type is read as a subtype indication in a discrete range, and
anything else as a range.
-/

namespace AdaSyntax

namespace Grammar

open Program

def identifierList : Program (List (DefiningName Nat)) := separated .comma definingIdentifier

def functionDesignator : Program (DefiningName Nat) := do
  if ← isAt .stringLiteral then
    let token ← take
    return ⟨.ofText token.text, token.position⟩
  else definingIdentifier

def directName : Program NodeId := do
  let start ← position
  if ← isAtAny [.identifier, .stringLiteral] then
    let token ← take
    let name := Name.ofText token.text
    let resolution ← .step (.resolve name)
    add start (.name (.identifier name resolution.symbol resolution.kind))
  else reject "a name"

/-- What a selector denotes, behind a name that is classified already. -/
def resolveSelector (base : Option SymbolId × SymbolKind) (selector : Name) :
    Program (SelectedForm × Resolution) :=
  match base with
  | (some owner, kind) =>
    if kind.qualifies then do
      return (.expanded, ← .step (.resolveMember owner selector))
    else return (.component, member kind)
  | (none, kind) => return (.component, member kind)
where
  member (kind : SymbolKind) : Resolution :=
    if kind.isObject then ⟨none, .component⟩ else .unresolved

def select (start : Nat) (base : NodeId) (selector : Name) : Program NodeId := do
  let (form, resolution) ← resolveSelector (← classify base) selector
  add start (.name (.selected base selector form resolution.symbol resolution.kind))

def expandedName : Program NodeId := do
  let start ← position
  if ← isAt .identifier then
    loop
      (fun node => do
        if ← followedBy .dot .identifier then
          advance
          let token ← take
          return .inl (← select start node (.ofText token.text))
        else return .inr node)
      (← directName)
  else reject "a name"

def checkTypeMark (mark : NodeId) (kind : SymbolKind) : Program Unit :=
  if kind = .unresolved then find (.undeclaredTypeMark mark)
  else if kind.isTypeMark then .pure ()
  else find (.notAType mark kind)

def typeMark : Program (NodeId × Option SymbolId) := do
  if ← isAt .identifier then
    let node ← expandedName
    let (symbol, kind) ← classify node
    checkTypeMark node kind
    return (node, symbol)
  else reject "a type mark"

/-! Ranges. What a name denotes is looked up before it is read. -/

def isRangeAttribute (node : NodeId) : Program Bool := do
  match ← inspect node with
  | .name (.attributeOf _ designator _) => return designator.text = "RANGE"
  | _ => return false

/-- A range whose lower bound is read already. -/
def rangeFrom (start : Nat) (low : NodeId) : Program NodeId := do
  let isRange ← isAt .doubleDot
  let isAttribute ← isRangeAttribute low
  if !isRange && isAttribute then return low
  else
    expectChoice .doubleDot
    let high ← .call .simpleExpression
    add start (.type (.range low high))

def range : Program NodeId := do
  let start ← position
  rangeFrom start (← .call .simpleExpression)

def rangeConstraint : Program NodeId := do
  let start ← position
  advance
  let bounds ← range
  add start (.type (.rangeConstraint bounds))

/-- A type mark with an optional range, and nothing behind it that would make it part of a range. -/
def discreteSubtypeIndication : Program NodeId := do
  let start ← position
  let (mark, _) ← typeMark
  let constraint ← attemptIf (← isAt .kwRange) rangeConstraint
  if ← isAtAny [.tick, .doubleDot, .leftParen] then reject "a discrete range"
  else add start (.type (.subtypeIndication mark constraint))

/-- The last alternative of a discrete range. A name that does not resolve is taken for a type. -/
def unresolvedDiscreteRange (allowed : Bool) (kind : SymbolKind) : Program NodeId := do
  let isName ← isAt .identifier
  if allowed && kind = .unresolved && isName then discreteSubtypeIndication
  else reject "a discrete range"

def discreteRange (allowUnresolved : Bool) : Program NodeId := do
  let kind ← .step .lookaheadClass
  match ← attemptIf kind.isTypeMark discreteSubtypeIndication with
  | some indication => return indication
  | none =>
    match ← attempt range with
    | some node => return node
    | none => unresolvedDiscreteRange allowUnresolved kind

end Grammar

end AdaSyntax
