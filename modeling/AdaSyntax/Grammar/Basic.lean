import AdaSyntax.Parser.Program

/-! The vocabulary in which the grammar is written. -/

namespace AdaSyntax

namespace Program

def kind : Program TokenKind := .step .kind

def position : Program Nat := .step .position

def isAt (kind : TokenKind) : Program Bool := do
  return (← Program.kind) == kind

def isAtAny (kinds : List TokenKind) : Program Bool := do
  return kinds.contains (← Program.kind)

def followedBy (first second : TokenKind) : Program Bool := .step (.followedBy first second)

def take : Program TokenAt := .step .take

def advance : Program Unit := .bind take fun _ => .pure ()

def accept (kind : TokenKind) : Program Bool := do
  if ← isAt kind then
    advance
    return true
  else return false

def expect (kind : TokenKind) : Program Unit := .bind (.step (.expect kind)) fun _ => .pure ()

def expectChoice (kind : TokenKind) : Program Unit :=
  .bind (.step (.expectChoice kind)) fun _ => .pure ()

def expectAll : List TokenKind → Program Unit
  | [] => .pure ()
  | kind :: kinds => do
    expect kind
    expectAll kinds

def add (start : Nat) (payload : Payload Nat) : Program NodeId := .step (.add start payload)

def reserve (start : Nat) : Program NodeId := .step (.reserve start)

def fill (id : NodeId) (start : Nat) (payload : Payload Nat) : Program Unit :=
  .step (.fill id start payload)

def inspect (id : NodeId) : Program (Payload Unit) := .step (.inspect id)

def classify (id : NodeId) : Program (Option SymbolId × SymbolKind) := do
  return (← inspect id).classify

def find (finding : Finding) : Program Unit := .step (.find finding)

def declare (name : DefiningName Nat) (kind : SymbolKind) (node : NodeId) : Program SymbolId :=
  .step (.declare name kind node none)

def declareType (name : DefiningName Nat) (kind : SymbolKind) (node : NodeId) (shape : TypeShape) :
    Program SymbolId :=
  .step (.declare name kind node (some shape))

def declareAll (names : List (DefiningName Nat)) (kind : SymbolKind) (node : NodeId) :
    Program Unit :=
  match names with
  | [] => .pure ()
  | name :: names => .bind (declare name kind node) fun _ => declareAll names kind node

def bindAll : List SymbolId → Program Unit
  | [] => .pure ()
  | id :: ids => do
    .step (.bind id)
    bindAll ids

def openRegion (kind : RegionKind) (owner : Option SymbolId) : Program Unit :=
  .step (.openRegion kind owner)

def closeRegion : Program Members := .step .closeRegion

def attemptIf {α : Type} (condition : Bool) (body : Program α) : Program (Option α) :=
  if condition then attempt body else .pure none

def rule (rule : Rule) : Program NodeId := .call (.rule rule)

/-- The first of the rules that matches, if any. -/
def tryRules : List Rule → Program (Option NodeId)
  | [] => .pure none
  | first :: rest => do
    match ← attempt (rule first) with
    | some node => return some node
    | none => tryRules rest

def firstOf (rules : List Rule) : Program NodeId := do
  match ← tryRules rules with
  | some node => return node
  | none => fail

def separated {α : Type} (separator : TokenKind) (item : Program α) : Program (List α) :=
  loop
    (fun items => do
      let items := (← item) :: items
      if ← accept separator then return .inl items else return .inr items.reverse)
    []

def whileAt {α : Type} (kind : TokenKind) (item : Program α) : Program (List α) :=
  loop
    (fun items => do
      if ← isAt kind then return .inl ((← item) :: items) else return .inr items.reverse)
    []

def after {α : Type} (kind : TokenKind) (body : Program α) : Program (Option α) := do
  if ← accept kind then return some (← body) else return none

def initialValue : Program (Option NodeId) := after .assign (rule .expression)

def definingIdentifier : Program (DefiningName Nat) := do
  let token ← .step (.expect .identifier)
  return ⟨.ofText token.text, token.position⟩

def endName (expected : Name) : Program (Option Name) := do
  if ← isAtAny [.identifier, .stringLiteral] then
    let token ← take
    let name := Name.ofText token.text
    if name ≠ expected then find (.endMismatch token.position name expected)
    return some name
  else return none

end Program

end AdaSyntax
