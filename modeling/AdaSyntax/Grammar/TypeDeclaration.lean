import AdaSyntax.Grammar.Subtype

/-!
Type declarations. The type's own region is open while its definition is read, and an incomplete view of
the type is bound in it, so that the definition may refer to the type; the type itself is declared when
the definition is complete.
-/

namespace AdaSyntax

namespace Grammar

open Program

/-! Discriminants -/

def discriminantSpecification : Program NodeId := do
  let start ← position
  let names ← identifierList
  expect .colon
  let (mark, _) ← typeMark
  let initial ← initialValue
  let node ← add start (.decl (.discriminant names mark initial))
  declareAll names .discriminant node
  return node

/-- Discriminants see nothing of each other's region; they are bound around it when it closes. -/
def discriminantPart : Program (List NodeId) := do
  expect .leftParen
  openRegion .discriminantPart none
  let specifications ← separated .semicolon discriminantSpecification
  expect .rightParen
  bindAll (← closeRegion).all
  return specifications

def optionalDiscriminants (present : Bool) : Program (List NodeId) :=
  if present then discriminantPart else .pure []

/-! Records -/

def componentDeclaration : Program NodeId := do
  let start ← position
  let names ← identifierList
  expect .colon
  let indication ← rule .subtypeIndication
  let initial ← initialValue
  expect .semicolon
  let node ← add start (.decl (.component names indication initial))
  declareAll names .component node
  return node

def variant : Program NodeId := do
  let start ← position
  advance
  let choices ← choiceList
  expect .arrow
  let (components, tail) ← .call .componentList
  add start (.type (.variant choices components tail))

def variantPart : Program NodeId := do
  let start ← position
  advance
  let discriminant ← name
  expect .kwIs
  let variants ← whileAt .kwWhen variant
  expectAll [.kwEnd, .kwCase, .semicolon]
  add start (.type (.variantPart discriminant variants))

def componentList : Program (List NodeId × Option NodeId) := do
  if ← followedBy .kwNull .semicolon then
    advance
    advance
    return ([], none)
  else
    let components ←
      .items .componentList .unrecognizedComponent (firstOf [.componentDeclaration, .pragma])
    if ← isAt .kwCase then return (components, some (← variantPart))
    else return (components, none)

def nullRecord (start : Nat) : Program NodeId := do
  expect .kwRecord
  add start (.type (.record [] none))

def recordDefinition : Program NodeId := do
  let start ← position
  if ← accept .kwNull then nullRecord start
  else
    expect .kwRecord
    openRegion .record none
    let (components, tail) ← componentList
    expectAll [.kwEnd, .kwRecord]
    let _ ← closeRegion
    add start (.type (.record components tail))

/-! Definitions -/

structure Definition where
  node : NodeId
  shape : TypeShape
  literals : List (DefiningName Nat) := []

def enumerationLiteral : Program (DefiningName Nat) := do
  match ← kind with
  | .identifier =>
    let token ← take
    return ⟨.ofText token.text, token.position⟩
  | .characterLiteral =>
    let token ← take
    return ⟨.verbatim token.text, token.position⟩
  | _ => reject "an enumeration literal"

def enumerationDefinition : Program Definition := do
  let start ← position
  advance
  let literals ← separated .comma enumerationLiteral
  expect .rightParen
  return ⟨← add start (.type (.enumeration literals)), .enumeration, literals⟩

def integerDefinition : Program Definition := do
  let start ← position
  advance
  let bounds ← range
  return { node := ← add start (.type (.integer bounds)), shape := .integer }

def floatDefinition : Program Definition := do
  let start ← position
  let (digits, bounds) ← accuracy
  return { node := ← add start (.type (.float digits bounds)), shape := .real }

def fixedDefinition : Program Definition := do
  let start ← position
  let (delta, bounds) ← accuracy
  return { node := ← add start (.type (.fixed delta bounds)), shape := .real }

def derivedDefinition : Program Definition := do
  let start ← position
  advance
  let parent ← subtypeIndication
  let shape ← indicationShape parent
  return { node := ← add start (.type (.derived parent)), shape }

def typeDefinition (discriminated : Bool) : Program Definition := do
  match ← kind with
  | .leftParen => enumerationDefinition
  | .kwRange => integerDefinition
  | .kwDigits => floatDefinition
  | .kwDelta => fixedDefinition
  | .kwArray =>
    let (node, shape) ← arrayDefinition
    return { node, shape }
  | .kwRecord | .kwNull => return { node := ← recordDefinition, shape := .record discriminated }
  | .kwAccess =>
    let (node, shape) ← accessDefinition
    return { node, shape }
  | .kwNew => derivedDefinition
  | _ => reject "a type definition"

/-! Declarations -/

/-- What the part of a type declaration behind the discriminants amounts to. -/
structure TypeView where
  decl : Decl Nat
  kind : SymbolKind
  shape : TypeShape
  literals : List (DefiningName Nat) := []

def privateView (name : DefiningName Nat) (discriminants : List NodeId) (discriminated : Bool) :
    Program TypeView := do
  let isLimited ← accept .kwLimited
  expectAll [.kwPrivate, .semicolon]
  return {
    decl := .privateType name discriminants isLimited, kind := .privateType
    shape := .privateType discriminated }

def fullView (name : DefiningName Nat) (discriminants : List NodeId) (discriminated : Bool) :
    Program TypeView := do
  let definition ← typeDefinition discriminated
  expect .semicolon
  return {
    decl := .type name discriminants definition.node, kind := .type, shape := definition.shape
    literals := definition.literals }

def typeView (name : DefiningName Nat) (discriminants : List NodeId) (discriminated : Bool) :
    Program TypeView := do
  if ← accept .semicolon then
    return {
      decl := .incompleteType name discriminants, kind := .incompleteType
      shape := .incomplete discriminated }
  else
    expect .kwIs
    if ← isAtAny [.kwPrivate, .kwLimited] then privateView name discriminants discriminated
    else fullView name discriminants discriminated

def typeDeclaration : Program NodeId := do
  let start ← position
  expect .kwType
  let name ← definingIdentifier
  let node ← reserve start
  let discriminated ← isAt .leftParen
  openRegion .typeDeclaration none
  let _ ← declareType name .incompleteType node (.incomplete discriminated)
  let discriminants ← optionalDiscriminants discriminated
  let view ← typeView name discriminants discriminated
  let _ ← closeRegion
  fill node start (.decl view.decl)
  let _ ← declareType name view.kind node view.shape
  declareAll view.literals .enumerationLiteral node
  return node

end Grammar

end AdaSyntax
