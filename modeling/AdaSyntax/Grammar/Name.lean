import AdaSyntax.Grammar.Expression

/-!
Names with their suffixes: selectors, parenthesized arguments, slices and attributes. What the name in
front denotes tells a call from a conversion and an indexed component.
-/

namespace AdaSyntax

namespace Grammar

open Program

def selectorName : Program Name := do
  match ← kind with
  | .identifier | .stringLiteral => return .ofText (← take).text
  | .characterLiteral => return .verbatim (← take).text
  | _ => reject "a selector"

def selectedSuffix (start : Nat) (base : NodeId) : Program NodeId := do
  advance
  if ← accept .kwAll then add start (.name (.dereference base))
  else select start base (← selectorName)

def sliceRange : Program NodeId := parenthesized (discreteRange false)

def applyForm (kind : SymbolKind) : ApplyForm :=
  if kind.isTypeMark then .typeConversion
  else if kind.isSubprogram || kind = .enumerationLiteral then .call
  else if kind.isObject then .indexedComponent
  else .unresolved

def argumentsSuffix (start : Nat) (base : NodeId) (kind : SymbolKind) : Program NodeId := do
  let arguments ← actualParameters
  add start (.name (.apply base arguments (applyForm kind)))

/-- Arguments, or the range of a slice where the group holds a sign of one. -/
def applySuffix (start : Nat) (base : NodeId) : Program NodeId := do
  let (_, kind) ← classify base
  let hasRange ← .step (.aheadInParentheses [.doubleDot, .kwRange])
  if !kind.isTypeMark && !kind.isSubprogram && hasRange then
    match ← attempt sliceRange with
    | some range => add start (.name (.slice base range))
    | none => argumentsSuffix start base kind
  else argumentsSuffix start base kind

def attributeArguments : Program (List NodeId) := do
  if ← isAt .leftParen then return (← attempt expressionList).getD [] else return []

def attributeSuffix (start : Nat) (base : NodeId) : Program NodeId := do
  advance
  if ← isAtAny [.identifier, .kwRange, .kwDigits, .kwDelta, .kwAccess] then
    let token ← take
    let arguments ← attributeArguments
    add start (.name (.attributeOf base (.ofText token.text) arguments))
  else reject "an attribute designator"

/-- The next suffix, if there is one. A tick in front of a parenthesis belongs to a qualified
expression. -/
def suffix (start : Nat) (base : NodeId) : Program (Option NodeId) := do
  match ← kind with
  | .dot => return some (← selectedSuffix start base)
  | .leftParen => return some (← applySuffix start base)
  | .tick =>
    if ← followedBy .tick .leftParen then return none
    else return some (← attributeSuffix start base)
  | _ => return none

def name : Program NodeId :=
  nested do
    let start ← position
    loop
      (fun base => do
        match ← suffix start base with
        | some longer => return .inl longer
        | none => return .inr base)
      (← directName)

end Grammar

end AdaSyntax
