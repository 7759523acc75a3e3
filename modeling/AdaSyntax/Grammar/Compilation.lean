import AdaSyntax.Grammar.Generic

/-!
Compilation units. Each unit has a region for its context clauses; when it is complete, what it declared
moves into the library region, where later units find it.
-/

namespace AdaSyntax

namespace Grammar

open Program

/-- Makes a unit of the library directly visible, or declares the name of an unknown one. -/
def withUnit (clause : NodeId) (unit : DefiningName Nat) : Program Unit := do
  match ← .step (.libraryUnit unit.name) with
  | some id => .step (.bind id)
  | none => declareAll [unit] .unit clause

def withUnits (clause : NodeId) : List (DefiningName Nat) → Program Unit
  | [] => .pure ()
  | unit :: units => do
    withUnit clause unit
    withUnits clause units

def withClause : Program NodeId := do
  let start ← position
  advance
  let units ← identifierList
  expect .semicolon
  let node ← add start (.unit (.withClause units))
  withUnits node units
  return node

def contextItem? : TokenKind → Option (Program NodeId)
  | .kwWith => some withClause
  | .kwUse => some useClause
  | .kwPragma => some pragma
  | _ => none

def contextItems : Program (List NodeId) :=
  loop
    (fun items => do
      match contextItem? (← kind) with
      | some item => return .inl ((← item) :: items)
      | none => return .inr items.reverse)
    []

def importParent (parent : NodeId) : Program Unit := do
  match ← classify parent with
  | (some owner, .package) | (some owner, .genericPackage) => .step (.addImport owner .body)
  | _ => return ()

/-- The body of a subunit sees all declarations of its parent. -/
def subunit : Program NodeId := do
  let start ← position
  advance
  let parent ← parenthesized expandedName
  importParent parent
  let body ← firstOf [.subprogramBody, .packageBody]
  add start (.unit (.subunit parent body))

/-- Binds in the library what a unit declared, but not the units that it only named. -/
def moveToLibrary : List SymbolId → Program Unit
  | [] => .pure ()
  | id :: ids => do
    let kind ← .step (.kindOf id)
    let known ← .step (.declaredHere id)
    if kind ≠ .unit && !known then .step (.bind id)
    moveToLibrary ids

def compilationUnit : Program NodeId := do
  let start ← position
  openRegion .context none
  let context ← contextItems
  let isSubunit ← isAt .kwSeparate
  let unit ← if isSubunit then subunit else firstOf Rule.libraryUnits
  let members ← closeRegion
  if !isSubunit then moveToLibrary members.all
  add start (.unit (.compilationUnit context unit))

/-- All compilation units up to the first one that does not match, and whether that was the end. -/
def compilationUnits : Program (List NodeId × Bool) :=
  loop
    (fun units => do
      if ← isAt .endOfFile then return .inr (units.reverse, true)
      else
        match ← attempt (rule .compilationUnit) with
        | some unit => return .inl (unit :: units)
        | none => return .inr (units.reverse, false))
    []

end Grammar

end AdaSyntax
