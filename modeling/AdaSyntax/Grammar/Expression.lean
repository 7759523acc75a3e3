import AdaSyntax.Grammar.Designator

/-!
Expressions, by precedence: logical operators, relations and membership tests, adding operators with an
optional sign in front, multiplying operators, and last exponentiation, absolute value and negation.
Different logical operators in one chain are reported, and the expression is built all the same.
-/

namespace AdaSyntax

namespace Grammar

open Program

def literal (kind : LiteralKind) : Program NodeId := do
  let start ← position
  let token ← take
  add start (.expr (.literal kind token.text))

/-! Operators -/

def relationalOperator? : TokenKind → Option BinaryOp
  | .equal => some .eq
  | .notEqual => some .ne
  | .less => some .lt
  | .lessEqual => some .le
  | .greater => some .gt
  | .greaterEqual => some .ge
  | _ => none

def addingOperator? : TokenKind → Option BinaryOp
  | .plus => some .add
  | .minus => some .sub
  | .ampersand => some .concat
  | _ => none

def multiplyingOperator? : TokenKind → Option BinaryOp
  | .star => some .mul
  | .slash => some .div
  | .kwMod => some .mod
  | .kwRem => some .rem
  | _ => none

def sign? : TokenKind → Option UnaryOp
  | .plus => some .plus
  | .minus => some .minus
  | _ => none

def logicalOperator : Program (Option BinaryOp) := do
  if ← followedBy .kwAnd .kwThen then
    advance
    advance
    return some .andThen
  else if ← followedBy .kwOr .kwElse then
    advance
    advance
    return some .orElse
  else if ← accept .kwAnd then return some .and
  else if ← accept .kwOr then return some .or
  else if ← accept .kwXor then return some .xor
  else return none

def leftAssociative (operator? : TokenKind → Option BinaryOp) (operand : Program NodeId) (start : Nat)
    (left : NodeId) : Program NodeId :=
  loop
    (fun left => do
      match operator? (← kind) with
      | some op =>
        advance
        let right ← operand
        return .inl (← add start (.expr (.binary op left right)))
      | none => return .inr left)
    left

/-! Relations and chains of logical operators -/

def membershipTarget : Program NodeId := do
  match ← attempt range with
  | some node => return node
  | none => return (← typeMark).1

def membership (start : Nat) (operand : NodeId) : Program NodeId := do
  let negated ← accept .kwNot
  advance
  let target ← membershipTarget
  add start (.expr (.membership operand negated target))

def relationFrom (start : Nat) (left : NodeId) : Program NodeId := do
  match relationalOperator? (← kind) with
  | some op =>
    advance
    let right ← .call .simpleExpression
    add start (.expr (.binary op left right))
  | none =>
    let isMember ← isAt .kwIn
    let isNoMember ← followedBy .kwNot .kwIn
    if isMember || isNoMember then membership start left else return left

def relation : Program NodeId := do
  let start ← position
  relationFrom start (← .call .simpleExpression)

/-- A chain of logical operators so far. Only its first change of operator is reported. -/
structure Chain where
  left : NodeId
  operator : Option BinaryOp
  reported : Bool

def noteOperator (chain : Chain) (op : BinaryOp) (place : Nat) : Program Chain :=
  match chain.operator with
  | none => return { chain with operator := some op }
  | some first =>
    if first ≠ op && !chain.reported then do
      find (.mixedOperators place first op)
      return { chain with reported := true }
    else return chain

def chainFrom (start : Nat) (left : NodeId) : Program NodeId :=
  loop
    (fun chain => do
      let place ← position
      match ← logicalOperator with
      | some op =>
        let chain ← noteOperator chain op place
        let right ← relation
        return .inl { chain with left := ← add start (.expr (.binary op chain.left right)) }
      | none => return .inr chain.left)
    (⟨left, none, false⟩ : Chain)

def expression : Program NodeId :=
  nested do
    let start ← position
    chainFrom start (← relation)

/-! Aggregates and associations -/

/-- A choice. Apart from a leading type mark, its first simple expression is read once, and the token
behind it tells a range from an expression. -/
def valueChoice (start : Nat) : Program NodeId := do
  let operand ← .call .simpleExpression
  if ← isAt .doubleDot then rangeFrom start operand
  else chainFrom start (← relationFrom start operand)

def choice : Program NodeId :=
  nested do
    let start ← position
    if ← accept .kwOthers then add start (.expr .others)
    else
      let kind ← .step .lookaheadClass
      match ← attemptIf kind.isTypeMark discreteSubtypeIndication with
      | some indication => return indication
      | none => valueChoice start

def choiceList : Program (List NodeId) := separated .bar choice

def namedAssociation : Program NodeId := do
  let start ← position
  let choices ← choiceList
  expectChoice .arrow
  let value ← rule .expression
  add start (.expr (.association choices value))

def association : Program NodeId := do
  let isNamed ← .step (.aheadInGroup [.arrow])
  match ← attemptIf isNamed namedAssociation with
  | some node => return node
  | none => rule .expression

def parenthesized {α : Type} (body : Program α) : Program α := do
  expect .leftParen
  let value ← body
  expect .rightParen
  return value

def actualParameters : Program (List NodeId) := parenthesized (separated .comma association)

def optionalActualParameters : Program (List NodeId) := do
  if ← isAt .leftParen then actualParameters else return []

def expressionList : Program (List NodeId) :=
  parenthesized (separated .comma (rule .expression))

/-- An aggregate; with a single component and no choices it is an expression in parentheses. -/
def aggregate : Program NodeId := do
  let start ← position
  match ← actualParameters with
  | [inner] =>
    match ← inspect inner with
    | .expr (.association ..) => add start (.expr (.aggregate [inner]))
    | _ => add start (.expr (.parenthesized inner))
  | components => add start (.expr (.aggregate components))

/-! Primaries -/

def nameOrQualified : Program NodeId := do
  let start ← position
  let mark ← rule .name
  if ← followedBy .tick .leftParen then
    advance
    let operand ← aggregate
    add start (.expr (.qualified mark operand))
  else return mark

def qualifiedExpression : Program NodeId := do
  let start ← position
  let (mark, _) ← typeMark
  expectChoice .tick
  if ← isAt .leftParen then
    let operand ← aggregate
    add start (.expr (.qualified mark operand))
  else reject "'('"

def allocator : Program NodeId := do
  let start ← position
  advance
  let operand ←
    match ← attempt qualifiedExpression with
    | some qualified => pure qualified
    | none => rule .subtypeIndication
  add start (.expr (.allocator operand))

def primary : Program NodeId := do
  match ← kind with
  | .integerLiteral => literal .integer
  | .realLiteral => literal .real
  | .characterLiteral => literal .character
  | .kwNull => literal .null
  | .stringLiteral =>
    if ← followedBy .stringLiteral .leftParen then nameOrQualified else literal .string
  | .kwNew => allocator
  | .leftParen => aggregate
  | .identifier => nameOrQualified
  | _ => reject "an expression"

def unary (op : UnaryOp) : Program NodeId := do
  let start ← position
  advance
  let operand ← primary
  add start (.expr (.unary op operand))

def factor : Program NodeId := do
  match ← kind with
  | .kwAbs => unary .abs
  | .kwNot => unary .not
  | _ =>
    let start ← position
    let left ← primary
    if ← accept .doubleStar then
      let right ← primary
      add start (.expr (.binary .pow left right))
    else return left

def term : Program NodeId := do
  let start ← position
  leftAssociative multiplyingOperator? factor start (← factor)

def signed (op : UnaryOp) (start : Nat) : Program NodeId := do
  advance
  let operand ← term
  add start (.expr (.unary op operand))

def simpleExpression : Program NodeId := do
  let start ← position
  let left ←
    match sign? (← kind) with
    | some op => signed op start
    | none => term
  leftAssociative addingOperator? term start left

end Grammar

end AdaSyntax
