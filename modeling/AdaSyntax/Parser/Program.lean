import AdaSyntax.Parser.Operation
import AdaSyntax.Parser.Recovery

/-!
Grammars as data. A program takes steps one after the other; a mismatch of one of them is a mismatch of
the whole, unless it happens inside of an attempt or of a list that recovers. Rules, which compete as
alternatives or can be parsed on their own, call each other by name, so every program is a finite term; what
a call does is a parameter of its execution.
-/

namespace AdaSyntax

inductive Rule where
  | objectDeclaration | numberDeclaration | renamingDeclaration | exceptionDeclaration
  | typeDeclaration | subtypeDeclaration | genericInstantiation | bodyStub | subprogramDeclaration
  | subprogramBody | packageBody | packageDeclaration | genericDeclaration | useClause | pragma
  | componentDeclaration | unconstrainedArray | constrainedArray | indexConstraint
  | discriminantConstraint
  | formalObject | formalType | formalSubprogram
  | statement | assignment | procedureCall
  | name | expression | subtypeIndication | discreteRange | range
  | compilationUnit
deriving DecidableEq, Inhabited

namespace Rule

def declarativeItems : List Rule :=
  [objectDeclaration, numberDeclaration, renamingDeclaration, exceptionDeclaration, typeDeclaration,
    subtypeDeclaration, genericInstantiation, bodyStub, subprogramDeclaration, subprogramBody,
    packageBody, packageDeclaration, genericDeclaration, useClause, pragma]

def libraryUnits : List Rule :=
  [genericDeclaration, genericInstantiation, packageDeclaration, packageBody, subprogramDeclaration,
    subprogramBody]

def genericFormals : List Rule := [formalObject, formalType, formalSubprogram, pragma]

end Rule

/-- The parts of the grammar that are called by name: the rules and two parts that occur inside of
themselves. -/
inductive Production : Type → Type where
  | rule (rule : Rule) : Production NodeId
  | simpleExpression : Production NodeId
  | componentList : Production (List NodeId × Option NodeId)

inductive Program : Type → Type 1 where
  | protected pure {α : Type} (value : α) : Program α
  | protected bind {α β : Type} (first : Program β) (next : β → Program α) : Program α
  | step {α : Type} (op : Op α) : Program α
  /-- A mismatch at the current token, where something else was expected. -/
  | reject {α : Type} (expected : String) : Program α
  /-- A mismatch that leaves no record. -/
  | fail {α : Type} : Program α
  | call {α : Type} (production : Production α) : Program α
  /-- A mismatch of `body` takes back all that it did, and gives nothing. -/
  | attempt {α : Type} (body : Program α) : Program (Option α)
  | nested {α : Type} (body : Program α) : Program α
  /-- Repeats `body`, until it has a result. -/
  | loop {α σ : Type} (body : σ → Program (σ ⊕ α)) (state : σ) : Program α
  /-- Items up to a closing token of the context; what is no item is reported and skipped. -/
  | items (context : Context) (code : Code) (item : Program NodeId) : Program (List NodeId)

instance : Monad Program where
  pure := .pure
  bind := .bind

namespace Parser

def repeatUntil {α σ : Type} (body : σ → Parser → Reply (σ ⊕ α) × Parser) :
    Nat → σ → Parser → Reply α × Parser
  | 0, _, parser => (.exhausted, parser)
  | fuel + 1, state, parser =>
    match body state parser with
    | (.matched (.inl state), parser) => repeatUntil body fuel state parser
    | (.matched (.inr value), parser) => (.matched value, parser)
    | (.mismatch, parser) => (.mismatch, parser)
    | (.fatal error, parser) => (.fatal error, parser)
    | (.exhausted, parser) => (.exhausted, parser)

def parseItems (context : Context) (code : Code) (item : Parser → Reply NodeId × Parser) :
    Nat → List NodeId → Parser → Reply (List NodeId) × Parser
  | 0, _, parser => (.exhausted, parser)
  | fuel + 1, items, parser =>
    if parser.atListEnd context then (.matched items.reverse, parser)
    else
      let first := parser.position
      let outer := parser.furthest
      match parser.forgetMismatch.attempt item with
      | (.matched node, parser) =>
        parseItems context code item fuel (node :: items) (parser.mergeMismatch outer)
      | (.mismatch, parser) =>
        parseItems context code item fuel items (parser.dropItem context code first outer)
      | (.fatal error, parser) => (.fatal error, parser)
      | (.exhausted, parser) => (.exhausted, parser)

def parseList (parser : Parser) (context : Context) (code : Code)
    (item : Parser → Reply NodeId × Parser) : Reply (List NodeId) × Parser :=
  let (reply, parser) :=
    parseItems context code item (parser.cursor.remaining + 1) [] (parser.pushContext context)
  (reply, parser.popContext)

end Parser

namespace Program

def run (calls : ∀ {α : Type}, Production α → Parser → Reply α × Parser) :
    ∀ {α : Type}, Program α → Parser → Reply α × Parser
  | _, .pure value, parser => (.matched value, parser)
  | _, .bind first next, parser =>
    match run calls first parser with
    | (.matched value, parser) => run calls (next value) parser
    | (.mismatch, parser) => (.mismatch, parser)
    | (.fatal error, parser) => (.fatal error, parser)
    | (.exhausted, parser) => (.exhausted, parser)
  | _, .step op, parser => parser.perform op
  | _, .reject expected, parser => (.mismatch, parser.recordMismatch expected)
  | _, .fail, parser => (.mismatch, parser)
  | _, .call production, parser => calls production parser
  | _, .attempt body, parser =>
    match parser.attempt (run calls body) with
    | (.matched value, parser) => (.matched (some value), parser)
    | (.mismatch, parser) => (.matched none, parser)
    | (.fatal error, parser) => (.fatal error, parser)
    | (.exhausted, parser) => (.exhausted, parser)
  | _, .nested body, parser => parser.nested (run calls body)
  | _, .loop body state, parser =>
    Parser.repeatUntil (fun state => run calls (body state)) (parser.cursor.remaining + 1) state
      parser
  | _, .items context code item, parser => parser.parseList context code (run calls item)

end Program

end AdaSyntax
