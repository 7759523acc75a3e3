import AdaSyntax.Index
import AdaSyntax.Name

/-! Statements. -/

namespace AdaSyntax

inductive LoopScheme (ρ : Type) where
  | plain
  | whileLoop (condition : NodeId)
  | forLoop (parameter : DefiningName ρ) (reverse : Bool) (range : NodeId)
deriving DecidableEq

inductive Stmt (ρ : Type) where
  | null
  | assignment (target value : NodeId)
  /-- A procedure call, possibly without arguments. -/
  | call (name : NodeId)
  | ifStatement (branches elseStatements : List NodeId)
  /-- One condition of an if statement with its statements. -/
  | conditional (condition : NodeId) (statements : List NodeId)
  | caseStatement (selector : NodeId) (alternatives : List NodeId)
  | caseAlternative (choices statements : List NodeId)
  | loop (label : Option (DefiningName ρ)) (scheme : LoopScheme ρ) (statements : List NodeId)
      (endName : Option Name)
  | exit (target condition : Option NodeId)
  | returnStatement (value : Option NodeId)
  | raise (exception : Option NodeId)
  | goto (target : NodeId)
  | block (label : Option (DefiningName ρ)) (declarations : List NodeId) (body : NodeId)
      (endName : Option Name)
  /-- Statements with their exception handlers. -/
  | handled (statements handlers : List NodeId)
  | handler (choices statements : List NodeId)
  | labeled (labels : List (DefiningName ρ)) (statement : NodeId)
deriving DecidableEq

variable {ρ σ : Type}

namespace LoopScheme

def map (f : ρ → σ) : LoopScheme ρ → LoopScheme σ
  | plain => .plain
  | whileLoop condition => .whileLoop condition
  | forLoop parameter reverse range => .forLoop (parameter.map f) reverse range

def children : LoopScheme ρ → List NodeId
  | plain => []
  | whileLoop condition => [condition]
  | forLoop _ _ range => [range]

end LoopScheme

namespace Stmt

def map (f : ρ → σ) : Stmt ρ → Stmt σ
  | null => .null
  | assignment target value => .assignment target value
  | call name => .call name
  | ifStatement branches elseStatements => .ifStatement branches elseStatements
  | conditional condition statements => .conditional condition statements
  | caseStatement selector alternatives => .caseStatement selector alternatives
  | caseAlternative choices statements => .caseAlternative choices statements
  | loop label scheme statements endName =>
    .loop (label.map (·.map f)) (scheme.map f) statements endName
  | exit target condition => .exit target condition
  | returnStatement value => .returnStatement value
  | raise exception => .raise exception
  | goto target => .goto target
  | block label declarations body endName =>
    .block (label.map (·.map f)) declarations body endName
  | handled statements handlers => .handled statements handlers
  | handler choices statements => .handler choices statements
  | labeled labels statement => .labeled (labels.map (·.map f)) statement

def children : Stmt ρ → List NodeId
  | null => []
  | assignment target value => [target, value]
  | call name => [name]
  | ifStatement branches elseStatements => branches ++ elseStatements
  | conditional condition statements => condition :: statements
  | caseStatement selector alternatives => selector :: alternatives
  | caseAlternative choices statements | handler choices statements => choices ++ statements
  | loop _ scheme statements _ => scheme.children ++ statements
  | exit target condition => target.toList ++ condition.toList
  | returnStatement value => value.toList
  | raise exception => exception.toList
  | goto target => [target]
  | block _ declarations body _ => declarations ++ [body]
  | handled statements handlers => statements ++ handlers
  | labeled _ statement => [statement]

def label : Stmt ρ → String
  | null => "NullStmt"
  | assignment .. => "Assignment"
  | call .. => "CallStmt"
  | ifStatement .. => "If"
  | conditional .. => "Conditional"
  | caseStatement .. => "Case"
  | caseAlternative .. => "CaseAlternative"
  | loop .. => "Loop"
  | exit .. => "Exit"
  | returnStatement .. => "Return"
  | raise .. => "Raise"
  | goto .. => "Goto"
  | block .. => "Block"
  | handled .. => "Handled"
  | handler .. => "Handler"
  | labeled .. => "Labeled"

end Stmt

end AdaSyntax
