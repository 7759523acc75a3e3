import AdaSyntax.Index

/-! Expressions, without the names in them. -/

namespace AdaSyntax

inductive BinaryOp where
  | and | andThen | or | orElse | xor | eq | ne | lt | le | gt | ge | add | sub | concat | mul | div
  | mod | rem | pow
deriving DecidableEq, Inhabited

namespace BinaryOp

def text : BinaryOp → String
  | and => "and"
  | andThen => "and then"
  | or => "or"
  | orElse => "or else"
  | xor => "xor"
  | eq => "="
  | ne => "/="
  | lt => "<"
  | le => "<="
  | gt => ">"
  | ge => ">="
  | add => "+"
  | sub => "-"
  | concat => "&"
  | mul => "*"
  | div => "/"
  | mod => "mod"
  | rem => "rem"
  | pow => "**"

def isLogical : BinaryOp → Bool
  | and | andThen | or | orElse | xor => true
  | _ => false

end BinaryOp

inductive UnaryOp where
  | plus | minus | abs | not
deriving DecidableEq, Inhabited

def UnaryOp.text : UnaryOp → String
  | plus => "+"
  | minus => "-"
  | abs => "abs"
  | not => "not"

inductive LiteralKind where
  | integer | real | character | string | null
deriving DecidableEq, Inhabited

inductive Expr where
  | binary (op : BinaryOp) (left right : NodeId)
  | unary (op : UnaryOp) (operand : NodeId)
  | literal (kind : LiteralKind) (text : String)
  /-- A test against a range or a type. -/
  | membership (operand : NodeId) (negated : Bool) (target : NodeId)
  | aggregate (components : List NodeId)
  /-- Choices with the value given to them. -/
  | association (choices : List NodeId) (value : NodeId)
  /-- The choice of everything else. -/
  | others
  | qualified (mark operand : NodeId)
  | allocator (operand : NodeId)
  | parenthesized (inner : NodeId)
deriving DecidableEq

namespace Expr

def children : Expr → List NodeId
  | binary _ left right => [left, right]
  | unary _ operand => [operand]
  | literal _ _ | others => []
  | membership operand _ target => [operand, target]
  | aggregate components => components
  | association choices value => choices ++ [value]
  | qualified mark operand => [mark, operand]
  | allocator operand => [operand]
  | parenthesized inner => [inner]

def label : Expr → String
  | binary .. => "Binary"
  | unary .. => "Unary"
  | literal .. => "Literal"
  | membership .. => "Membership"
  | aggregate .. => "Aggregate"
  | association .. => "Association"
  | others => "Others"
  | qualified .. => "Qualified"
  | allocator .. => "Allocator"
  | parenthesized .. => "Parenthesized"

end Expr

end AdaSyntax
