import AdaSyntax.Index
import AdaSyntax.Name
import AdaSyntax.Symbol.Basic

/-!
Names where they are used. Names of one spelling may mean different things, depending on what stands
before the last dot or parenthesis; what it meant at this place is recorded in the node.
-/

namespace AdaSyntax

inductive SelectedForm where
  /-- Selected from a package, unit, subprogram or label. -/
  | expanded
  | component
deriving DecidableEq, Inhabited

inductive ApplyForm where
  | typeConversion | call | indexedComponent | unresolved
deriving DecidableEq, Inhabited

inductive NameUse where
  /-- An identifier or operator symbol. -/
  | identifier (name : Name) (symbol : Option SymbolId) (kind : SymbolKind)
  | selected (base : NodeId) (selector : Name) (form : SelectedForm) (symbol : Option SymbolId)
      (kind : SymbolKind)
  /-- The object behind an access value. -/
  | dereference (base : NodeId)
  | apply (base : NodeId) (arguments : List NodeId) (form : ApplyForm)
  | slice (base range : NodeId)
  | attributeOf (base : NodeId) (designator : Name) (arguments : List NodeId)
deriving DecidableEq

namespace NameUse

def children : NameUse → List NodeId
  | identifier .. => []
  | selected base .. | dereference base => [base]
  | apply base arguments _ | attributeOf base _ arguments => base :: arguments
  | slice base range => [base, range]

def label : NameUse → String
  | identifier .. => "Identifier"
  | selected _ _ .expanded _ _ => "ExpandedName"
  | selected _ _ .component _ _ => "SelectedComponent"
  | dereference _ => "Dereference"
  | apply _ _ .typeConversion => "TypeConversion"
  | apply _ _ .call => "Call"
  | apply _ _ .indexedComponent => "IndexedComponent"
  | apply _ _ .unresolved => "Apply"
  | slice _ _ => "Slice"
  | attributeOf _ _ _ => "Attribute"

def symbol? : NameUse → Option SymbolId
  | identifier _ symbol _ | selected _ _ _ symbol _ => symbol
  | _ => none

def classification : NameUse → SymbolKind
  | identifier _ _ kind | selected _ _ _ _ kind => kind
  | _ => .unresolved

end NameUse

end AdaSyntax
