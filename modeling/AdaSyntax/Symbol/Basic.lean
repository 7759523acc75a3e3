import AdaSyntax.Index
import AdaSyntax.Name
import AdaSyntax.Text.Range

/-!
Declared entities: what a declared name stands for, with as much of a type's structure as decides how a
constraint on it is read.
-/

namespace AdaSyntax

inductive SymbolKind where
  | type | subtype | incompleteType | privateType | object | constant | deferredConstant
  | namedNumber | parameter | loopParameter | component | discriminant | exception
  | enumerationLiteral | procedure | function | package | genericPackage | genericProcedure
  | genericFunction | label
  /-- A library unit named in a with clause. -/
  | unit
  /-- No visible declaration. -/
  | unresolved
deriving DecidableEq, Inhabited

namespace SymbolKind

def isTypeMark : SymbolKind → Bool
  | type | subtype | incompleteType | privateType => true
  | _ => false

def isObject : SymbolKind → Bool
  | object | constant | deferredConstant | namedNumber | parameter | loopParameter | component
  | discriminant => true
  | _ => false

def isOverloadable : SymbolKind → Bool
  | procedure | function | enumerationLiteral => true
  | _ => false

def isSubprogram : SymbolKind → Bool
  | procedure | function => true
  | _ => false

def isGeneric : SymbolKind → Bool
  | genericPackage | genericProcedure | genericFunction => true
  | _ => false

def qualifies : SymbolKind → Bool
  | package | genericPackage | unit | procedure | function | genericProcedure | genericFunction
  | label => true
  | _ => false

/-- Whether a declaration of kind `later` completes one of kind `earlier`. -/
def completes (later earlier : SymbolKind) : Bool :=
  match earlier, later with
  | incompleteType, type | incompleteType, privateType | privateType, type
  | deferredConstant, constant | genericProcedure, procedure | genericFunction, function => true
  | _, _ => false

def text : SymbolKind → String
  | type => "type"
  | subtype => "subtype"
  | incompleteType => "incomplete type"
  | privateType => "private type"
  | object => "object"
  | constant => "constant"
  | deferredConstant => "deferred constant"
  | namedNumber => "named number"
  | parameter => "parameter"
  | loopParameter => "loop parameter"
  | component => "component"
  | discriminant => "discriminant"
  | exception => "exception"
  | enumerationLiteral => "enumeration literal"
  | procedure => "procedure"
  | function => "function"
  | package => "package"
  | genericPackage => "generic package"
  | genericProcedure => "generic procedure"
  | genericFunction => "generic function"
  | label => "label"
  | unit => "library unit"
  | unresolved => "unresolved"

end SymbolKind

inductive TypeShape where
  | enumeration
  | integer
  | real
  | array (constrained : Bool)
  | record (discriminated : Bool)
  | access (designated : TypeShape)
  | privateType (discriminated : Bool)
  | incomplete (discriminated : Bool)
  | unknown
deriving DecidableEq, Inhabited

namespace TypeShape

/-- Whether a parenthesized constraint lists values of discriminants. -/
def hasDiscriminants : TypeShape → Bool
  | record discriminated | privateType discriminated | incomplete discriminated => discriminated
  | access designated => designated.hasDiscriminants
  | _ => false

def isArray : TypeShape → Bool
  | array _ => true
  | access designated => designated.isArray
  | _ => false

def isScalar : TypeShape → Bool
  | enumeration | integer | real => true
  | _ => false

def dereferenced : TypeShape → TypeShape
  | access designated => designated
  | shape => shape

end TypeShape

/-- What a declaration tells about the entity; a predefined one has no declaring node. -/
structure Declaration where
  name : Name
  kind : SymbolKind
  node : Option NodeId := none
  range : Range := .empty 0
  shape : Option TypeShape := none
deriving DecidableEq, Inhabited

/-- An entity with the region it was declared in and the number of regions open at that time. -/
structure Symbol extends Declaration where
  region : RegionId
  depth : Nat
deriving DecidableEq, Inhabited

namespace Symbol

def isPredefined (symbol : Symbol) : Bool := symbol.node.isNone

def typeShape (symbol : Symbol) : TypeShape := symbol.shape.getD .unknown

end Symbol

end AdaSyntax
