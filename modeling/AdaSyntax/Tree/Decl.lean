import AdaSyntax.Index
import AdaSyntax.Name

/-! Declarations, specifications and bodies. -/

namespace AdaSyntax

inductive Mode where
  | input | output | inOut
deriving DecidableEq, Inhabited

def Mode.text : Mode → String
  | input => "in"
  | output => "out"
  | inOut => "in out"

inductive SubprogramKind where
  | procedure | function
deriving DecidableEq, Inhabited

def SubprogramKind.label : SubprogramKind → String
  | procedure => "Procedure"
  | function => "Function"

inductive GenericKind where
  | package | procedure | function
deriving DecidableEq, Inhabited

def GenericKind.label : GenericKind → String
  | package => "Package"
  | procedure => "Procedure"
  | function => "Function"

inductive Renaming where
  | object (subtype : NodeId)
  | exception
  | package
  | subprogram (spec : NodeId)
deriving DecidableEq

inductive FormalTypeDef where
  | privateType (isLimited : Bool)
  | discrete
  | integer
  | float
  | fixed
  | array (definition : NodeId)
  | access (definition : NodeId)
deriving DecidableEq

inductive FormalDefault where
  | none
  | box
  | name (target : NodeId)
deriving DecidableEq

inductive Stub (ρ : Type) where
  | package (name : DefiningName ρ)
  | subprogram (spec : NodeId)
deriving DecidableEq

inductive Decl (ρ : Type) where
  | object (names : List (DefiningName ρ)) (isConstant : Bool) (indication : NodeId)
      (initial : Option NodeId)
  | number (names : List (DefiningName ρ)) (value : NodeId)
  | type (name : DefiningName ρ) (discriminants : List NodeId) (definition : NodeId)
  | incompleteType (name : DefiningName ρ) (discriminants : List NodeId)
  | privateType (name : DefiningName ρ) (discriminants : List NodeId) (isLimited : Bool)
  | subtype (name : DefiningName ρ) (indication : NodeId)
  | exception (names : List (DefiningName ρ))
  | renames (name : DefiningName ρ) (kind : Renaming) (renamed : NodeId)
  | subprogramSpec (kind : SubprogramKind) (name : DefiningName ρ) (parameters : List NodeId)
      (result : Option NodeId)
  | parameter (names : List (DefiningName ρ)) (mode : Mode) (mark : NodeId)
      (initial : Option NodeId)
  | discriminant (names : List (DefiningName ρ)) (mark : NodeId) (initial : Option NodeId)
  | component (names : List (DefiningName ρ)) (indication : NodeId) (initial : Option NodeId)
  | subprogramDecl (spec : NodeId)
  | subprogramBody (spec : NodeId) (declarations : List NodeId) (body : NodeId)
      (endName : Option Name)
  | packageDecl (name : DefiningName ρ) (visible : List NodeId) (hidden : Option (List NodeId))
      (endName : Option Name)
  | packageBody (name : DefiningName ρ) (declarations : List NodeId) (body : Option NodeId)
      (endName : Option Name)
  | generic (formals : List NodeId) (unit : NodeId)
  | formalObject (names : List (DefiningName ρ)) (mode : Mode) (mark : NodeId)
      (initial : Option NodeId)
  | formalType (name : DefiningName ρ) (discriminants : List NodeId) (definition : FormalTypeDef)
  | formalSubprogram (spec : NodeId) (default : FormalDefault)
  | instantiation (kind : GenericKind) (name : DefiningName ρ) (template : NodeId)
      (actuals : List NodeId)
  | bodyStub (stub : Stub ρ)
  | useClause (packages : List NodeId)
  | pragma (name : DefiningName ρ) (arguments : List NodeId)
deriving DecidableEq

variable {ρ σ : Type}

namespace Renaming

def children : Renaming → List NodeId
  | object subtype => [subtype]
  | exception | package => []
  | subprogram spec => [spec]

end Renaming

namespace FormalTypeDef

def children : FormalTypeDef → List NodeId
  | array definition | access definition => [definition]
  | _ => []

end FormalTypeDef

namespace FormalDefault

def children : FormalDefault → List NodeId
  | name target => [target]
  | _ => []

end FormalDefault

namespace Stub

def map (f : ρ → σ) : Stub ρ → Stub σ
  | package name => .package (name.map f)
  | subprogram spec => .subprogram spec

def children : Stub ρ → List NodeId
  | package _ => []
  | subprogram spec => [spec]

end Stub

namespace Decl

def map (f : ρ → σ) : Decl ρ → Decl σ
  | object names isConstant indication initial =>
    .object (names.map (·.map f)) isConstant indication initial
  | number names value => .number (names.map (·.map f)) value
  | type name discriminants definition => .type (name.map f) discriminants definition
  | incompleteType name discriminants => .incompleteType (name.map f) discriminants
  | privateType name discriminants isLimited => .privateType (name.map f) discriminants isLimited
  | subtype name indication => .subtype (name.map f) indication
  | exception names => .exception (names.map (·.map f))
  | renames name kind renamed => .renames (name.map f) kind renamed
  | subprogramSpec kind name parameters result =>
    .subprogramSpec kind (name.map f) parameters result
  | parameter names mode mark initial =>
    .parameter (names.map (·.map f)) mode mark initial
  | discriminant names mark initial => .discriminant (names.map (·.map f)) mark initial
  | component names indication initial => .component (names.map (·.map f)) indication initial
  | subprogramDecl spec => .subprogramDecl spec
  | subprogramBody spec declarations body endName =>
    .subprogramBody spec declarations body endName
  | packageDecl name visible hidden endName => .packageDecl (name.map f) visible hidden endName
  | packageBody name declarations body endName =>
    .packageBody (name.map f) declarations body endName
  | generic formals unit => .generic formals unit
  | formalObject names mode mark initial =>
    .formalObject (names.map (·.map f)) mode mark initial
  | formalType name discriminants definition =>
    .formalType (name.map f) discriminants definition
  | formalSubprogram spec default => .formalSubprogram spec default
  | instantiation kind name template actuals =>
    .instantiation kind (name.map f) template actuals
  | bodyStub stub => .bodyStub (stub.map f)
  | useClause packages => .useClause packages
  | pragma name arguments => .pragma (name.map f) arguments

def children : Decl ρ → List NodeId
  | object _ _ target initial | parameter _ _ target initial | discriminant _ target initial
  | component _ target initial | formalObject _ _ target initial => target :: initial.toList
  | number _ value => [value]
  | type _ discriminants definition => discriminants ++ [definition]
  | incompleteType _ discriminants | privateType _ discriminants _ => discriminants
  | subtype _ indication => [indication]
  | exception _ => []
  | renames _ kind renamed => kind.children ++ [renamed]
  | subprogramSpec _ _ parameters result => parameters ++ result.toList
  | subprogramDecl spec => [spec]
  | subprogramBody spec declarations body _ => spec :: declarations ++ [body]
  | packageDecl _ visible hidden _ => visible ++ hidden.getD []
  | packageBody _ declarations body _ => declarations ++ body.toList
  | generic formals unit => formals ++ [unit]
  | formalType _ discriminants definition => discriminants ++ definition.children
  | formalSubprogram spec default => spec :: default.children
  | instantiation _ _ template actuals => template :: actuals
  | bodyStub stub => stub.children
  | useClause packages => packages
  | pragma _ arguments => arguments

def label : Decl ρ → String
  | object .. => "ObjectDecl"
  | number .. => "NumberDecl"
  | type .. => "TypeDecl"
  | incompleteType .. => "IncompleteTypeDecl"
  | privateType .. => "PrivateTypeDecl"
  | subtype .. => "SubtypeDecl"
  | exception .. => "ExceptionDecl"
  | renames .. => "RenamingDecl"
  | subprogramSpec .. => "SubprogramSpec"
  | parameter .. => "Parameter"
  | discriminant .. => "Discriminant"
  | component .. => "Component"
  | subprogramDecl .. => "SubprogramDecl"
  | subprogramBody .. => "SubprogramBody"
  | packageDecl .. => "PackageDecl"
  | packageBody .. => "PackageBody"
  | generic .. => "GenericDecl"
  | formalObject .. => "FormalObject"
  | formalType .. => "FormalType"
  | formalSubprogram .. => "FormalSubprogram"
  | instantiation .. => "Instantiation"
  | bodyStub .. => "BodyStub"
  | useClause .. => "UseClause"
  | pragma .. => "Pragma"

def definingNames : Decl ρ → List (DefiningName ρ)
  | object names .. | number names _ | exception names | parameter names .. | discriminant names ..
  | component names .. | formalObject names .. => names
  | type name .. | incompleteType name _ | privateType name .. | subtype name _ | renames name ..
  | subprogramSpec _ name .. | packageDecl name .. | packageBody name .. | formalType name ..
  | instantiation _ name .. => [name]
  | bodyStub (.package name) => [name]
  | _ => []

end Decl

end AdaSyntax
