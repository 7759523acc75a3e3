import AdaSyntax.Index
import AdaSyntax.Name
import AdaSyntax.Tree.Decl
import AdaSyntax.Tree.Expr
import AdaSyntax.Tree.NameUse
import AdaSyntax.Tree.Stmt
import AdaSyntax.Tree.TypeDef

/-! What a node of the tree holds; the nodes of the compilation level first. -/

namespace AdaSyntax

inductive UnitPart (ρ : Type) where
  /-- The root of a parse, with the library symbols that its units declare. -/
  | compilation (units : List NodeId) (library : List SymbolId)
  | compilationUnit (context : List NodeId) (unit : NodeId)
  | withClause (units : List (DefiningName ρ))
  | subunit (parent body : NodeId)
deriving DecidableEq

variable {ρ σ : Type}

namespace UnitPart

def map (f : ρ → σ) : UnitPart ρ → UnitPart σ
  | compilation units library => .compilation units library
  | compilationUnit context unit => .compilationUnit context unit
  | withClause units => .withClause (units.map (·.map f))
  | subunit parent body => .subunit parent body

def children : UnitPart ρ → List NodeId
  | compilation units _ => units
  | compilationUnit context unit => context ++ [unit]
  | withClause _ => []
  | subunit parent body => [parent, body]

def label : UnitPart ρ → String
  | compilation .. => "Compilation"
  | compilationUnit .. => "CompilationUnit"
  | withClause .. => "WithClause"
  | subunit .. => "Subunit"

end UnitPart

inductive Payload (ρ : Type) where
  /-- A node that is reserved and still to be filled. -/
  | placeholder
  | unit (part : UnitPart ρ)
  | decl (part : Decl ρ)
  | type (part : TypeDef ρ)
  | expr (part : Expr)
  | name (part : NameUse)
  | stmt (part : Stmt ρ)
deriving DecidableEq

namespace Payload

def map (f : ρ → σ) : Payload ρ → Payload σ
  | placeholder => .placeholder
  | unit part => .unit (part.map f)
  | decl part => .decl (part.map f)
  | type part => .type (part.map f)
  | expr part => .expr part
  | name part => .name part
  | stmt part => .stmt (part.map f)

def children : Payload ρ → List NodeId
  | placeholder => []
  | unit part => part.children
  | decl part => part.children
  | type part => part.children
  | expr part => part.children
  | name part => part.children
  | stmt part => part.children

def label : Payload ρ → String
  | placeholder => "Placeholder"
  | unit part => part.label
  | decl part => part.label
  | type part => part.label
  | expr part => part.label
  | name part => part.label
  | stmt part => part.label

def isPlaceholder : Payload ρ → Bool
  | placeholder => true
  | _ => false

def classify : Payload ρ → Option SymbolId × SymbolKind
  | name part => (part.symbol?, part.classification)
  | _ => (none, .unresolved)

end Payload

end AdaSyntax
