import AdaSyntax.Tree.Walk

/-!
Trees as text, one line for a node: two blanks for each level, the label, and what there is to say of
the node itself. A parenthesis opens each node and closes it behind its last descendant.
-/

namespace AdaSyntax

variable {ρ : Type}

def UnitPart.details : UnitPart ρ → String
  | compilation _ library => "library=" ++ toString library.length
  | withClause units => DefiningName.list units
  | _ => ""

def Decl.details (decl : Decl ρ) : String :=
  DefiningName.list decl.definingNames ++
    match decl with
    | object _ true _ _ => " constant"
    | privateType _ _ true => " limited"
    | parameter _ mode _ _ | formalObject _ mode _ _ => " " ++ mode.text
    | subprogramSpec kind _ _ _ => " " ++ kind.label
    | instantiation kind _ _ _ => " " ++ kind.label
    | _ => ""

def TypeDef.details : TypeDef ρ → String
  | enumeration literals => DefiningName.list literals
  | _ => ""

def Expr.details : Expr → String
  | binary op _ _ => op.text
  | unary op _ => op.text
  | literal _ text => text
  | membership _ negated _ => if negated then "not in" else "in"
  | _ => ""

def NameUse.details : NameUse → String
  | identifier name _ kind => name.text ++ " :" ++ kind.text
  | selected _ selector _ _ kind => "." ++ selector.text ++ " :" ++ kind.text
  | attributeOf _ designator _ => "'" ++ designator.text
  | _ => ""

def LoopScheme.details : LoopScheme ρ → String
  | plain => "plain"
  | whileLoop _ => "while"
  | forLoop parameter reverse _ =>
    "for " ++ parameter.name.text ++ if reverse then " reverse" else ""

def Stmt.details : Stmt ρ → String
  | loop (some label) scheme _ _ => label.name.text ++ ": " ++ scheme.details
  | loop none scheme _ _ => scheme.details
  | block (some label) _ _ _ => label.name.text
  | labeled labels _ => DefiningName.list labels
  | _ => ""

def Payload.details : Payload ρ → String
  | placeholder => ""
  | unit part => part.details
  | decl part => part.details
  | type part => part.details
  | expr part => part.details
  | name part => part.details
  | stmt part => part.details

namespace Tree

def indentation : Nat → String
  | 0 => ""
  | depth + 1 => "  " ++ indentation depth

def openingText (payload : Payload ρ) : String :=
  "(" ++ payload.label ++ if payload.details.isEmpty then "" else " " ++ payload.details

def printer : Visitor String where
  enter text _ node depth :=
    let line := indentation depth ++ openingText node.payload
    (true, if text.isEmpty then line else text ++ "\n" ++ line)
  leave text _ _ := text ++ ")"

def print (tree : Tree) (root : NodeId) : String := tree.walk printer root ""

end Tree

end AdaSyntax
