import AdaSyntax.Proofs.Tree.Growth
import AdaSyntax.Scope.Region
import AdaSyntax.Tree.Basic

namespace AdaSyntax

/-- What an open region is for the statements in it. -/
inductive Bracket where
  | plain
  /-- The statements of the loop that is, or will be, this node. -/
  | loop (node : NodeId)
  /-- A region that no exit statement leaves. -/
  | body
deriving DecidableEq

namespace Bracket

@[simp] def isPlain : Bracket → Bool
  | plain => true
  | _ => false

end Bracket

@[simp] def RegionKind.bracket (kind : RegionKind) : Bracket := if kind.isBody then .body else .plain

/-- How a subtree was read. -/
inductive Role where
  | expression
  /-- A simple or expanded name. -/
  | name
  /-- A simple or expanded name that was checked to denote a type. -/
  | mark
  /-- A range, which is no simple or expanded name. -/
  | bounds
  /-- The target of a membership test: a mark or bounds. -/
  | tested
  /-- A subtype indication, which is no qualified expression. -/
  | indication
  /-- The operand of an allocator: an indication, or a qualified expression with a checked mark. -/
  | allocated
  /-- A name that was checked to denote a package. -/
  | package
  | declaration
  /-- A statement inside of brackets, the outermost first. -/
  | statement (within : List Bracket)
deriving DecidableEq

structure Piece where
  node : NodeId
  role : Role
deriving DecidableEq

variable {ρ σ : Type}

def LoopScheme.range? : LoopScheme ρ → Option NodeId
  | forLoop _ _ range => some range
  | _ => none

namespace Payload

def isExpression : Payload ρ → Bool
  | type _ | expr _ | name _ => true
  | _ => false

def isSimpleName : Payload ρ → Bool
  | name (.identifier ..) | name (.selected ..) => true
  | _ => false

theorem isExpression_of_isSimpleName (payload : Payload ρ) (h : payload.isSimpleName = true) :
    payload.isExpression = true := by
  cases payload <;> first | rfl | cases h

def isName : Payload ρ → Bool
  | name _ => true
  | _ => false

def isQualified : Payload ρ → Bool
  | expr (.qualified ..) => true
  | _ => false

def isStatement : Payload ρ → Bool
  | stmt _ => true
  | _ => false

def isExit : Payload ρ → Bool
  | stmt (.exit ..) => true
  | _ => false

def isReservable : Payload ρ → Bool
  | decl (.type ..) | decl (.incompleteType ..) | decl (.privateType ..) | decl (.renames _ (.subprogram _) _)
  | decl (.subprogramDecl _) | decl (.subprogramBody ..) | decl (.packageDecl ..) | decl (.generic ..)
  | decl (.formalSubprogram ..) | decl (.bodyStub (.subprogram _)) | stmt (.loop ..) | stmt (.block ..)
  | stmt (.labeled ..) => true
  | _ => false

def loopRange? : Payload ρ → Option NodeId
  | stmt (.loop _ scheme _ _) => scheme.range?
  | _ => none

end Payload

namespace Role

@[simp] def isSilent : Role → Bool
  | declaration | statement _ => false
  | _ => true

def isFresh : Role → Bool
  | mark | tested | package | statement (_ :: _) => false
  | _ => true

def within (outer : List Bracket) : Role → Role
  | statement inner => .statement (outer.filter (!·.isPlain) ++ inner)
  | role => role

@[simp] theorem within_statement (outer inner : List Bracket) :
    (statement inner).within outer = .statement (outer.filter (!·.isPlain) ++ inner) := rfl

@[simp] theorem within_declaration (outer : List Bracket) : declaration.within outer = .declaration := rfl

@[simp] theorem within_expression (outer : List Bracket) : expression.within outer = .expression := rfl

@[simp] theorem within_mark (outer : List Bracket) : mark.within outer = .mark := rfl

@[simp] theorem within_nil (role : Role) : role.within [] = role := by
  cases role <;> rfl

inductive Serves : Role → Role → Prop where
  | refl (role : Role) : Serves role role
  | name : Serves .name .expression
  | bounds : Serves .bounds .expression
  | indication : Serves .indication .expression
  | testedMark : Serves .mark .tested
  | testedBounds : Serves .bounds .tested
  | allocatedIndication : Serves .indication .allocated
  | expression : Serves .expression .declaration
  | expressionStatement : Serves .expression (.statement [])
  | declaration : Serves .declaration (.statement [])

theorem Serves.isSilent {role role' : Role} (h : role.Serves role') (hsilent : role'.isSilent = true) :
    role.isSilent = true := by
  cases h <;> first | exact hsilent | rfl

def admits (payload : Payload ρ) : Role → Bool
  | name | mark => payload.isSimpleName
  | bounds => payload.isExpression && !payload.isSimpleName
  | indication => payload.isExpression && !payload.isQualified
  | expression | tested | allocated | package => payload.isExpression
  | declaration => !payload.isPlaceholder && !payload.isStatement
  | statement _ => !payload.isPlaceholder

theorem admits_filled {role : Role} {payload : Payload ρ} (h : role.admits payload = true) :
    payload.isPlaceholder = false := by
  cases payload with
  | placeholder => cases role <;> cases h
  | _ => rfl

theorem admits_expression {role : Role} {payload : Payload ρ} (h : role.admits payload = true)
    (hsilent : role.isSilent = true) : payload.isExpression = true := by
  cases role <;> cases hsilent
  case bounds | indication => exact (Bool.and_eq_true _ _ ▸ h).1
  case name | mark => exact payload.isExpression_of_isSimpleName h
  all_goals exact h

theorem admits_of_serves {role role' : Role} {payload : Payload ρ} (h : role.Serves role')
    (hadmits : role.admits payload = true) : role'.admits payload = true := by
  cases payload with
  | stmt part => cases h <;> first | exact hadmits | cases hadmits
  | _ => cases h <;> first | exact hadmits | rfl

end Role

namespace Piece

def within (outer : List Bracket) (piece : Piece) : Piece := { piece with role := piece.role.within outer }

def many (role : Role) (nodes : List NodeId) : List Piece := nodes.map (⟨·, role⟩)

@[simp] theorem many_nil (role : Role) : many role [] = [] := rfl

@[simp] theorem many_cons (role : Role) (node : NodeId) (nodes : List NodeId) :
    many role (node :: nodes) = ⟨node, role⟩ :: many role nodes := rfl

@[simp] theorem many_append (role : Role) (nodes nodes' : List NodeId) :
    many role (nodes ++ nodes') = many role nodes ++ many role nodes' := List.map_append

@[simp] theorem within_mk (outer : List Bracket) (node : NodeId) (role : Role) :
    within outer ⟨node, role⟩ = ⟨node, role.within outer⟩ := rfl

theorem map_within_nil (pieces : List Piece) : pieces.map (within []) = pieces := by
  have hid : within [] = id := funext fun piece => by simp [within]
  rw [hid, List.map_id]

@[simp] theorem map_within_many (role : Role) (nodes : List NodeId) (outer : List Bracket) :
    (many role nodes).map (within outer) = many (role.within outer) nodes := by
  simp [many, within]

@[simp] theorem map_node_many (role : Role) (nodes : List NodeId) :
    (many role nodes).map node = nodes := by
  simp [many, Function.comp_def]

theorem mem_many {piece : Piece} {role : Role} {nodes : List NodeId} :
    piece ∈ many role nodes ↔ piece.node ∈ nodes ∧ piece.role = role := by
  obtain ⟨node, role'⟩ := piece
  simp only [many, List.mem_map, Piece.mk.injEq]
  constructor
  · rintro ⟨other, hother, rfl, rfl⟩
    exact ⟨hother, rfl⟩
  · rintro ⟨hnode, rfl⟩
    exact ⟨node, hnode, rfl, rfl⟩

@[simp] theorem map_node_within (outer : List Bracket) (pieces : List Piece) :
    (pieces.map (within outer)).map node = pieces.map node := by
  simp [within, Function.comp_def]

end Piece

open Piece (many)

namespace Role

def ofMark : Role → Role
  | allocated => .mark
  | _ => .expression

def ofPrefix : Role → Role
  | name => .name
  | _ => .expression

end Role

namespace UnitPart

def pieces : UnitPart ρ → List Piece
  | subunit parent body => [⟨parent, .expression⟩, ⟨body, .declaration⟩]
  | part => many .declaration part.children

end UnitPart

namespace Renaming

def pieces : Renaming → List Piece
  | object mark => [⟨mark, .mark⟩]
  | exception | package => []
  | subprogram spec => [⟨spec, .declaration⟩]

end Renaming

namespace Decl

def pieces : Decl ρ → List Piece
  | object _ _ indication initial | component _ indication initial =>
    ⟨indication, .expression⟩ :: many .expression initial.toList
  | parameter _ _ mark initial | discriminant _ mark initial | formalObject _ _ mark initial =>
    ⟨mark, .mark⟩ :: many .expression initial.toList
  | number _ value => [⟨value, .expression⟩]
  | subtype _ indication => [⟨indication, .expression⟩]
  | renames _ kind renamed => kind.pieces ++ [⟨renamed, .expression⟩]
  | subprogramSpec _ _ parameters result =>
    many .declaration parameters ++ many .mark result.toList
  | subprogramBody spec declarations body _ =>
    ⟨spec, .declaration⟩ :: many .declaration declarations ++ [⟨body, .statement [.body]⟩]
  | packageBody _ declarations body _ =>
    many .declaration declarations ++ many (.statement [.body]) body.toList
  | formalSubprogram spec default => ⟨spec, .declaration⟩ :: many .expression default.children
  | instantiation _ _ template actuals => ⟨template, .expression⟩ :: many .expression actuals
  | useClause packages => many .package packages
  | pragma _ arguments => many .expression arguments
  | part => many .declaration part.children

end Decl

namespace TypeDef

def pieces : TypeDef ρ → List Piece
  | subtypeIndication mark constraint => ⟨mark, .mark⟩ :: many .expression constraint.toList
  | indexSubtype mark => [⟨mark, .mark⟩]
  | record components tail => many .declaration components ++ many .declaration tail.toList
  | variantPart discriminant variants => ⟨discriminant, .expression⟩ :: many .declaration variants
  | variant choices components tail =>
    many .expression choices ++ many .declaration components ++ many .declaration tail.toList
  | part => many .expression part.children

end TypeDef

namespace Expr

def pieces (role : Role) : Expr → List Piece
  | membership operand _ target => [⟨operand, .expression⟩, ⟨target, .tested⟩]
  | qualified mark operand => [⟨mark, role.ofMark⟩, ⟨operand, .expression⟩]
  | allocator operand => [⟨operand, .allocated⟩]
  | part => many .expression part.children

end Expr

namespace NameUse

def pieces (role : Role) : NameUse → List Piece
  | selected base .. => [⟨base, role.ofPrefix⟩]
  | part => many .expression part.children

end NameUse

namespace Stmt

def pieces (node : NodeId) : Stmt ρ → List Piece
  | ifStatement branches elseStatements =>
    many (.statement []) branches ++ many (.statement []) elseStatements
  | conditional condition statements =>
    ⟨condition, .expression⟩ :: many (.statement []) statements
  | caseStatement selector alternatives =>
    ⟨selector, .expression⟩ :: many (.statement []) alternatives
  | caseAlternative choices statements | handler choices statements =>
    many .expression choices ++ many (.statement []) statements
  | loop _ scheme statements _ =>
    many .expression scheme.children ++ many (.statement [.loop node]) statements
  | block _ declarations body _ => many .declaration declarations ++ [⟨body, .statement []⟩]
  | handled statements handlers =>
    many (.statement []) statements ++ many (.statement []) handlers
  | labeled _ statement => [⟨statement, .statement []⟩]
  | part => many .expression part.children

end Stmt

namespace Payload

def pieces (node : NodeId) (role : Role) : Payload ρ → List Piece
  | placeholder => []
  | unit part => part.pieces
  | decl part => part.pieces
  | type part => part.pieces
  | expr part => part.pieces role
  | name part => part.pieces role
  | stmt part => part.pieces node

attribute [simp] RegionKind.isBody pieces UnitPart.pieces Renaming.pieces Decl.pieces TypeDef.pieces Expr.pieces
  NameUse.pieces Stmt.pieces
attribute [simp] children UnitPart.children Renaming.children FormalTypeDef.children
  FormalDefault.children Stub.children Decl.children TypeDef.children Expr.children NameUse.children
  LoopScheme.children Stmt.children

theorem map_node_pieces (payload : Payload ρ) (node : NodeId) (role : Role) :
    (payload.pieces node role).map Piece.node = payload.children := by
  cases payload with
  | placeholder => rfl
  | unit part => cases part <;> simp
  | decl part =>
    cases part with
    | renames name kind renamed => cases kind <;> simp
    | _ => simp
  | type part => cases part <;> simp
  | expr part => cases part <;> simp
  | name part => cases part <;> simp
  | stmt part => cases part <;> simp

@[simp] theorem pieces_map (f : ρ → σ) (payload : Payload ρ) (node : NodeId) (role : Role) :
    (payload.map f).pieces node role = payload.pieces node role := by
  cases payload with
  | placeholder => rfl
  | unit part => cases part <;> rfl
  | decl part =>
    cases part with
    | bodyStub stub => cases stub <;> rfl
    | _ => rfl
  | type part => cases part <;> rfl
  | expr part => rfl
  | name part => rfl
  | stmt part =>
    cases part with
    | loop label scheme statements endName => cases scheme <;> rfl
    | _ => rfl

@[simp] theorem children_map (f : ρ → σ) (payload : Payload ρ) :
    (payload.map f).children = payload.children := by
  rw [← map_node_pieces _ ⟨0⟩ .expression, pieces_map, map_node_pieces]

@[simp] theorem isPlaceholder_map (f : ρ → σ) (payload : Payload ρ) :
    (payload.map f).isPlaceholder = payload.isPlaceholder := by
  cases payload <;> rfl

@[simp] theorem classify_map (f : ρ → σ) (payload : Payload ρ) :
    (payload.map f).classify = payload.classify := by
  cases payload <;> rfl

@[simp] theorem isName_map (f : ρ → σ) (payload : Payload ρ) : (payload.map f).isName = payload.isName := by
  cases payload <;> rfl

@[simp] theorem isReservable_map (f : ρ → σ) (payload : Payload ρ) :
    (payload.map f).isReservable = payload.isReservable := by
  cases payload with
  | decl part =>
    cases part with
    | renames name kind renamed => cases kind <;> rfl
    | bodyStub stub => cases stub <;> rfl
    | _ => rfl
  | stmt part => cases part <;> rfl
  | _ => rfl

@[simp] theorem loopRange?_map (f : ρ → σ) (payload : Payload ρ) :
    (payload.map f).loopRange? = payload.loopRange? := by
  cases payload with
  | stmt part =>
    cases part with
    | loop label scheme statements endName => cases scheme <;> rfl
    | _ => rfl
  | _ => rfl

theorem map_eq_name {f : ρ → σ} {payload : Payload ρ} {use : NameUse} (h : payload.map f = .name use) :
    payload = .name use := by
  cases payload with
  | name part => exact congrArg _ (name.inj h)
  | _ => cases h

@[simp] theorem isExpression_map (f : ρ → σ) (payload : Payload ρ) :
    (payload.map f).isExpression = payload.isExpression := by
  cases payload <;> rfl

@[simp] theorem isSimpleName_map (f : ρ → σ) (payload : Payload ρ) :
    (payload.map f).isSimpleName = payload.isSimpleName := by
  cases payload with
  | name part => cases part <;> rfl
  | _ => rfl

@[simp] theorem admits_map (f : ρ → σ) (payload : Payload ρ) (role : Role) :
    role.admits (payload.map f) = role.admits payload := by
  cases payload with
  | stmt part => cases part <;> cases role <;> rfl
  | name part => cases part <;> cases role <;> rfl
  | expr part => cases part <;> cases role <;> rfl
  | _ => cases role <;> rfl

end Payload

namespace Payload

/-- Constructs that hold constructs of the same sort, and are read one level of nesting deeper. -/
def isCompound : Payload ρ → Bool
  | expr (.parenthesized _) | expr (.aggregate _) => true
  | stmt (.ifStatement ..) | stmt (.caseStatement ..) | stmt (.loop ..) | stmt (.block ..) => true
  | decl (.subprogramBody ..) | decl (.packageDecl ..) | decl (.packageBody ..) => true
  | _ => false

@[simp] theorem isCompound_map (f : ρ → σ) (payload : Payload ρ) :
    (payload.map f).isCompound = payload.isCompound := by
  cases payload with
  | placeholder | name part => rfl
  | unit part | decl part | type part | expr part | stmt part => cases part <;> rfl

end Payload

namespace Tree

inductive Within (tree : Tree) : Nat → NodeId → Prop where
  | plain {bound : Nat} {id : NodeId} {node : Node} (hnode : tree.get? id = some node)
      (hplain : node.payload.isCompound = false) (hchildren : ∀ child ∈ node.payload.children, Within tree bound child) :
      Within tree bound id
  | compound {bound : Nat} {id : NodeId} {node : Node} (hnode : tree.get? id = some node)
      (hchildren : ∀ child ∈ node.payload.children, Within tree bound child) : Within tree (bound + 1) id

/-- Nodes that lead from parents to children. -/
def IsPath (tree : Tree) : List NodeId → Prop
  | parent :: child :: rest => child ∈ tree.children parent ∧ tree.IsPath (child :: rest)
  | _ => True

instance decidableIsPath (tree : Tree) : (path : List NodeId) → Decidable (tree.IsPath path)
  | [] | [_] => .isTrue trivial
  | parent :: child :: rest =>
    have := decidableIsPath tree (child :: rest)
    inferInstanceAs (Decidable (child ∈ tree.children parent ∧ tree.IsPath (child :: rest)))

def compounds (tree : Tree) (path : List NodeId) : Nat :=
  path.countP fun id => (tree.payload id).isCompound

variable {tree : Tree} {bound : Nat} {id : NodeId}

theorem Within.succ (h : tree.Within bound id) : tree.Within (bound + 1) id := by
  induction h with
  | plain hnode hplain _ ih => exact .plain hnode hplain ih
  | compound hnode _ ih => exact .compound hnode ih

theorem Within.compounds_le (h : tree.Within bound id) {path : List NodeId} (hpath : tree.IsPath (id :: path)) :
    tree.compounds (id :: path) ≤ bound := by
  induction h generalizing path with
  | @plain bound id node hnode hplain _ ih =>
    have hpayload := payload_of_get? hnode
    rw [compounds, List.countP_cons_of_neg (by simp [hpayload, hplain])]
    cases path with
    | nil => exact Nat.zero_le _
    | cons child rest =>
      obtain ⟨hchild, hrest⟩ := hpath
      rw [children, hpayload] at hchild
      exact ih child hchild hrest
  | @compound bound id node hnode _ ih =>
    have hpayload := payload_of_get? hnode
    have hpath' : tree.compounds path ≤ bound := by
      cases path with
      | nil => exact Nat.zero_le _
      | cons child rest =>
        obtain ⟨hchild, hrest⟩ := hpath
        rw [children, hpayload] at hchild
        exact ih child hchild hrest
    simp only [compounds, List.countP_cons] at hpath' ⊢
    split <;> omega

end Tree

end AdaSyntax
