import AdaSyntax.Grammar.Expression
import AdaSyntax.Proofs.Parser.Succeeds

/-!
Formulas: the expressions made of literals, identifiers, operators and parentheses. There is one rank for each class
of precedence, and each operator says up to which ranks its operands may go without parentheses.
-/

namespace AdaSyntax

inductive Formula where
  | literal (kind : LiteralKind) (text : String)
  | identifier (name : Name)
  | parenthesized (inner : Formula)
  | unary (op : UnaryOp) (operand : Formula)
  | binary (op : BinaryOp) (left right : Formula)
  /-- A test against a range. -/
  | membership (operand : Formula) (negated : Bool) (low high : Formula)
deriving DecidableEq

def LiteralKind.token : LiteralKind → TokenKind
  | .integer => .integerLiteral
  | .real => .realLiteral
  | .character => .characterLiteral
  | .string => .stringLiteral
  | .null => .kwNull

namespace UnaryOp

def token : UnaryOp → TokenKind
  | plus => .plus
  | minus => .minus
  | abs => .kwAbs
  | not => .kwNot

/-- A sign stands in front of a term, the other operators in front of a primary. -/
def rank : UnaryOp → Nat
  | abs | not => 1
  | plus | minus => 3

end UnaryOp

namespace BinaryOp

def tokens : BinaryOp → List TokenKind
  | and => [.kwAnd]
  | andThen => [.kwAnd, .kwThen]
  | or => [.kwOr]
  | orElse => [.kwOr, .kwElse]
  | xor => [.kwXor]
  | eq => [.equal]
  | ne => [.notEqual]
  | lt => [.less]
  | le => [.lessEqual]
  | gt => [.greater]
  | ge => [.greaterEqual]
  | add => [.plus]
  | sub => [.minus]
  | concat => [.ampersand]
  | mul => [.star]
  | div => [.slash]
  | mod => [.kwMod]
  | rem => [.kwRem]
  | pow => [.doubleStar]

def rank : BinaryOp → Nat
  | pow => 1
  | mul | div | mod | rem => 2
  | add | sub | concat => 3
  | eq | ne | lt | le | gt | ge => 4
  | and | andThen | or | orElse | xor => 5

def leftRank : BinaryOp → Nat
  | pow => 0
  | eq | ne | lt | le | gt | ge => 3
  | op => op.rank

end BinaryOp

namespace Formula

def rank : Formula → Nat
  | literal .. | identifier _ | parenthesized _ => 0
  | unary op _ => op.rank
  | binary op _ _ => op.rank
  | membership .. => 4

/-- Operands bind tighter than their operator, or they stand in parentheses. -/
def Regular : Formula → Prop
  | literal .. | identifier _ => True
  | parenthesized inner => inner.Regular
  | unary op operand => operand.Regular ∧ operand.rank < op.rank
  | binary op left right => left.Regular ∧ right.Regular ∧ left.rank ≤ op.leftRank ∧ right.rank < op.rank
  | membership operand _ low high =>
    operand.Regular ∧ low.Regular ∧ high.Regular ∧ operand.rank < 4 ∧ low.rank < 4 ∧ high.rank < 4

/-- The tokens of a formula, in order. -/
def lexemes : Formula → List Lexeme
  | literal kind text => [⟨kind.token, text⟩]
  | identifier name => [⟨.identifier, name.text⟩]
  | parenthesized inner => .mark .leftParen :: (inner.lexemes ++ [.mark .rightParen])
  | unary op operand => .mark op.token :: operand.lexemes
  | binary op left right => left.lexemes ++ (op.tokens.map .mark ++ right.lexemes)
  | membership operand negated low high =>
    operand.lexemes ++ ((if negated then [.mark .kwNot] else []) ++
      .mark .kwIn :: (low.lexemes ++ .mark .doubleDot :: high.lexemes))

/-- How many levels deep the parser goes to read it. -/
def nesting : Formula → Nat
  | literal .. => 0
  | identifier _ => 1
  | parenthesized inner => inner.nesting + 1
  | unary _ operand => operand.nesting
  | binary _ left right => max left.nesting right.nesting
  | membership operand _ low high => max operand.nesting (max low.nesting high.nesting + 1)

def connective : Formula → Option BinaryOp
  | binary op left _ => if op.rank = 5 then some (left.connective.getD op) else none
  | _ => none

def mixes : Formula → Bool
  | binary op left _ => op.rank == 5 && (left.mixes || left.connective.any (· ≠ op))
  | _ => false

/-- An operator, its first token at `place`, that is not the first one of its chain. -/
structure Mixture where
  place : Nat
  first : BinaryOp
  next : BinaryOp

def Mixture.diagnostic (tokens : Array Token) (mixture : Mixture) : Diagnostic :=
  (Diagnostic.ofCode .mixedOperators
    ("'" ++ mixture.next.text ++ "' cannot follow '" ++ mixture.first.text ++ "' in the same expression")
    (tokenSpan tokens mixture.place (mixture.place + mixture.next.tokens.length))).withHint
    "add parentheses to make the grouping explicit"

def mixture (place : Nat) (op : BinaryOp) (left : Formula) : List Mixture :=
  (left.connective.toList.filter fun first => op.rank == 5 && !left.mixes && first ≠ op).map
    fun first => ⟨place + left.lexemes.length, first, op⟩

/-- In each chain the first operator that differs from the first one of all, from the left to the right. The formula
begins at `place`. -/
def mixtures (place : Nat) : Formula → List Mixture
  | literal .. | identifier _ => []
  | parenthesized inner => inner.mixtures (place + 1)
  | unary _ operand => operand.mixtures (place + 1)
  | binary op left right =>
    left.mixtures place ++ (mixture place op left ++ right.mixtures (place + left.lexemes.length + op.tokens.length))
  | membership operand negated low high =>
    let target := place + operand.lexemes.length + (negated.toNat + 1)
    operand.mixtures place ++ (low.mixtures target ++ high.mixtures (target + low.lexemes.length + 1))

def lastPrimary : Formula → Formula
  | unary _ operand => operand.lastPrimary
  | binary _ _ right => right.lastPrimary
  | membership _ _ _ high => high.lastPrimary
  | formula => formula

def lastFactor : Formula → Formula
  | unary op operand => if op.rank = 1 then unary op operand else operand.lastFactor
  | binary op left right => if op.rank = 1 then binary op left right else right.lastFactor
  | membership _ _ _ high => high.lastFactor
  | formula => formula

def lastRelation : Formula → Formula
  | binary op left right => if op.rank = 5 then right else binary op left right
  | formula => formula

/-- Identifiers may be followed by selectors, arguments and attributes, operator symbols by arguments. -/
def takesSuffix : Formula → TokenKind → Bool
  | literal .string _, kind => kind = .leftParen
  | identifier _, kind => kind = .dot || kind = .leftParen || kind = .tick
  | _, _ => false

/-- As an operand of an operator whose rank is higher than `rank`, the formula cannot be continued by what follows. -/
structure Ends (formula : Formula) (rank : Nat) (rest : List Lexeme) : Prop where
  suffix : formula.lastPrimary.takesSuffix (Lexeme.kindAt rest 0) = false
  power : 1 ≤ rank → formula.lastFactor.rank = 0 → Lexeme.kindAt rest 0 ≠ .doubleStar
  multiplying : 2 ≤ rank → Grammar.multiplyingOperator? (Lexeme.kindAt rest 0) = none
  adding : 3 ≤ rank → Grammar.addingOperator? (Lexeme.kindAt rest 0) = none
  relational : 4 ≤ rank → formula.lastRelation.rank < 4 →
    Grammar.relationalOperator? (Lexeme.kindAt rest 0) = none ∧ Lexeme.kindAt rest 0 ≠ .kwIn ∧
      (Lexeme.kindAt rest 0 = .kwNot → Lexeme.kindAt rest 1 ≠ .kwIn)
  logical : 5 ≤ rank → Lexeme.kindAt rest 0 ∉ [.kwAnd, .kwOr, .kwXor]

end Formula

namespace Payload

variable {ρ σ : Type}

def isFormula : Payload ρ → Bool
  | .expr (.literal ..) | .expr (.parenthesized _) | .expr (.unary ..) | .expr (.binary ..) | .expr (.membership ..)
  | .name (.identifier ..) => true
  | _ => false

@[simp] theorem isFormula_map (f : ρ → σ) (payload : Payload ρ) : (payload.map f).isFormula = payload.isFormula := by
  cases payload with
  | expr part => cases part <;> rfl
  | name part => cases part <;> rfl
  | _ => rfl

end Payload

/-- The tree below the node is the formula. What its identifiers denote is left open. -/
def Tree.Represents (tree : Tree) : NodeId → Formula → Prop
  | id, .literal kind text => tree.payload id = .expr (.literal kind text)
  | id, .identifier name => ∃ symbol kind, tree.payload id = .name (.identifier name symbol kind)
  | id, .parenthesized inner => ∃ node, tree.payload id = .expr (.parenthesized node) ∧ tree.Represents node inner
  | id, .unary op operand => ∃ node, tree.payload id = .expr (.unary op node) ∧ tree.Represents node operand
  | id, .binary op left right => ∃ low high, tree.payload id = .expr (.binary op low high) ∧
      tree.Represents low left ∧ tree.Represents high right
  | id, .membership operand negated low high => ∃ tested target lower upper,
      tree.payload id = .expr (.membership tested negated target) ∧ tree.payload target = .type (.range lower upper) ∧
        tree.Represents tested operand ∧ tree.Represents lower low ∧ tree.Represents upper high

namespace Tree

section Represents

variable {tree : Tree} {id : NodeId} {formula left right low high : Formula}

@[simp] theorem represents_literal {kind : LiteralKind} {text : String} :
    tree.Represents id (.literal kind text) ↔ tree.payload id = .expr (.literal kind text) := Iff.rfl

@[simp] theorem represents_identifier {name : Name} : tree.Represents id (.identifier name) ↔
    ∃ symbol kind, tree.payload id = .name (.identifier name symbol kind) := Iff.rfl

@[simp] theorem represents_parenthesized : tree.Represents id (.parenthesized formula) ↔
    ∃ node, tree.payload id = .expr (.parenthesized node) ∧ tree.Represents node formula := Iff.rfl

@[simp] theorem represents_unary {op : UnaryOp} : tree.Represents id (.unary op formula) ↔
    ∃ node, tree.payload id = .expr (.unary op node) ∧ tree.Represents node formula := Iff.rfl

@[simp] theorem represents_binary {op : BinaryOp} : tree.Represents id (.binary op left right) ↔
    ∃ lower upper, tree.payload id = .expr (.binary op lower upper) ∧
      tree.Represents lower left ∧ tree.Represents upper right := Iff.rfl

@[simp] theorem represents_membership {negated : Bool} : tree.Represents id (.membership formula negated low high) ↔
    ∃ tested target lower upper, tree.payload id = .expr (.membership tested negated target) ∧
      tree.payload target = .type (.range lower upper) ∧ tree.Represents tested formula ∧
        tree.Represents lower low ∧ tree.Represents upper high := Iff.rfl

end Represents

variable {tree later : Tree} {id : NodeId} {formula : Formula}

theorem Represents.isFormula (h : tree.Represents id formula) : (tree.payload id).isFormula = true := by
  cases formula with
  | literal kind text =>
    have hpayload : tree.payload id = .expr (.literal kind text) := h
    rw [hpayload]
    rfl
  | identifier name =>
    obtain ⟨symbol, kind, hpayload⟩ := h
    rw [hpayload]
    rfl
  | parenthesized inner | unary op inner =>
    obtain ⟨node, hpayload, -⟩ := h
    rw [hpayload]
    rfl
  | binary op left right =>
    obtain ⟨low, high, hpayload, -⟩ := h
    rw [hpayload]
    rfl
  | membership operand negated low high =>
    obtain ⟨tested, target, lower, upper, hpayload, -⟩ := h
    rw [hpayload]
    rfl

theorem payload_kept {payload : Payload Range} (hgrown : tree.nodes.toList <+: later.nodes.toList)
    (hpayload : tree.payload id = payload) (hfilled : payload.isPlaceholder = false) : later.payload id = payload := by
  subst hpayload
  refine payload_of_isPrefix hgrown fun heq => ?_
  rw [heq] at hfilled
  cases hfilled

theorem Represents.mono (h : tree.Represents id formula) (hgrown : tree.nodes.toList <+: later.nodes.toList) :
    later.Represents id formula := by
  induction formula generalizing id with
  | literal kind text =>
    have hpayload : tree.payload id = .expr (.literal kind text) := h
    exact payload_kept hgrown hpayload rfl
  | identifier name =>
    obtain ⟨symbol, kind, hpayload⟩ := h
    exact ⟨symbol, kind, payload_kept hgrown hpayload rfl⟩
  | parenthesized inner ih | unary op inner ih =>
    obtain ⟨node, hpayload, hinner⟩ := h
    exact ⟨node, payload_kept hgrown hpayload rfl, ih hinner⟩
  | binary op left right ihleft ihright =>
    obtain ⟨low, high, hpayload, hleft, hright⟩ := h
    exact ⟨low, high, payload_kept hgrown hpayload rfl, ihleft hleft, ihright hright⟩
  | membership operand negated low high ihoperand ihlow ihhigh =>
    obtain ⟨tested, target, lower, upper, hpayload, htarget, hoperand, hlow, hhigh⟩ := h
    exact ⟨tested, target, lower, upper, payload_kept hgrown hpayload rfl,
      payload_kept hgrown htarget rfl, ihoperand hoperand, ihlow hlow, ihhigh hhigh⟩

end Tree

end AdaSyntax
