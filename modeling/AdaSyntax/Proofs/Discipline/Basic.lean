import AdaSyntax.Grammar.Production
import AdaSyntax.Proofs.Tree.Piece

/-!
The discipline that programs keep to. A program may rely on what its steps and calls tell it, and has to
see to what they ask for: ids are used only once they are known, a reserved node is filled once and the last
one first, a compound construct is made only of nodes that were read one level deeper, and before a token is
consumed only productions of a lower rank are called. All of this is read off the program, by recursion on
it; what a program that keeps to it does when it runs is shown once for all programs.
-/

namespace AdaSyntax

structure Knowledge where
  made : NodeId → Prop
  /-- Complete nodes, in whose subtrees compounds nest no deeper than this program and its calls may go. -/
  whole : NodeId → Prop
  /-- Complete nodes that may become part of one more compound. -/
  shallow : NodeId → Prop
  symbol : SymbolId → Prop
  whole_of_shallow : ∀ {id}, shallow id → whole id
  made_of_whole : ∀ {id}, whole id → made id

structure Knowledge.Below (inner outer : Knowledge) : Prop where
  made : ∀ {id}, inner.made id → outer.made id
  shallow : ∀ {id}, inner.whole id → outer.shallow id
  symbol : ∀ {id}, inner.symbol id → outer.symbol id

theorem Knowledge.made_of_shallow (know : Knowledge) {id : NodeId} (h : know.shallow id) : know.made id :=
  know.made_of_whole (know.whole_of_shallow h)

structure Stage where
  /-- Productions of a lower rank may be called. -/
  limit : Fin (Grammar.productionCount + 1)
  /-- Whether a token was consumed. -/
  moved : Bool
  /-- The nodes that are reserved, the last one first. -/
  holes : List NodeId

namespace Stage

def advance (stage : Stage) : Stage := { stage with limit := Fin.last _, moved := true }

def after (stage : Stage) (consumes : Bool) : Stage := if consumes then stage.advance else stage

def reserving (stage : Stage) (node : NodeId) : Stage := { stage with holes := node :: stage.holes }

def filling (stage : Stage) : Stage := { stage with holes := stage.holes.tail }

def permits (stage : Stage) : Nat → Bool
  | 0 => true
  | rank + 1 => (rank + 1).ble stage.limit

structure Reaches (later earlier : Stage) : Prop where
  limit : earlier.limit ≤ later.limit
  moved : earlier.moved = true → later.moved = true
  holes : later.holes = earlier.holes

end Stage

namespace Production

def rank {α : Type} : Production α → Nat
  | .rule .expression | .rule .discreteRange | .rule .range => 2
  | .rule .statement | .rule .compilationUnit | .simpleExpression | .componentList => 1
  | _ => 0

def consumes {α : Type} : Production α → Bool
  | .componentList => false
  | _ => true

def Grants (know : Knowledge) : ∀ {α : Type}, Production α → α → Prop
  | _, .rule .name, node | _, .rule .expression, node | _, .rule .statement, node
  | _, .rule .discreteRange, node => know.shallow node
  | _, .rule _, node | _, .simpleExpression, node => know.whole node
  | _, .componentList, (components, tail) =>
    (∀ node ∈ components, know.shallow node) ∧ ∀ node ∈ tail, know.shallow node

end Production

structure Payload.Admissible (know : Knowledge) (payload : Payload Nat) : Prop where
  filled : payload.isPlaceholder = false
  children : ∀ id ∈ payload.children, know.whole id
  symbol : ∀ id, payload.classify.1 = some id → know.symbol id
  compound : payload.isCompound = true → ∀ id ∈ payload.children, know.shallow id

structure Payload.Makes (know : Knowledge) (payload : Payload Nat) (id : NodeId) : Prop where
  whole : know.whole id
  shallow : payload.isCompound = false → (∀ child ∈ payload.children, know.shallow child) → know.shallow id

def Finding.nodes : Finding → List NodeId
  | .undeclaredTypeMark node | .notAType node _ | .notAPackage node _ | .exitOutsideLoop node
  | .exitNotEnclosing node => [node]
  | _ => []

namespace Op

def Asks (know : Knowledge) (stage : Stage) : ∀ {α : Type}, Op α → Prop
  | _, .add _ payload => payload.Admissible know
  | _, .fill id _ payload => stage.holes.head? = some id ∧ payload.Admissible know
  | _, .inspect id => know.made id
  | _, .resolveMember owner _ => know.symbol owner
  | _, .kindOf id | _, .shapeOf id | _, .declaredHere id | _, .bind id => know.symbol id
  | _, .enclosingLoop label => ∀ id ∈ label, know.symbol id
  | _, .declare _ _ node _ => know.made node
  | _, .openRegion _ owner => ∀ id ∈ owner, know.symbol id
  | _, .addImport package _ => know.symbol package
  | _, .publish owner members => know.symbol owner ∧ ∀ id ∈ members.all, know.symbol id
  | _, .publishAlias synonym target => know.symbol synonym ∧ know.symbol target
  | _, .find finding => ∀ id ∈ finding.nodes, know.made id
  | _, _ => True

def Tells (know : Knowledge) : ∀ {α : Type}, Op α → α → Prop
  | _, .add _ payload, id => payload.Makes know id
  | _, .fill id _ payload, _ => payload.Makes know id
  | _, .reserve _, id => know.made id
  | _, .inspect _, payload =>
    (∀ id ∈ payload.children, know.made id) ∧ ∀ id, payload.classify.1 = some id → know.symbol id
  | _, .resolve _, resolution | _, .resolveMember _ _, resolution => ∀ id ∈ resolution.symbol, know.symbol id
  | _, .libraryUnit _, found => ∀ id ∈ found, know.symbol id
  | _, .declare .., id => know.symbol id
  | _, .closeRegion, members => ∀ id ∈ members.all, know.symbol id
  | _, _, _ => True

def consumes {α : Type} : Op α → Bool
  | .take | .expect _ | .expectChoice _ => true
  | _ => false

def next (stage : Stage) : ∀ {α : Type}, Op α → α → Stage
  | _, .reserve _, id => stage.reserving id
  | _, .fill .., _ => stage.filling
  | _, op, _ => stage.after op.consumes

end Op

namespace Program

def Assures : ∀ {α : Type}, Program α → Knowledge → Stage → (Stage → α → Prop) → Prop
  | _, .pure value, _, stage, done => done stage value
  | _, .bind first next, know, stage, done =>
    Assures first know stage fun stage value => Assures (next value) know stage done
  | _, .step op, know, stage, done =>
    op.Asks know stage ∧ ∀ value, op.Tells know value → done (op.next stage value) value
  | _, .reject _, _, _, _ => True
  | _, .fail, _, _, _ => True
  | _, .call production, know, stage, done =>
    production.rank < stage.limit ∧
      ∀ value, production.Grants know value → done (stage.after production.consumes) value
  | _, .attempt body, know, stage, done =>
    (∀ inner : Knowledge, inner.Below know → Assures body inner { stage with holes := [] } fun later value =>
      later.holes = [] ∧ done { later with holes := stage.holes } (some value)) ∧ done stage none
  | _, .nested body, know, stage, done =>
    ∀ inner : Knowledge, inner.Below know → Assures body inner { stage with holes := [] } fun later value =>
      later.holes = [] ∧ done { later with holes := stage.holes } value
  | _, .loop body state, know, stage, done =>
    -- a round that goes on has consumed a token
    ∃ keeps : _ → Prop, keeps state ∧ ∀ state, keeps state →
      Assures (body state) know { stage with moved := false } fun later result =>
        later.holes = stage.holes ∧
          match result with
          | .inl state => later.moved = true ∧ keeps state
          | .inr value => done { later with moved := stage.moved || later.moved } value
  | _, .items _ _ item, know, stage, done =>
    (∀ inner : Knowledge, inner.Below know →
      Assures item inner { stage with moved := false, holes := [] } fun later node =>
        later.holes = [] ∧ later.moved = true ∧ inner.whole node) ∧
      ∀ nodes, (∀ node ∈ nodes, know.shallow node) → done stage nodes

end Program

end AdaSyntax
