import AdaSyntax.Proofs.Discipline.Basic
import AdaSyntax.Proofs.Parser.Reachable
import AdaSyntax.Proofs.Scope.Closed

namespace AdaSyntax

variable {ρ σ α : Type}

/-- Children and symbol of a node come from arenas with so many nodes and entities. -/
structure Payload.Closed (payload : Payload ρ) (nodes symbols : Nat) : Prop where
  children : ∀ id ∈ payload.children, id.index < nodes
  symbol : ∀ id ∈ payload.classify.1, id.index < symbols

theorem Payload.Closed.map {payload : Payload ρ} {nodes symbols : Nat} (h : payload.Closed nodes symbols)
    (f : ρ → σ) : (payload.map f).Closed nodes symbols where
  children := by rw [children_map]; exact h.children
  symbol := by rw [classify_map]; exact h.symbol

theorem Payload.Closed.mono {payload : Payload ρ} {nodes nodes' symbols symbols' : Nat}
    (h : payload.Closed nodes symbols) (hnodes : nodes ≤ nodes') (hsymbols : symbols ≤ symbols') :
    payload.Closed nodes' symbols' :=
  ⟨fun id hid => Nat.lt_of_lt_of_le (h.children id hid) hnodes,
    fun id hid => Nat.lt_of_lt_of_le (h.symbol id hid) hsymbols⟩

namespace Op

def nodes : Op α → List NodeId
  | .add _ payload => payload.children
  | .fill id _ payload => id :: payload.children
  | .inspect id => [id]
  | .declare _ _ node _ => [node]
  | .find finding => finding.nodes
  | _ => []

def symbols : Op α → List SymbolId
  | .add _ payload | .fill _ _ payload => payload.classify.1.toList
  | .resolveMember owner _ => [owner]
  | .kindOf id | .shapeOf id | .declaredHere id | .bind id => [id]
  | .enclosingLoop label => label.toList
  | .openRegion _ owner => owner.toList
  | .addImport package _ => [package]
  | .publish owner members => owner :: members.all
  | .publishAlias synonym target => [synonym, target]
  | _ => []

def hole? : Op α → Option NodeId
  | .fill id _ _ => some id
  | _ => none

end Op

namespace Parser

/-- All ids in the tree and in the table belong to nodes and entities that are there. -/
structure Closed (parser : Parser) : Prop where
  symbols : parser.symbols.Closed
  declared : ∀ symbol ∈ parser.symbols.symbols, ∀ id ∈ symbol.node, id.index < parser.tree.size
  nodes : ∀ id node, parser.tree.get? id = some node →
    node.payload.Closed parser.tree.size parser.symbols.symbols.size

/-- The step refers to nothing that is not there, and fills only what is reserved. -/
structure Affords (parser : Parser) (op : Op α) : Prop where
  nodes : ∀ id ∈ op.nodes, id.index < parser.tree.size
  symbols : ∀ id ∈ op.symbols, parser.symbols.Has id
  hole : ∀ id ∈ op.hole?, ∃ node, parser.tree.get? id = some node ∧ node.payload.isPlaceholder = true

namespace Closed

variable {parser later : Parser}

theorem of_same (h : parser.Closed) (hsymbols : later.symbols = parser.symbols) (htree : later.tree = parser.tree) :
    later.Closed where
  symbols := hsymbols ▸ h.symbols
  declared := by rw [hsymbols, htree]; exact h.declared
  nodes := by rw [hsymbols, htree]; exact h.nodes

theorem change (h : parser.Closed) {change : TableChange} (hdeclares : change.declares = false)
    (hsymbols : ∀ id ∈ change.symbols, parser.symbols.Has id) :
    ({ parser with symbols := parser.symbols.change change } : Parser).Closed where
  symbols := h.symbols.change hsymbols
  declared := by
    dsimp only
    rw [SymbolTable.change_symbols _ hdeclares]
    exact h.declared
  nodes := by
    dsimp only
    rw [SymbolTable.change_symbols _ hdeclares]
    exact h.nodes

theorem declare (h : parser.Closed) {declaration : Declaration}
    (hnode : ∀ id ∈ declaration.node, id.index < parser.tree.size) :
    ({ parser with symbols := parser.symbols.change (.declare declaration) } : Parser).Closed := by
  have hsymbols : (parser.symbols.change (.declare declaration)).symbols = _ :=
    parser.symbols.declare_symbols declaration
  refine ⟨h.symbols.declare declaration, ?_, fun id node hget => (h.nodes id node hget).mono (Nat.le_refl _) ?_⟩
  · dsimp only
    rw [hsymbols]
    intro symbol hsymbol
    rcases Array.mem_push.mp hsymbol with hsymbol | rfl
    · exact h.declared symbol hsymbol
    · exact hnode
  · dsimp only
    rw [hsymbols, Array.size_push]
    exact Nat.le_succ _

theorem add (h : parser.Closed) {range : Range} {payload : Payload Range}
    (hpayload : payload.Closed parser.tree.size parser.symbols.symbols.size) :
    ({ parser with tree := (parser.tree.add range payload).2 } : Parser).Closed where
  symbols := h.symbols
  declared symbol hsymbol id hid :=
    Nat.lt_of_lt_of_le (h.declared symbol hsymbol id hid) (parser.tree.size_le_add range payload)
  nodes id node hget := by
    have hle := parser.tree.size_le_add range payload
    obtain ⟨-, hnode⟩ | hget := Tree.get?_add_cases hget
    · rw [hnode]
      exact hpayload.mono hle (Nat.le_refl _)
    · exact (h.nodes id node hget).mono hle (Nat.le_refl _)

theorem replace (h : parser.Closed) {id : NodeId} {node : Node}
    (hnode : node.payload.Closed parser.tree.size parser.symbols.symbols.size) (hid : id.index < parser.tree.size) :
    ({ parser with tree := parser.tree.replace id node } : Parser).Closed where
  symbols := h.symbols
  declared symbol hsymbol other hother := by
    rw [Tree.size_replace]
    exact h.declared symbol hsymbol other hother
  nodes other found hget := by
    dsimp only at hget ⊢
    rw [Tree.size_replace]
    by_cases hother : other = id
    · rw [hother, Tree.get?_replace_self node hid] at hget
      rw [← Option.some.inj hget]
      exact hnode
    · rw [Tree.get?_replace_of_ne node hother] at hget
      exact h.nodes other found hget

theorem new (cursor : Cursor) (options : Options) : (Parser.new cursor options).Closed where
  symbols := by
    simp only [Parser.new]
    split
    · exact .predefined
    · exact .empty
  declared := by
    have hpredefined : ∀ symbol ∈ SymbolTable.predefined.symbols, symbol.node = none := by decide +kernel
    intro symbol hsymbol id hid
    simp only [Parser.new] at hsymbol
    split at hsymbol
    · rw [hpredefined symbol hsymbol] at hid
      cases hid
    · simp [SymbolTable.empty] at hsymbol
  nodes id node hget := by simp [Parser.new, Tree.empty, Tree.get?] at hget

end Closed

end Parser

end AdaSyntax
