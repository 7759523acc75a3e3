import AdaSyntax.Compilation
import AdaSyntax.Proofs.Parser.Reachable
import AdaSyntax.Proofs.Tree.Nesting
import AdaSyntax.Proofs.Tree.Soundness

/-!
The tree of a compilation. Its nodes are exactly those of one tree, and if it was read from a text, the
check has nothing to say against it.
-/

namespace AdaSyntax

namespace Tree

/-- The nodes of the tree are those below `root`, each once; all are filled, and `root` came last. -/
structure Whole (tree : Tree) (root : NodeId) : Prop where
  last : root.index + 1 = tree.size
  listed : (tree.preorder root).toList.Perm (nodesBetween 0 tree.size)
  filled : ∀ id, id.index < tree.size → (tree.payload id).isPlaceholder = false

structure Rooted (tokens : Array Token) (tree : Tree) (root : NodeId) (low high : Nat) (node : Node)
    (nodes : List NodeId) : Prop where
  present : tree.get? root = some node
  filled : node.payload.isPlaceholder = false
  range : node.range = .upTo 0 (tokenStop tokens high)
  units : Row tokens tree low high node.payload.children nodes
  bound : high ≤ tokens.size
  listed : (root :: nodes).Perm (nodesBetween 0 tree.size)
  last : root.index + 1 = tree.size

namespace Rooted

variable {tokens : Array Token} {tree : Tree} {root : NodeId} {low high : Nat} {node : Node}
variable {nodes : List NodeId}

theorem forest (h : Rooted tokens tree root low high node nodes) : tree.Forest [root] (root :: nodes) := by
  have hforest := Forest.cons h.present h.filled h.units.forest .nil
  rwa [List.append_nil] at hforest

theorem mem_of_lt (h : Rooted tokens tree root low high node nodes) {id : NodeId}
    (hid : id.index < tree.size) : id = root ∨ id ∈ nodes :=
  List.mem_cons.mp (h.listed.mem_iff.mpr (mem_nodesBetween.mpr ⟨Nat.zero_le _, hid⟩))

theorem length_eq (h : Rooted tokens tree root low high node nodes) : (root :: nodes).length = tree.size := by
  rw [h.listed.length_eq, nodesBetween, List.length_map, List.length_range', Nat.sub_zero]

theorem preorder_eq (h : Rooted tokens tree root low high node nodes) :
    (tree.preorder root).toList = root :: nodes :=
  h.forest.preorder_eq (Nat.le_of_eq h.length_eq)

theorem nodup (h : Rooted tokens tree root low high node nodes) : (root :: nodes).Nodup :=
  h.listed.nodup_iff.mpr (nodup_nodesBetween _ _)

theorem whole (h : Rooted tokens tree root low high node nodes) : tree.Whole root where
  last := h.last
  listed := h.preorder_eq ▸ h.listed
  filled id hid := h.forest.exists_filled id (List.mem_cons.mpr (h.mem_of_lt hid))

theorem nested (h : Rooted tokens tree root low high node nodes) (hordered : Token.Ordered tokens.toList)
    (id : NodeId) : tree.Nested id := by
  rcases Nat.lt_or_ge id.index tree.size with hlt | hge
  · rcases h.mem_of_lt hlt with rfl | hid
    · refine h.units.nested hordered h.bound h.present ?_ ?_ <;> rw [h.range]
      · exact Nat.zero_le _
      · exact Nat.le_max_right _ _
    · exact h.units.all_nested hordered h.bound id hid
  · exact nested_of_le hge

theorem check_eq (h : Rooted tokens tree root low high node nodes) (hordered : Token.Ordered tokens.toList) :
    tree.check root = #[] :=
  check_eq_empty_iff.mpr (h.forest.sound h.nodup (h.nested hordered))

end Rooted

end Tree

namespace Parser

variable {cursor : Cursor} {options : Options} {parser : Parser} {lexical : List Diagnostic}

theorem complete_rooted (lexical : List Diagnostic) {units nodes : List NodeId}
    (h : Built (.new cursor options) parser (Yield.declarations units).filing nodes) :
    ∃ node, Tree.Rooted cursor.tokens (parser.complete lexical units).tree
      (parser.complete lexical units).root cursor.position parser.position node nodes := by
  have hrow := h.row
  simp only [Yield.declarations, Yield.filing, Yield.many, Piece.map_node_many] at hrow
  have htokens : parser.cursor.tokens = cursor.tokens := h.reverts.tokens
  have hlt : parser.position < parser.cursor.tokens.size := parser.cursor.position_lt
  have hrange : parser.rangeFrom 0 = .upTo 0 (tokenStop cursor.tokens parser.position) := by
    rw [rangeFrom, previousEnd_eq, htokens]
  let later := (parser.complete lexical units).tree
  have hprefix : parser.tree.nodes.toList <+: later.nodes.toList := by
    simp [later, complete, addNode, Tree.add]
  have hsize : later.size = parser.tree.size + 1 := by
    simp [later, complete, addNode, Tree.add, Tree.size]
  refine ⟨_, {
    present := parser.tree.get?_add_self _ _
    filled := rfl
    range := hrange
    units := ?_
    bound := htokens ▸ Nat.le_of_lt hlt
    listed := ?_
    last := hsize.symm }⟩
  · rw [← htokens]
    exact hrow.transfer fun id hid =>
      Tree.get?_of_isPrefix hprefix (mem_nodesBetween.mp (h.listed.mem_iff.mp hid)).2
  · change (_ :: nodes).Perm (nodesBetween 0 later.size)
    rw [hsize, ← nodesBetween_append (Nat.zero_le _) (Nat.le_succ _), nodesBetween_succ]
    exact (h.listed.cons _).trans (List.perm_append_singleton _ _).symm

theorem compilationUnits_outcome (h : parser.symbols.Proper) :
    Outcome (·.RevertsTo parser)
      (fun value later => Made parser later false (Yield.declarations value.1).filing)
      (Grammar.compilationUnits.execute parser) :=
  (Grammar.compilationUnits_builds parser h).outcome

theorem compile_course {compilation : Compilation}
    (h : (Parser.new cursor options).compile lexical = .ok compilation) :
    ∃ units later nodes, Course (.new cursor options) later (Yield.declarations units).filing nodes ∧
      compilation = later.complete lexical units := by
  have houtcome := compilationUnits_outcome (Parser.Reachable.new cursor options).proper
  unfold compile at h
  split at h
  · rename_i units later hexecute
    rw [hexecute] at houtcome
    obtain ⟨nodes, hcourse⟩ := houtcome.course
    exact ⟨units, later, nodes, hcourse, (Except.ok.inj h).symm⟩
  all_goals cases h

theorem compile_rooted {compilation : Compilation}
    (h : (Parser.new cursor options).compile lexical = .ok compilation) :
    ∃ high node nodes, Tree.Rooted cursor.tokens compilation.tree compilation.root cursor.position high
      node nodes := by
  obtain ⟨units, later, nodes, hcourse, rfl⟩ := compile_course h
  obtain ⟨node, hrooted⟩ := complete_rooted _ (hcourse.built (Parser.Reachable.new _ _).proper)
  exact ⟨later.position, node, nodes, hrooted⟩

end Parser

namespace Compilation

theorem exists_of_isOk {result : Except Rejection Compilation} (h : result.isOk = true) :
    ∃ compilation, result = .ok compilation := by
  cases result with
  | ok compilation => exact ⟨compilation, rfl⟩
  | error => cases h

theorem exists_of_map {α : Type} {result : Except Rejection Compilation} {view : Compilation → α} {value : α}
    (h : result.toOption.map view = some value) : ∃ compilation, result = .ok compilation ∧ view compilation = value := by
  cases result with
  | ok compilation => exact ⟨compilation, rfl, Option.some.inj h⟩
  | error => cases h

/-- A compilation is exactly one tree, whatever its tokens are; and with the tokens of a text, its nodes
are in order. -/
theorem tree_sound (options : Options) :
    (∀ source compilation, ofSource source options = .ok compilation →
      compilation.tree.Whole compilation.root ∧ (∀ id, compilation.tree.Nested id) ∧
        compilation.tree.check compilation.root = #[]) ∧
    ∀ tokens lexical compilation, ofTokens tokens lexical options = .ok compilation →
      compilation.tree.Whole compilation.root := by
  constructor
  · intro source compilation h
    obtain ⟨high, node, nodes, hrooted⟩ := Parser.compile_rooted h
    have hordered := Token.wellFormed_ordered source
    exact ⟨hrooted.whole, hrooted.nested hordered, hrooted.check_eq hordered⟩
  · intro tokens lexical compilation h
    unfold ofTokens at h
    split at h
    · obtain ⟨high, node, nodes, hrooted⟩ := Parser.compile_rooted h
      exact hrooted.whole
    · cases h

def scatteredTokens : List Token :=
  [.ofText .kwPackage "package" 20, .ofText .identifier "P" 8, .ofText .kwIs "is" 30, .ofText .kwEnd "end" 4,
    .ofText .semicolon ";" 0, .endOfFile 2]

theorem tree_sound_package :
    (∃ compilation, ofSource "package P is end;" { predefined := false } = .ok compilation ∧
      compilation.tree.Whole compilation.root ∧ (∀ id, compilation.tree.Nested id) ∧
        compilation.tree.check compilation.root = #[]) ∧
    ∃ compilation, ofTokens scatteredTokens [] { predefined := false } = .ok compilation ∧
      compilation.tree.Whole compilation.root := by
  constructor
  · obtain ⟨compilation, h⟩ := exists_of_isOk
      (show (ofSource "package P is end;" { predefined := false }).isOk = true by decide +kernel)
    exact ⟨compilation, h, (tree_sound _).1 _ _ h⟩
  · obtain ⟨compilation, h⟩ := exists_of_isOk
      (show (ofTokens scatteredTokens [] { predefined := false }).isOk = true by decide +kernel)
    exact ⟨compilation, h, (tree_sound _).2 _ _ _ h⟩

end Compilation

end AdaSyntax
