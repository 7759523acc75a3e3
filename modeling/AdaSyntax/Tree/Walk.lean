import AdaSyntax.Tree.Basic

/-!
Traversal from a root, parents before children and children in the order of the source. The nodes that
are still open lie on a stack of their own. A path without repetition is shorter than the tree is
large, so a node deeper than that lies below itself, and the traversal does not go there.
-/

namespace AdaSyntax

/-- `enter` sees a node before its children and decides whether they are visited; `leave` comes behind
them, also for a child that does not exist. -/
structure Visitor (σ : Type) where
  enter : σ → NodeId → Node → Nat → Bool × σ
  leave : σ → NodeId → Nat → σ

namespace Walk

inductive Call where
  | enter (id : NodeId) (depth : Nat)
  | leave (id : NodeId) (depth : Nat)

def arity (tree : Tree) : Nat :=
  (tree.nodes.toList.map (·.payload.children.length)).max?.getD 0

def budget (tree : Tree) : Nat → Nat
  | 0 => 1
  | height + 1 => (arity tree + 2) * budget tree height

def weight (tree : Tree) : Call → Nat
  | .enter _ depth => budget tree (tree.size + 1 - depth)
  | .leave _ _ => 1

def stackWeight (tree : Tree) : List Call → Nat
  | [] => 0
  | call :: rest => weight tree call + stackWeight tree rest

theorem stackWeight_enter (tree : Tree) (children : List NodeId) (depth : Nat) (rest : List Call) :
    stackWeight tree (children.map (.enter · depth) ++ rest) =
      children.length * budget tree (tree.size + 1 - depth) + stackWeight tree rest := by
  induction children with
  | nil => simp
  | cons child children ih =>
    simp only [List.map_cons, List.cons_append, stackWeight, ih, weight, List.length_cons,
      Nat.succ_mul]
    omega

theorem budget_pos (tree : Tree) (height : Nat) : 0 < budget tree height := by
  induction height with
  | zero => simp [budget]
  | succ height ih => exact Nat.mul_pos (by omega) ih

theorem length_children_le (tree : Tree) (id : NodeId) (node : Node) (h : tree.get? id = some node) :
    node.payload.children.length ≤ arity tree := by
  have hmem : node.payload.children.length ∈
      tree.nodes.toList.map (·.payload.children.length) := by
    refine List.mem_map.2 ⟨node, ?_, rfl⟩
    have := Array.mem_of_getElem? h
    exact Array.mem_toList_iff.2 this
  unfold arity
  cases hmax : (tree.nodes.toList.map (·.payload.children.length)).max? with
  | none => simp_all [List.max?_eq_none_iff]
  | some m => exact (List.max?_eq_some_iff.1 hmax).2 _ hmem

theorem children_lt_budget (tree : Tree) (id : NodeId) (node : Node) (height : Nat)
    (hnode : tree.get? id = some node) :
    node.payload.children.length * budget tree height + 1 < budget tree (height + 1) := by
  have hlen := length_children_le tree id node hnode
  have hpos := budget_pos tree height
  calc node.payload.children.length * budget tree height + 1
      ≤ arity tree * budget tree height + 1 :=
        Nat.add_le_add_right (Nat.mul_le_mul_right _ hlen) 1
    _ < (arity tree + 2) * budget tree height := by rw [Nat.add_mul]; omega

theorem children_lt_weight (tree : Tree) (id : NodeId) (node : Node) (depth : Nat)
    (hnode : tree.get? id = some node) (h : depth ≤ tree.size) :
    node.payload.children.length * budget tree (tree.size + 1 - (depth + 1)) + 1 <
      budget tree (tree.size + 1 - depth) := by
  have hroom : tree.size + 1 - depth = (tree.size + 1 - (depth + 1)) + 1 := by omega
  rw [hroom]
  exact children_lt_budget tree id node _ hnode

theorem one_lt_weight (tree : Tree) (depth : Nat) (h : depth ≤ tree.size) :
    1 < budget tree (tree.size + 1 - depth) := by
  have hroom : tree.size + 1 - depth = (tree.size - depth) + 1 := by omega
  have hpos := budget_pos tree (tree.size - depth)
  rw [hroom, budget]
  calc 1 < 2 * budget tree (tree.size - depth) := by omega
    _ ≤ _ := Nat.mul_le_mul_right _ (by omega)

end Walk

namespace Tree

open Walk

variable {σ : Type}

def walkStack (tree : Tree) (visitor : Visitor σ) (state : σ) : List Call → σ
  | [] => state
  | .leave id depth :: rest => tree.walkStack visitor (visitor.leave state id depth) rest
  | .enter id depth :: rest =>
    if _ : tree.size < depth then tree.walkStack visitor state rest
    else
      match _ : tree.get? id with
      | none => tree.walkStack visitor state (.leave id depth :: rest)
      | some node =>
        match visitor.enter state id node depth with
        | (false, state) => tree.walkStack visitor state (.leave id depth :: rest)
        | (true, state) =>
          tree.walkStack visitor state
            (node.payload.children.map (.enter · (depth + 1)) ++ .leave id depth :: rest)
termination_by stack => stackWeight tree stack
decreasing_by
  all_goals simp only [stackWeight_enter, stackWeight, weight]
  · omega
  · have := budget_pos tree (tree.size + 1 - depth)
    omega
  · have := one_lt_weight tree depth (by omega)
    omega
  · have := one_lt_weight tree depth (by omega)
    omega
  · have := children_lt_weight tree id node depth (by assumption) (by omega)
    omega

def walk (tree : Tree) (visitor : Visitor σ) (root : NodeId) (state : σ) : σ :=
  tree.walkStack visitor state [.enter root 0]

def preorder (tree : Tree) (root : NodeId) : Array NodeId :=
  tree.walk ⟨fun ids id _ _ => (true, ids.push id), fun ids _ _ => ids⟩ root #[]

end Tree

end AdaSyntax
