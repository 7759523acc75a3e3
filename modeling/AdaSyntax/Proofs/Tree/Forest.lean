import AdaSyntax.Tree.Walk

namespace AdaSyntax

namespace Tree

inductive Forest (tree : Tree) : List NodeId → List NodeId → Prop where
  | nil : Forest tree [] []
  | cons {id : NodeId} {node : Node} {rest below beyond : List NodeId}
      (hnode : tree.get? id = some node) (hfilled : node.payload.isPlaceholder = false)
      (hbelow : Forest tree node.payload.children below) (hbeyond : Forest tree rest beyond) :
      Forest tree (id :: rest) (id :: (below ++ beyond))

/-- The children of a node lie inside of it, each behind those before it. -/
structure Nested (tree : Tree) (id : NodeId) : Prop where
  inside : ∀ child ∈ tree.children id, (tree.range id).contains (tree.range child) = true
  ordered : (tree.children id).Pairwise fun child next => (tree.range child).stop ≤ (tree.range next).start

variable {tree : Tree} {roots nodes : List NodeId}

theorem range_of_get? {id : NodeId} {node : Node} (h : tree.get? id = some node) :
    tree.range id = node.range := by
  rw [range, h]

theorem children_of_get? {id : NodeId} {node : Node} (h : tree.get? id = some node) :
    tree.children id = node.payload.children := by
  rw [children, payload, h]

theorem Forest.exists_filled {roots : List NodeId} (h : tree.Forest roots nodes) :
    ∀ id ∈ nodes, (tree.payload id).isPlaceholder = false := by
  induction h with
  | nil => simp
  | cons hnode hfilled _ _ ihbelow ihbeyond =>
    intro other hother
    rcases List.mem_cons.mp hother with rfl | hother
    · rwa [payload, hnode]
    · rcases List.mem_append.mp hother with hother | hother
      · exact ihbelow other hother
      · exact ihbeyond other hother

theorem Forest.perm_children (h : tree.Forest roots nodes) : nodes.Perm (roots ++ nodes.flatMap tree.children) := by
  induction h with
  | nil => exact .refl _
  | @cons id node rest below beyond hnode _ _ _ ihbelow ihbeyond =>
    rw [List.flatMap_cons, List.flatMap_append, children_of_get? hnode]
    rw [List.perm_iff_count] at ihbelow ihbeyond ⊢
    intro other
    have hbelow := ihbelow other
    have hbeyond := ihbeyond other
    simp only [List.count_append, List.count_cons, List.cons_append] at *
    omega

theorem nested_of_le {id : NodeId} (h : tree.size ≤ id.index) : tree.Nested id := by
  have hnone : tree.get? id = none := Array.getElem?_eq_none h
  have hchildren : tree.children id = [] := by
    rw [children, payload, hnone]
    rfl
  constructor <;> simp [hchildren]

section

variable {σ : Type} {visitor : Visitor σ} {state entered : σ} {id : NodeId} {node : Node} {depth : Nat}
variable {rest : List Walk.Call}

theorem walkStack_missing (hdepth : depth ≤ tree.size) (hnode : tree.get? id = none) :
    tree.walkStack visitor state (.enter id depth :: rest) =
      tree.walkStack visitor (visitor.leave state id depth) rest := by
  rw [walkStack, dif_neg (by omega)]
  split
  · rw [walkStack]
  · rename_i hfound
    cases hnode.symm.trans hfound

theorem walkStack_skipped (hdepth : depth ≤ tree.size) (hnode : tree.get? id = some node)
    (henter : visitor.enter state id node depth = (false, entered)) :
    tree.walkStack visitor state (.enter id depth :: rest) =
      tree.walkStack visitor (visitor.leave entered id depth) rest := by
  rw [walkStack, dif_neg (by omega)]
  split
  · rename_i hmissing
    cases hnode.symm.trans hmissing
  · rename_i hfound
    obtain rfl := Option.some.inj (hnode.symm.trans hfound)
    simp only [henter]
    rw [walkStack]

theorem walkStack_entered (hdepth : depth ≤ tree.size) (hnode : tree.get? id = some node)
    (henter : visitor.enter state id node depth = (true, entered)) :
    tree.walkStack visitor state (.enter id depth :: rest) =
      tree.walkStack visitor entered
        (node.payload.children.map (.enter · (depth + 1)) ++ .leave id depth :: rest) := by
  rw [walkStack, dif_neg (by omega)]
  split
  · rename_i hmissing
    cases hnode.symm.trans hmissing
  · rename_i hfound
    obtain rfl := Option.some.inj (hnode.symm.trans hfound)
    simp only [henter]

end

def lister : Visitor (Array NodeId) := ⟨fun ids id _ _ => (true, ids.push id), fun ids _ _ => ids⟩

theorem Forest.walkStack_eq (h : Forest tree roots nodes) (ids : Array NodeId) (depth : Nat)
    (rest : List Walk.Call) (hdepth : depth + nodes.length ≤ tree.size) :
    tree.walkStack lister ids (roots.map (.enter · depth) ++ rest) =
      tree.walkStack lister (ids ++ nodes.toArray) rest := by
  induction h generalizing ids depth rest with
  | nil => simp
  | @cons id node others below beyond hnode _ _ _ ihbelow ihbeyond =>
    simp only [List.length_cons, List.length_append] at hdepth
    rw [List.map_cons, List.cons_append, walkStack_entered (by omega) hnode rfl,
      ihbelow _ _ _ (by omega), walkStack]
    change tree.walkStack lister (ids.push id ++ below.toArray) _ = _
    rw [ihbeyond _ _ _ (by omega)]
    simp only [Array.push_eq_append, Array.append_assoc, List.append_toArray, List.cons_append,
      List.nil_append]

theorem Forest.preorder_eq {root : NodeId} (h : Forest tree [root] nodes)
    (hlength : nodes.length ≤ tree.size) : (tree.preorder root).toList = nodes := by
  have hwalk := h.walkStack_eq #[] 0 [] (by omega)
  change (tree.walkStack lister #[] _).toList = _
  rw [show ([.enter root 0] : List Walk.Call) = [root].map (.enter · 0) ++ [] from rfl, hwalk,
    walkStack]
  simp

end Tree

end AdaSyntax
