import AdaSyntax.Tree.Basic

namespace AdaSyntax

namespace Tree

theorem get?_of_isPrefix {earlier later : Tree} (h : earlier.nodes.toList <+: later.nodes.toList)
    {id : NodeId} (hid : id.index < earlier.size) : later.get? id = earlier.get? id := by
  obtain ⟨added, hadded⟩ := h
  simp only [get?, ← Array.getElem?_toList, ← hadded]
  exact List.getElem?_append_left (by simpa [size] using hid)

theorem size_le_of_isPrefix {earlier later : Tree}
    (h : earlier.nodes.toList <+: later.nodes.toList) : earlier.size ≤ later.size := by
  simpa [size] using h.length_le

theorem size_le_add (tree : Tree) (range : Range) (payload : Payload Range) :
    tree.size ≤ (tree.add range payload).2.size := by
  simp [add, size]

theorem get?_add_self (tree : Tree) (range : Range) (payload : Payload Range) :
    (tree.add range payload).2.get? ⟨tree.size⟩ = some ⟨range, payload⟩ := by
  simp [get?, add, size]

theorem get?_add_of_lt (tree : Tree) (range : Range) (payload : Payload Range) {id : NodeId}
    (hid : id.index < tree.size) : (tree.add range payload).2.get? id = tree.get? id :=
  get?_of_isPrefix (by simp [add]) hid

theorem get?_add_cases {tree : Tree} {range : Range} {payload : Payload Range} {id : NodeId} {node : Node}
    (h : (tree.add range payload).2.get? id = some node) :
    (id = ⟨tree.size⟩ ∧ node = ⟨range, payload⟩) ∨ tree.get? id = some node := by
  simp only [get?, add, Array.getElem?_push] at h
  split at h
  · rename_i hid
    exact .inl ⟨by cases id; exact congrArg NodeId.mk hid, (Option.some.inj h).symm⟩
  · exact .inr h

theorem payload_of_get? {tree : Tree} {id : NodeId} {node : Node} (h : tree.get? id = some node) :
    tree.payload id = node.payload := by
  rw [payload, h]

theorem payload_congr {earlier later : Tree} {id : NodeId} (h : later.get? id = earlier.get? id) :
    later.payload id = earlier.payload id := by
  rw [payload, h, payload]

theorem payload_add (tree : Tree) (range : Range) (payload : Payload Range) (id : NodeId) :
    (tree.add range payload).2.payload id = if id = ⟨tree.size⟩ then payload else tree.payload id := by
  split
  · rename_i heq
    exact heq ▸ payload_of_get? (tree.get?_add_self range payload)
  · rename_i hne
    have hindex : id.index ≠ tree.nodes.size := fun heq => hne (by cases id; exact congrArg NodeId.mk heq)
    exact payload_congr (by simp [get?, add, Array.getElem?_push, hindex])

theorem payload_of_isPrefix {tree later : Tree} {id : NodeId} (hgrown : tree.nodes.toList <+: later.nodes.toList)
    (hfilled : tree.payload id ≠ .placeholder) : later.payload id = tree.payload id := by
  rcases Nat.lt_or_ge id.index tree.size with hlt | hge
  · exact payload_congr (get?_of_isPrefix hgrown hlt)
  · have hnone : tree.get? id = none := Array.getElem?_eq_none hge
    exact absurd (by rw [payload, hnone]) hfilled

theorem range_congr {earlier later : Tree} {id : NodeId} (h : later.get? id = earlier.get? id) :
    later.range id = earlier.range id := by
  rw [range, h, range]

def replace (tree : Tree) (id : NodeId) (node : Node) : Tree :=
  ⟨tree.nodes.setIfInBounds id.index node⟩

theorem fill_eq {tree : Tree} {id : NodeId} {reserved range : Range} {payload : Payload Range}
    (h : tree.get? id = some ⟨reserved, .placeholder⟩) (hfilled : payload.isPlaceholder = false) :
    tree.fill id range payload = .ok (tree.replace id ⟨range, payload⟩) := by
  have hplaceholder : (Payload.placeholder : Payload Range).isPlaceholder = true := rfl
  simp [fill, h, hfilled, replace, hplaceholder]

@[simp] theorem size_replace (tree : Tree) (id : NodeId) (node : Node) :
    (tree.replace id node).size = tree.size := by
  simp [replace, size]

theorem get?_replace_self {tree : Tree} {id : NodeId} (node : Node) (h : id.index < tree.size) :
    (tree.replace id node).get? id = some node := by
  have h' : id.index < tree.nodes.size := h
  simp [replace, get?, h']

theorem get?_replace_of_ne {tree : Tree} {id other : NodeId} (node : Node) (h : other ≠ id) :
    (tree.replace id node).get? other = tree.get? other := by
  have hne : id.index ≠ other.index := fun heq => h (by cases id; cases other; simp_all)
  simp [replace, get?, hne]

theorem payload_replace {tree : Tree} {id : NodeId} (h : id.index < tree.size) (node : Node) (other : NodeId) :
    (tree.replace id node).payload other = if other = id then node.payload else tree.payload other := by
  split
  · rename_i heq
    subst heq
    exact payload_of_get? (get?_replace_self node h)
  · rename_i hne
    exact payload_congr (get?_replace_of_ne node hne)

theorem prefix_replace {earlier tree : Tree} {id : NodeId} (node : Node)
    (h : earlier.nodes.toList <+: tree.nodes.toList) (hid : earlier.size ≤ id.index) :
    earlier.nodes.toList <+: (tree.replace id node).nodes.toList := by
  obtain ⟨added, hadded⟩ := h
  have hlength : earlier.nodes.toList.length ≤ id.index := by simpa [size] using hid
  refine ⟨added.set (id.index - earlier.nodes.toList.length) node, ?_⟩
  rw [replace, Array.toList_setIfInBounds, ← hadded, List.set_append_right _ _ hlength]

end Tree

end AdaSyntax
