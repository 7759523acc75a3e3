import AdaSyntax.Proofs.Token.Order
import AdaSyntax.Proofs.Tree.Forest
import AdaSyntax.Proofs.Tree.Row

namespace AdaSyntax

variable {tokens : Array Token} {tree : Tree} {low high : Nat} {roots nodes : List NodeId}

theorem Row.forest (h : Row tokens tree low high roots nodes) : tree.Forest roots nodes := by
  induction h with
  | nil => exact .nil
  | cons _ _ hnode hfilled _ _ _ ihbelow ihbeyond => exact .cons hnode hfilled ihbelow ihbeyond

namespace Token.Ordered

variable {first second : Nat}

theorem start_le_stop (h : first < tokens.size) : tokenStart tokens first ≤ tokenStop tokens (first + 1) := by
  simpa [tokenStart, tokenStop, h] using tokens[first].range.start_le_stop

theorem succ_stop_le_start (h : Ordered tokens.toList) (hlt : first < second) (hsecond : second < tokens.size) :
    tokenStop tokens (first + 1) ≤ tokenStart tokens second := by
  have hfirst : first < tokens.size := by omega
  have hle := List.pairwise_iff_getElem.mp h first second (by simpa) (by simpa) hlt
  simpa [tokenStart, tokenStop, hfirst, hsecond] using hle

theorem start_le_start (h : Ordered tokens.toList) (hle : first ≤ second) (hsecond : second < tokens.size) :
    tokenStart tokens first ≤ tokenStart tokens second := by
  rcases Nat.lt_or_eq_of_le hle with hlt | rfl
  · exact Nat.le_trans (start_le_stop (by omega)) (h.succ_stop_le_start hlt hsecond)
  · exact Nat.le_refl _

theorem stop_le_start (h : Ordered tokens.toList) (hle : first ≤ second) (hsecond : second < tokens.size) :
    tokenStop tokens first ≤ tokenStart tokens second := by
  cases first with
  | zero => exact h.start_le_start (Nat.zero_le _) hsecond
  | succ first => exact h.succ_stop_le_start hle hsecond

theorem start_le_stop_of_lt (h : Ordered tokens.toList) (hlt : first < second)
    (hsecond : second ≤ tokens.size) : tokenStart tokens first ≤ tokenStop tokens second := by
  cases second with
  | zero => omega
  | succ second => exact Nat.le_trans (h.start_le_start (by omega) hsecond) (start_le_stop hsecond)

theorem stop_le_stop (h : Ordered tokens.toList) (hle : first ≤ second) (hsecond : second ≤ tokens.size) :
    tokenStop tokens first ≤ tokenStop tokens second := by
  rcases Nat.lt_or_eq_of_le hle with hlt | rfl
  · cases second with
    | zero => omega
    | succ second =>
      exact Nat.le_trans (h.stop_le_start (by omega) hsecond) (start_le_stop hsecond)
  · exact Nat.le_refl _

end Token.Ordered

namespace Row

theorem roots_inside (h : Row tokens tree low high roots nodes) (hordered : Token.Ordered tokens.toList)
    (hhigh : high ≤ tokens.size) : ∀ root ∈ roots,
      tokenStart tokens low ≤ (tree.range root).start ∧ (tree.range root).stop ≤ tokenStop tokens high := by
  induction h with
  | nil => simp
  | @cons low high start stop id node rest below beyond hlow hlt hnode _ hrange hbelow hbeyond _ ih =>
    have hstart := hbelow.le
    have hstop := hbeyond.le
    intro root hroot
    rcases List.mem_cons.mp hroot with rfl | hroot
    · rw [Tree.range_of_get? hnode, hrange]
      refine ⟨hordered.start_le_start hlow (by omega), Nat.max_le.mpr ⟨?_, ?_⟩⟩
      · exact hordered.start_le_stop_of_lt hlt hhigh
      · exact hordered.stop_le_stop hstop hhigh
    · obtain ⟨hinside, hend⟩ := ih hhigh root hroot
      -- a root beyond starts before `high`, so there is a token where it starts
      have hmoved := hbeyond.lt_of_ne_nil (List.ne_nil_of_mem hroot)
      exact ⟨Nat.le_trans (hordered.start_le_start (by omega) (by omega)) hinside, hend⟩

theorem roots_ordered (h : Row tokens tree low high roots nodes) (hordered : Token.Ordered tokens.toList)
    (hhigh : high ≤ tokens.size) :
    roots.Pairwise fun root next => (tree.range root).stop ≤ (tree.range next).start := by
  induction h with
  | nil => exact .nil
  | @cons low high start stop id node rest below beyond _ _ hnode _ hrange hbelow hbeyond _ ih =>
    have hstart := hbelow.le
    refine .cons (fun next hnext => ?_) (ih hhigh)
    have hmoved := hbeyond.lt_of_ne_nil (List.ne_nil_of_mem hnext)
    have hnextStart := (hbeyond.roots_inside hordered hhigh next hnext).1
    rw [Tree.range_of_get? hnode, hrange]
    refine Nat.le_trans (Nat.max_le.mpr ⟨?_, ?_⟩) hnextStart
    · exact hordered.start_le_start hstart (by omega)
    · exact hordered.stop_le_start (Nat.le_refl _) (by omega)

theorem nested {id : NodeId} {node : Node} (h : Row tokens tree low high node.payload.children nodes)
    (hordered : Token.Ordered tokens.toList) (hhigh : high ≤ tokens.size) (hnode : tree.get? id = some node)
    (hstart : node.range.start ≤ tokenStart tokens low) (hstop : tokenStop tokens high ≤ node.range.stop) :
    tree.Nested id := by
  have hchildren := Tree.children_of_get? hnode
  constructor
  · intro child hchild
    rw [hchildren] at hchild
    obtain ⟨hinside, hend⟩ := h.roots_inside hordered hhigh child hchild
    rw [Tree.range_of_get? hnode, Range.contains, Bool.and_eq_true, decide_eq_true_iff, decide_eq_true_iff]
    exact ⟨Nat.le_trans hstart hinside, Nat.le_trans hend hstop⟩
  · rw [hchildren]
    exact h.roots_ordered hordered hhigh

theorem all_nested (h : Row tokens tree low high roots nodes) (hordered : Token.Ordered tokens.toList)
    (hhigh : high ≤ tokens.size) : ∀ id ∈ nodes, tree.Nested id := by
  induction h with
  | nil => simp
  | @cons low high start stop id node rest below beyond _ _ hnode _ hrange hbelow hbeyond ihbelow ihbeyond =>
    have hstop := hbeyond.le
    intro other hother
    rcases List.mem_cons.mp hother with rfl | hother
    · refine hbelow.nested hordered (by omega) hnode ?_ ?_
      · rw [hrange]
        exact Nat.le_refl _
      · rw [hrange]
        exact Nat.le_max_right _ _
    · rcases List.mem_append.mp hother with hother | hother
      · exact ihbelow (by omega) other hother
      · exact ihbeyond hhigh other hother

end Row

end AdaSyntax
