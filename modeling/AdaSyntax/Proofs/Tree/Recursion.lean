import AdaSyntax.Proofs.Tree.Forest
import Mathlib.Data.List.Nodup
import Mathlib.Data.List.Perm.Subperm
import Mathlib.Logic.Relation

/-!
Traversal as a recursion over the tree. The open nodes on the stack of a walk are those that the recursion has still to
leave; so where no node lies below itself, the walk makes the calls of the recursion, whatever the visitor does with them.
-/

namespace AdaSyntax

/-- What a recursive traversal of the nodes `ids` calls: each of them is entered if it exists, its children are traversed
one level deeper if the visitor asks for them, and then it is left, whether it was entered or not. -/
inductive Walk.Traverses {σ : Type} (tree : Tree) (visitor : Visitor σ) :
    List NodeId → Nat → σ → List Walk.Call → σ → Prop where
  | nil {depth : Nat} {state : σ} : Traverses tree visitor [] depth state [] state
  | missing {id : NodeId} {rest : List NodeId} {depth : Nat} {state final : σ} {calls : List Walk.Call}
      (hnode : tree.get? id = none)
      (hrest : Traverses tree visitor rest depth (visitor.leave state id depth) calls final) :
      Traverses tree visitor (id :: rest) depth state (.leave id depth :: calls) final
  | skipped {id : NodeId} {node : Node} {rest : List NodeId} {depth : Nat} {state entered final : σ}
      {calls : List Walk.Call} (hnode : tree.get? id = some node)
      (henter : visitor.enter state id node depth = (false, entered))
      (hrest : Traverses tree visitor rest depth (visitor.leave entered id depth) calls final) :
      Traverses tree visitor (id :: rest) depth state (.enter id depth :: .leave id depth :: calls) final
  | entered {id : NodeId} {node : Node} {rest : List NodeId} {depth : Nat} {state entered below final : σ}
      {inner calls : List Walk.Call} (hnode : tree.get? id = some node)
      (henter : visitor.enter state id node depth = (true, entered))
      (hchildren : Traverses tree visitor node.payload.children (depth + 1) entered inner below)
      (hrest : Traverses tree visitor rest depth (visitor.leave below id depth) calls final) :
      Traverses tree visitor (id :: rest) depth state
        (.enter id depth :: (inner ++ .leave id depth :: calls)) final

namespace Visitor

variable {σ : Type}

def recording (visitor : Visitor σ) : Visitor (σ × List Walk.Call) where
  enter state id node depth :=
    let (wanted, entered) := visitor.enter state.1 id node depth
    (wanted, entered, state.2 ++ [.enter id depth])
  leave state id depth := (visitor.leave state.1 id depth, state.2 ++ [.leave id depth])

end Visitor

namespace Walk.Traverses

variable {σ : Type} {tree : Tree} {visitor : Visitor σ} {ids : List NodeId} {depth : Nat} {state final final' : σ}
variable {calls calls' : List Walk.Call}

theorem unique (h : Traverses tree visitor ids depth state calls final)
    (h' : Traverses tree visitor ids depth state calls' final') : calls' = calls ∧ final' = final := by
  induction h generalizing calls' final' with
  | nil =>
    cases h'
    exact ⟨rfl, rfl⟩
  | missing hnode _ ih =>
    cases h' with
    | missing _ hrest =>
      obtain ⟨rfl, rfl⟩ := ih hrest
      exact ⟨rfl, rfl⟩
    | skipped hother | entered hother => cases hnode.symm.trans hother
  | skipped hnode henter _ ih =>
    cases h' with
    | missing hother => cases hnode.symm.trans hother
    | skipped hother henter' hrest =>
      obtain rfl := Option.some.inj (hnode.symm.trans hother)
      obtain rfl := (Prod.mk.inj (henter.symm.trans henter')).2
      obtain ⟨rfl, rfl⟩ := ih hrest
      exact ⟨rfl, rfl⟩
    | entered hother henter' =>
      obtain rfl := Option.some.inj (hnode.symm.trans hother)
      cases henter.symm.trans henter'
  | entered hnode henter _ _ ihchildren ihrest =>
    cases h' with
    | missing hother => cases hnode.symm.trans hother
    | skipped hother henter' =>
      obtain rfl := Option.some.inj (hnode.symm.trans hother)
      cases henter.symm.trans henter'
    | entered hother henter' hchildren hrest =>
      obtain rfl := Option.some.inj (hnode.symm.trans hother)
      obtain rfl := (Prod.mk.inj (henter.symm.trans henter')).2
      obtain ⟨rfl, rfl⟩ := ihchildren hchildren
      obtain ⟨rfl, rfl⟩ := ihrest hrest
      exact ⟨rfl, rfl⟩

theorem recording (h : Traverses tree visitor ids depth state calls final) {before after : List Walk.Call}
    (hafter : after = before ++ calls) :
    Traverses tree visitor.recording ids depth (state, before) calls (final, after) := by
  induction h generalizing before after with
  | nil =>
    rw [hafter, List.append_nil]
    exact .nil
  | missing hnode _ ih => exact .missing hnode (ih (by simp [hafter]))
  | @skipped id node _ depth state entered _ _ hnode henter _ ih =>
    have hrecorded : visitor.recording.enter (state, before) id node depth =
        (false, entered, before ++ [.enter id depth]) := by
      simp only [Visitor.recording, henter]
    exact .skipped hnode hrecorded (ih (by simp [hafter]))
  | @entered id node _ depth state entered _ _ inner _ hnode henter _ _ ihchildren ihrest =>
    have hrecorded : visitor.recording.enter (state, before) id node depth =
        (true, entered, before ++ [.enter id depth]) := by
      simp only [Visitor.recording, henter]
    exact .entered hnode hrecorded (ihchildren rfl) (ihrest (by simp [hafter]))

end Walk.Traverses

namespace Tree

open Walk

def HasChild (tree : Tree) (parent child : NodeId) : Prop := child ∈ tree.children parent

/-- The second node is the first one, or lies below it. -/
def Reaches (tree : Tree) : NodeId → NodeId → Prop := Relation.ReflTransGen tree.HasChild

/-- The second node is a descendant of the first one. -/
def IsAbove (tree : Tree) : NodeId → NodeId → Prop := Relation.TransGen tree.HasChild

/-- No node of those below the root is its own descendant. -/
def Acyclic (tree : Tree) (root : NodeId) : Prop :=
  ∀ id node, tree.Reaches root id → tree.get? id = some node → ¬tree.IsAbove id id

structure Distinct (tree : Tree) (ids : List NodeId) : Prop where
  nodup : ids.Nodup
  lt_size : ∀ id ∈ ids, id.index < tree.size

variable {tree : Tree} {ids : List NodeId}

theorem index_injective : Function.Injective NodeId.index := fun first second h => by
  cases first
  cases second
  exact congrArg NodeId.mk h

theorem Distinct.length_le (h : tree.Distinct ids) : ids.length ≤ tree.size := by
  have hsubset : ids.map NodeId.index ⊆ List.range tree.size := fun index hindex => by
    obtain ⟨id, hid, rfl⟩ := List.mem_map.mp hindex
    exact List.mem_range.mpr (h.lt_size id hid)
  have hlength := (List.subperm_of_subset (h.nodup.map index_injective) hsubset).length_le
  rwa [List.length_map, List.length_range] at hlength

theorem Distinct.cons {id : NodeId} {node : Node} (h : tree.Distinct ids) (hnode : tree.get? id = some node)
    (hnew : id ∉ ids) : tree.Distinct (id :: ids) where
  nodup := List.nodup_cons.mpr ⟨hnew, h.nodup⟩
  lt_size := List.forall_mem_cons.mpr ⟨(Array.getElem?_eq_some_iff.mp hnode).1, h.lt_size⟩

theorem HasChild.lt_size {parent child : NodeId} (h : tree.HasChild parent child) : parent.index < tree.size := by
  by_contra hbound
  have hnone : tree.get? parent = none := Array.getElem?_eq_none (Nat.not_lt.mp hbound)
  rw [HasChild, children, payload, hnone] at h
  cases h

theorem Acyclic.of_lt (root : NodeId) (h : ∀ parent < tree.size, ∀ child ∈ tree.children ⟨parent⟩,
    child.index < tree.size → child.index < parent) : tree.Acyclic root := by
  have hstep : ∀ parent child, tree.HasChild parent child → child.index < tree.size → child.index < parent.index :=
    fun parent child hchild => h parent.index hchild.lt_size child hchild
  have hlt : ∀ above below, tree.IsAbove above below → below.index < tree.size → below.index < above.index := by
    intro above below habove hsize
    induction habove using Relation.TransGen.head_induction_on with
    | single hchild => exact hstep _ _ hchild hsize
    | head hchild hrest ih =>
      obtain ⟨_, hnext, _⟩ := Relation.TransGen.head'_iff.mp hrest
      exact Nat.lt_trans ih (hstep _ _ hchild hnext.lt_size)
  intro id node _ hnode habove
  exact Nat.lt_irrefl _ (hlt id id habove (Array.getElem?_eq_some_iff.mp hnode).1)

theorem exists_traverses {σ : Type} {root : NodeId} (hacyclic : tree.Acyclic root) (visitor : Visitor σ) (room : Nat)
    {trail : List NodeId} (htrail : tree.Distinct trail) (hroom : tree.size < trail.length + room) (ids : List NodeId)
    (hreached : ∀ id ∈ ids, tree.Reaches root id) (habove : ∀ id ∈ ids, ∀ other ∈ trail, tree.IsAbove other id)
    (state : σ) :
    ∃ calls final, Traverses tree visitor ids trail.length state calls final ∧
      ∀ rest, tree.walkStack visitor state (ids.map (.enter · trail.length) ++ rest) =
        tree.walkStack visitor final rest := by
  have hdepth := htrail.length_le
  induction room generalizing trail ids state with
  | zero => omega
  | succ room ih =>
    induction ids generalizing state with
    | nil => exact ⟨[], state, .nil, fun _ => rfl⟩
    | cons id ids ihrest =>
      obtain ⟨hhere, hreached⟩ := List.forall_mem_cons.mp hreached
      obtain ⟨habovehere, habove⟩ := List.forall_mem_cons.mp habove
      cases hnode : tree.get? id with
      | none =>
        obtain ⟨calls, final, htraverses, hwalk⟩ := ihrest hreached habove (visitor.leave state id trail.length)
        exact ⟨_, final, .missing hnode htraverses, fun rest =>
          (walkStack_missing hdepth hnode).trans (hwalk rest)⟩
      | some node =>
        obtain ⟨wanted, entered, hentered⟩ :
            ∃ wanted entered, visitor.enter state id node trail.length = (wanted, entered) := ⟨_, _, rfl⟩
        cases wanted with
        | false =>
          obtain ⟨calls, final, htraverses, hwalk⟩ := ihrest hreached habove (visitor.leave entered id trail.length)
          exact ⟨_, final, .skipped hnode hentered htraverses, fun rest =>
            (walkStack_skipped hdepth hnode hentered).trans (hwalk rest)⟩
        | true =>
          have hnew : id ∉ trail := fun hmem => hacyclic id node hhere hnode (habovehere id hmem)
          have hlonger := htrail.cons hnode hnew
          have hchild : ∀ child ∈ node.payload.children, tree.HasChild id child := fun child hmem => by
            rwa [HasChild, children_of_get? hnode]
          obtain ⟨inner, below, hinner, hwalkinner⟩ := ih hlonger (by rw [List.length_cons]; omega)
            node.payload.children (fun child hmem => hhere.tail (hchild child hmem))
            (fun child hmem => List.forall_mem_cons.mpr
              ⟨.single (hchild child hmem), fun other hother => (habovehere other hother).tail (hchild child hmem)⟩)
            entered hlonger.length_le
          obtain ⟨calls, final, htraverses, hwalk⟩ := ihrest hreached habove (visitor.leave below id trail.length)
          refine ⟨_, final, .entered hnode hentered hinner htraverses, fun rest => ?_⟩
          rw [List.map_cons, List.cons_append, walkStack_entered hdepth hnode hentered]
          rw [List.length_cons] at hwalkinner
          rw [hwalkinner, walkStack, hwalk]

theorem Acyclic.exists_walk {σ : Type} {root : NodeId} (h : tree.Acyclic root) (visitor : Visitor σ) (state : σ) :
    ∃ calls, Traverses tree visitor [root] 0 state calls (tree.walk visitor root state) := by
  have hempty : tree.Distinct [] := ⟨List.nodup_nil, List.forall_mem_nil _⟩
  obtain ⟨calls, final, htraverses, hwalk⟩ := exists_traverses h visitor (tree.size + 1) hempty
    (by rw [List.length_nil]; omega) [root] (List.forall_mem_singleton.mpr .refl)
    (List.forall_mem_singleton.mpr (List.forall_mem_nil _)) state
  have hfinal : tree.walk visitor root state = final := (hwalk []).trans (by rw [walkStack])
  exact ⟨calls, hfinal ▸ htraverses⟩

/-- Where no node lies below itself, a walk makes exactly the calls of the recursion, and so comes to the same state. -/
theorem walk_recursive {root : NodeId} (h : tree.Acyclic root) {σ : Type} (visitor : Visitor σ) (state : σ) :
    ∃ calls, Traverses tree visitor [root] 0 state calls (tree.walk visitor root state) ∧
      tree.walk visitor.recording root (state, []) = (tree.walk visitor root state, calls) ∧
      ∀ calls' final, Traverses tree visitor [root] 0 state calls' final →
        calls' = calls ∧ final = tree.walk visitor root state := by
  obtain ⟨calls, htraverses⟩ := h.exists_walk visitor state
  obtain ⟨_, hrecorded⟩ := h.exists_walk visitor.recording (state, [])
  exact ⟨calls, htraverses, ((htraverses.recording rfl).unique hrecorded).2, fun _ _ hother => htraverses.unique hother⟩

def square : Tree :=
  ⟨#[⟨.empty 0, .expr (.literal .integer "1")⟩, ⟨.empty 0, .expr (.binary .add ⟨0⟩ ⟨7⟩)⟩,
    ⟨.empty 0, .expr (.binary .mul ⟨1⟩ ⟨1⟩)⟩]⟩

def firstTwo : Visitor Nat := ⟨fun count _ _ _ => (count < 2, count + 1), fun count _ _ => count⟩

/-- The sum is entered twice, but its operands are visited only once; the missing one is left without being entered. -/
theorem walk_square : square.Acyclic ⟨2⟩ ∧
    square.walk firstTwo.recording ⟨2⟩ (0, []) =
      (4, [.enter ⟨2⟩ 0, .enter ⟨1⟩ 1, .enter ⟨0⟩ 2, .leave ⟨0⟩ 2, .leave ⟨7⟩ 2, .leave ⟨1⟩ 1, .enter ⟨1⟩ 1,
        .leave ⟨1⟩ 1, .leave ⟨2⟩ 0]) := by
  have hacyclic : square.Acyclic ⟨2⟩ := .of_lt _ (by decide)
  obtain ⟨calls, _, hrecorded, hunique⟩ := walk_recursive hacyclic firstTwo 0
  have hoperands : Traverses square firstTwo [⟨0⟩, ⟨7⟩] 2 2 [.enter ⟨0⟩ 2, .leave ⟨0⟩ 2, .leave ⟨7⟩ 2] 3 :=
    .skipped rfl rfl (.missing rfl .nil)
  have hagain : Traverses square firstTwo [⟨1⟩] 1 3 [.enter ⟨1⟩ 1, .leave ⟨1⟩ 1] 4 := .skipped rfl rfl .nil
  have hsums : Traverses square firstTwo [⟨1⟩, ⟨1⟩] 1 1 _ 4 := .entered rfl rfl hoperands hagain
  obtain ⟨rfl, hfinal⟩ := hunique _ _ (.entered rfl rfl hsums .nil)
  exact ⟨hacyclic, hrecorded.trans (Prod.ext hfinal.symm rfl)⟩

end Tree

end AdaSyntax
