import AdaSyntax.Tree.Check
import AdaSyntax.Proofs.Tree.Recursion
import Mathlib.Data.List.Chain

/-!
What the check of a tree decides. It goes over every node that it reaches once, so it ends; it finds nothing just in case
the nodes below the root are a tree that lies in the text as its nodes lie in each other; and then every walk from the
root ends, and the nodes are listed once each, in the order of the text.
-/

namespace AdaSyntax

namespace Tree

open Walk

/-- The nodes below the root are there and complete, each but the root has a single place among the children of one of
them, and they lie inside their parents, one behind the other. -/
structure Sound (tree : Tree) (root : NodeId) : Prop where
  root_exists : ∃ node, tree.get? root = some node
  children_exist : ∀ id, tree.Reaches root id → ∀ child ∈ tree.children id, ∃ node, tree.get? child = some node
  filled : ∀ id, tree.Reaches root id → (tree.payload id).isPlaceholder = false
  root_free : ∀ id, tree.Reaches root id → root ∉ tree.children id
  once : ∀ id, tree.Reaches root id → id ≠ root →
    ∃! place : NodeId × Nat, tree.Reaches root place.1 ∧ (tree.children place.1)[place.2]? = some id
  inside : ∀ id, tree.Reaches root id → ∀ child ∈ tree.children id,
    (tree.range id).contains (tree.range child) = true
  ordered : ∀ id, tree.Reaches root id → (tree.children id).IsChain fun child next =>
    (tree.range child).stop ≤ (tree.range next).start

def StartsBehind (tree : Tree) : Option Nat → List NodeId → Prop
  | _, [] => True
  | previousEnd, id :: rest =>
    (∀ stop ∈ previousEnd, stop ≤ (tree.range id).start) ∧ tree.StartsBehind (some (tree.range id).stop) rest

variable {tree : Tree} {root id child parent : NodeId} {ids done : List NodeId}

theorem startsBehind_iff {previousEnd : Option Nat} : tree.StartsBehind previousEnd ids ↔
    (∀ stop ∈ previousEnd, ∀ first ∈ ids.head?, stop ≤ (tree.range first).start) ∧
      ids.IsChain fun child next => (tree.range child).stop ≤ (tree.range next).start := by
  induction ids generalizing previousEnd with
  | nil => simp [StartsBehind]
  | cons id rest ih => simp [StartsBehind, ih, List.isChain_cons]

structure Tidy (tree : Tree) (id : NodeId) : Prop where
  filled : (tree.payload id).isPlaceholder = false
  inside : ∀ child ∈ tree.children id, (tree.range id).contains (tree.range child) = true
  ordered : (tree.children id).IsChain fun child next => (tree.range child).stop ≤ (tree.range next).start

theorem Tidy.exists_node (h : tree.Tidy id) : ∃ node, tree.get? id = some node := by
  cases hnode : tree.get? id with
  | none =>
    have hfilled := h.filled
    rw [payload, hnode] at hfilled
    cases hfilled
  | some node => exact ⟨node, rfl⟩

theorem existsUnique_place (hnodup : (ids.flatMap tree.children).Nodup) (hmem : child ∈ ids.flatMap tree.children) :
    ∃! place : NodeId × Nat, place.1 ∈ ids ∧ (tree.children place.1)[place.2]? = some child := by
  obtain ⟨hlists, hdisjoint⟩ := List.nodup_flatMap.mp hnodup
  obtain ⟨parent, hparent, hchild⟩ := List.mem_flatMap.mp hmem
  obtain ⟨index, hindex⟩ := List.mem_iff_getElem?.mp hchild
  refine ⟨(parent, index), ⟨hparent, hindex⟩, ?_⟩
  rintro ⟨other, position⟩ ⟨hother, hposition⟩
  have hsymm : Std.Symm (Function.onFun List.Disjoint tree.children) := ⟨fun _ _ h _ hother hhere => h hhere hother⟩
  have hsame : other = parent := by
    by_contra hne
    exact hdisjoint.forall hother hparent hne (List.mem_of_getElem? hposition) hchild
  subst hsame
  have hlt := (List.getElem?_eq_some_iff.mp hposition).1
  exact Prod.ext rfl ((List.getElem?_inj hlt (hlists other hother)).mp (hposition.trans hindex.symm))

theorem sound_of_perm (hperm : (root :: ids.flatMap tree.children).Perm ids) (hnodup : ids.Nodup)
    (hreaches : ∀ id ∈ ids, tree.Reaches root id) (htidy : ∀ id ∈ ids, tree.Tidy id) : tree.Sound root := by
  have hids : ∀ id, id ∈ ids ↔ tree.Reaches root id := fun id => by
    refine ⟨hreaches id, fun hreached => ?_⟩
    induction hreached with
    | refl => exact hperm.mem_iff.mp List.mem_cons_self
    | tail _ hchild ih => exact hperm.mem_iff.mp (List.mem_cons_of_mem _ (List.mem_flatMap.mpr ⟨_, ih, hchild⟩))
  obtain ⟨hroot, hchildren⟩ := List.nodup_cons.mp (hperm.nodup_iff.mpr hnodup)
  simp only [hids] at htidy
  constructor
  case root_exists => exact (htidy root .refl).exists_node
  case children_exist => exact fun id hreached child hchild => (htidy child (hreached.tail hchild)).exists_node
  case filled => exact fun id hreached => (htidy id hreached).filled
  case root_free => exact fun id hreached hchild => hroot (List.mem_flatMap.mpr ⟨id, (hids id).mpr hreached, hchild⟩)
  case once =>
    intro id hreached hne
    have hmem := List.mem_of_ne_of_mem hne (hperm.mem_iff.mpr ((hids id).mpr hreached))
    simpa only [hids] using existsUnique_place hchildren hmem
  case inside => exact fun id hreached => (htidy id hreached).inside
  case ordered => exact fun id hreached => (htidy id hreached).ordered

namespace Inspection

variable {state later : Inspection} {range : Range} {previousEnd : Option Nat}

structure Reached (tree : Tree) (state later : Inspection) (ids : List NodeId) : Prop where
  pending : later.pending = ids.reverse ++ state.pending
  size : later.seen.size = state.seen.size
  seen : ∀ id, later.hasSeen id = true ↔ state.hasSeen id = true ∨ id ∈ ids
  fresh : ∀ id ∈ ids, state.hasSeen id = false
  distinct : tree.Distinct ids

theorem Reached.refl (state : Inspection) : Reached tree state state [] :=
  ⟨rfl, rfl, fun _ => by simp, List.forall_mem_nil _, List.nodup_nil, List.forall_mem_nil _⟩

theorem Reached.of_complaints {violations : Array TreeViolation} (h : Reached tree { state with violations } later ids) :
    Reached tree state later ids :=
  ⟨h.pending, h.size, h.seen, h.fresh, h.distinct⟩

theorem hasSeen_replicate (size : Nat) (id : NodeId) :
    (⟨Array.replicate size false, [], #[]⟩ : Inspection).hasSeen id = false := by
  rw [hasSeen, Array.getD_eq_getD_getElem?, Array.getElem?_replicate]
  split <;> rfl

theorem hasSeen_reach_of_ne {id other : NodeId} (h : other ≠ id) :
    (state.reach id).hasSeen other = state.hasSeen other := by
  have hne : id.index ≠ other.index := fun heq => h (by cases id; cases other; simp_all)
  simp [reach, hasSeen, Array.getD_eq_getD_getElem?, hne]

theorem hasSeen_reach (h : id.index < state.seen.size) (other : NodeId) :
    (state.reach id).hasSeen other = true ↔ state.hasSeen other = true ∨ other = id := by
  by_cases heq : other = id
  · subst heq
    simp [reach, hasSeen, Array.getD_eq_getD_getElem?, h]
  · simp [hasSeen_reach_of_ne heq, heq]

theorem Reached.cons (hnew : state.hasSeen id = false) (hlt : id.index < tree.size) (hsize : state.seen.size = tree.size)
    (h : Reached tree (state.reach id) later ids) : Reached tree state later (id :: ids) where
  pending := by rw [h.pending, List.reverse_cons, List.append_assoc]; rfl
  size := h.size.trans (by simp [reach])
  seen other := by
    rw [h.seen, hasSeen_reach (hsize ▸ hlt), List.mem_cons, or_assoc]
  fresh := by
    refine List.forall_mem_cons.mpr ⟨hnew, fun other hother => ?_⟩
    have hfresh := h.fresh other hother
    rw [← Bool.not_eq_true, hasSeen_reach (hsize ▸ hlt), not_or, Bool.not_eq_true] at hfresh
    exact hfresh.1
  distinct := by
    refine ⟨List.nodup_cons.mpr ⟨fun hmem => ?_, h.distinct.nodup⟩, List.forall_mem_cons.mpr ⟨hlt, h.distinct.lt_size⟩⟩
    have hfresh := h.fresh id hmem
    rw [(hasSeen_reach (hsize ▸ hlt) id).mpr (.inr rfl)] at hfresh
    cases hfresh

theorem complain_violations (state : Inspection) (violation : TreeViolation) :
    (state.complain violation).violations ≠ #[] := by
  simp [complain]

theorem complainIf_eq (state : Inspection) (condition : Bool) (violation : TreeViolation) :
    ∃ violations, state.complainIf condition violation = { state with violations } ∧
      (violations = #[] ↔ state.violations = #[] ∧ condition = false) := by
  unfold complainIf
  split
  · exact ⟨_, rfl, by simp_all⟩
  · exact ⟨_, rfl, by simp_all⟩

structure Admits (tree : Tree) (range : Range) (previousEnd : Option Nat) (state : Inspection) (ids : List NodeId) :
    Prop where
  distinct : tree.Distinct ids
  fresh : ∀ id ∈ ids, state.hasSeen id = false
  inside : ∀ id ∈ ids, range.contains (tree.range id) = true
  behind : tree.StartsBehind previousEnd ids

theorem admits_cons {node : Node} (violations : Array TreeViolation) (hsize : state.seen.size = tree.size)
    (hnode : tree.get? id = some node) (hnew : state.hasSeen id = false) :
    Admits tree range previousEnd state (id :: ids) ↔
      (range.contains node.range = true ∧ ∀ stop ∈ previousEnd, stop ≤ node.range.start) ∧
        Admits tree range (some node.range.stop) (reach { state with violations } id) ids := by
  have hlt := (Array.getElem?_eq_some_iff.mp hnode).1
  have hrange := range_of_get? hnode
  have hseen : ∀ other, (reach { state with violations } id).hasSeen other = false ↔
      state.hasSeen other = false ∧ other ≠ id := fun other => by
    rw [← Bool.not_eq_true, hasSeen_reach (hsize ▸ hlt), not_or, Bool.not_eq_true]
    rfl
  constructor
  · rintro ⟨⟨hnodup, hbound⟩, hfresh, hinside, hbehind, hrest⟩
    obtain ⟨hnotin, hnodup⟩ := List.nodup_cons.mp hnodup
    rw [hrange] at hbehind hrest
    refine ⟨⟨hrange ▸ hinside id List.mem_cons_self, hbehind⟩, ⟨hnodup, (List.forall_mem_cons.mp hbound).2⟩, ?_,
      (List.forall_mem_cons.mp hinside).2, hrest⟩
    exact fun other hother => (hseen other).mpr
      ⟨hfresh other (List.mem_cons_of_mem _ hother), fun heq => hnotin (heq ▸ hother)⟩
  · rintro ⟨⟨hcontains, hbehind⟩, ⟨hnodup, hbound⟩, hfresh, hinside, hrest⟩
    refine ⟨⟨List.nodup_cons.mpr ⟨fun hmem => ((hseen id).mp (hfresh id hmem)).2 rfl, hnodup⟩, ?_⟩, ?_, ?_, ?_⟩
    · exact List.forall_mem_cons.mpr ⟨hlt, hbound⟩
    · exact List.forall_mem_cons.mpr ⟨hnew, fun other hother => ((hseen other).mp (hfresh other hother)).1⟩
    · exact List.forall_mem_cons.mpr ⟨hrange.symm ▸ hcontains, hinside⟩
    · rw [StartsBehind, hrange]
      exact ⟨hbehind, hrest⟩

theorem any_early_iff {start : Nat} :
    (previousEnd.any fun stop => start < stop) = false ↔ ∀ stop ∈ previousEnd, stop ≤ start := by
  cases previousEnd <;> simp

theorem visitChildren_reached (tree : Tree) (parent : NodeId) (range : Range) (ids : List NodeId)
    (state : Inspection) (previousEnd : Option Nat) (hsize : state.seen.size = tree.size) :
    ∃ reached, Reached tree state (visitChildren tree parent range previousEnd state ids) reached ∧
      ((visitChildren tree parent range previousEnd state ids).violations = #[] ↔
        state.violations = #[] ∧ Admits tree range previousEnd state ids) ∧
      ((visitChildren tree parent range previousEnd state ids).violations = #[] → reached = ids) := by
  induction ids generalizing state previousEnd with
  | nil => exact ⟨[], .refl state, ⟨fun h => ⟨h, ⟨List.nodup_nil, nofun⟩, nofun, nofun, trivial⟩, And.left⟩, fun _ => rfl⟩
  | cons id rest ih =>
    have hrefused : ∀ violation, ¬Admits tree range previousEnd state (id :: rest) → ∃ reached,
        let later := visitChildren tree parent range previousEnd (state.complain violation) rest
        Reached tree state later reached ∧
          (later.violations = #[] ↔ state.violations = #[] ∧ Admits tree range previousEnd state (id :: rest)) ∧
          (later.violations = #[] → reached = id :: rest) := by
      intro violation hbad
      obtain ⟨reached, hreached, hclean, -⟩ := ih (state.complain violation) previousEnd hsize
      have hnever := fun h => complain_violations state violation (hclean.mp h).1
      exact ⟨reached, hreached.of_complaints, ⟨fun h => absurd h hnever, fun h => absurd h.2 hbad⟩, fun h => absurd h hnever⟩
    rw [visitChildren]
    cases hnode : tree.get? id with
    | none =>
      refine hrefused _ fun h => ?_
      have hlt : id.index < tree.nodes.size := h.distinct.lt_size id List.mem_cons_self
      cases (Array.getElem?_eq_getElem hlt).symm.trans hnode
    | some node =>
      dsimp only
      split
      · rename_i hseen
        refine hrefused _ fun h => ?_
        rw [h.fresh id List.mem_cons_self] at hseen
        cases hseen
      · rename_i hseen
        rw [Bool.not_eq_true] at hseen
        obtain ⟨outside, houtside, hinside⟩ :=
          complainIf_eq state (!range.contains node.range) (.outsideParent parent id)
        obtain ⟨violations, hearly, hbehind⟩ := complainIf_eq { state with violations := outside }
          (previousEnd.any fun stop => node.range.start < stop) (.outOfOrder parent id)
        rw [houtside, hearly]
        have hlt := (Array.getElem?_eq_some_iff.mp hnode).1
        obtain ⟨reached, hreached, hclean, hall⟩ := ih (reach { state with violations } id)
          (some node.range.stop) (by simpa [reach] using hsize)
        have hcons : Reached tree { state with violations } _ (id :: reached) := .cons hseen hlt hsize hreached
        refine ⟨id :: reached, hcons.of_complaints, ?_, fun h => congrArg (id :: ·) (hall h)⟩
        rw [hclean, admits_cons violations hsize hnode hseen]
        change violations = #[] ∧ _ ↔ _
        rw [hbehind, hinside, any_early_iff, Bool.not_eq_false']
        simp only [and_assoc]

structure Fresh (tree : Tree) (state : Inspection) (id : NodeId) : Prop where
  distinct : tree.Distinct (tree.children id)
  unseen : ∀ child ∈ tree.children id, state.hasSeen child = false

theorem admits_children_iff {node : Node} (hnode : tree.get? id = some node)
    (hfilled : (tree.payload id).isPlaceholder = false) :
    Admits tree node.range none state (tree.children id) ↔ tree.Tidy id ∧ Fresh tree state id := by
  have hrange := range_of_get? hnode
  constructor
  · intro h
    exact ⟨⟨hfilled, fun child hchild => hrange.symm ▸ h.inside child hchild, (startsBehind_iff.mp h.behind).2⟩,
      h.distinct, h.fresh⟩
  · rintro ⟨htidy, hfresh⟩
    exact ⟨hfresh.distinct, hfresh.unseen, fun child hchild => hrange ▸ htidy.inside child hchild,
      startsBehind_iff.mpr ⟨nofun, htidy.ordered⟩⟩

theorem visit_filled {node : Node} (hnode : tree.get? id = some node)
    (hfilled : (tree.payload id).isPlaceholder = false) :
    visit tree state id = visitChildren tree id node.range none state (tree.children id) := by
  rw [payload, hnode] at hfilled
  simp [visit, hnode, hfilled, children_of_get? hnode]

theorem visit_placeholder {node : Node} (hnode : tree.get? id = some node)
    (hplaceholder : (tree.payload id).isPlaceholder = true) : visit tree state id = state.complain (.placeholder id) := by
  rw [payload, hnode] at hplaceholder
  simp [visit, hnode, hplaceholder]

theorem visit_reached (state : Inspection) (hsize : state.seen.size = tree.size) (hlt : id.index < tree.size) :
    ∃ reached, Reached tree state (visit tree state id) reached ∧
      ((visit tree state id).violations = #[] ↔ state.violations = #[] ∧ tree.Tidy id ∧ Fresh tree state id) ∧
      ((visit tree state id).violations = #[] → reached = tree.children id) := by
  have hnode : tree.get? id = some tree.nodes[id.index] := Array.getElem?_eq_getElem hlt
  cases hfilled : (tree.payload id).isPlaceholder with
  | true =>
    rw [visit_placeholder hnode hfilled]
    have hnever := complain_violations state (.placeholder id)
    have hbad : ¬tree.Tidy id := fun htidy => by cases htidy.filled.symm.trans hfilled
    exact ⟨[], .of_complaints (.refl _), ⟨fun h => absurd h hnever, fun h => absurd h.2.1 hbad⟩,
      fun h => absurd h hnever⟩
  | false =>
    rw [visit_filled hnode hfilled]
    obtain ⟨reached, hreached, hclean, hall⟩ :=
      visitChildren_reached tree id tree.nodes[id.index].range (tree.children id) state none hsize
    exact ⟨reached, hreached, hclean.trans (and_congr_right fun _ => admits_children_iff hnode hfilled), hall⟩

structure Accounted (tree : Tree) (state : Inspection) (done : List NodeId) : Prop where
  size : state.seen.size = tree.size
  seen : ∀ id, state.hasSeen id = true ↔ id ∈ done ++ state.pending
  distinct : tree.Distinct (done ++ state.pending)

structure Flawless (tree : Tree) (root : NodeId) (state : Inspection) (done : List NodeId) : Prop where
  accounted : Accounted tree state done
  clean : state.violations = #[]
  tidy : ∀ id ∈ done, tree.Tidy id
  reaches : ∀ id ∈ done, tree.Reaches root id
  perm : (root :: done.flatMap tree.children).Perm (done ++ state.pending)

theorem perm_step {rest reached : List NodeId} :
    (id :: done ++ (reached.reverse ++ rest)).Perm (reached ++ (done ++ id :: rest)) := by
  rw [List.perm_iff_count]
  intro other
  simp only [List.count_append, List.count_cons, List.count_reverse, List.cons_append]
  omega

theorem Accounted.step {rest reached : List NodeId} (h : Accounted tree state done)
    (hpending : state.pending = id :: rest) (hreached : Reached tree { state with pending := rest } later reached) :
    Accounted tree later (id :: done) := by
  obtain ⟨hsize, hseen, hnodup, hbound⟩ := h
  rw [hpending] at hseen hnodup hbound
  refine ⟨hreached.size.trans hsize, fun other => ?_, ?_, fun other hother => ?_⟩ <;> rw [hreached.pending] at *
  · rw [hreached.seen, perm_step.mem_iff, List.mem_append, or_comm]
    exact or_congr_right (hseen other)
  · rw [perm_step.nodup_iff, List.nodup_append']
    refine ⟨hreached.distinct.nodup, hnodup, fun other hother hold => ?_⟩
    exact absurd ((hseen other).mpr hold) (Bool.not_eq_true _ ▸ hreached.fresh other hother)
  · rcases List.mem_append.mp (perm_step.mem_iff.mp hother) with hother | hother
    · exact hreached.distinct.lt_size other hother
    · exact hbound other hother

theorem Accounted.run (h : Accounted tree state done) (fuel : Nat) (hfuel : tree.size ≤ fuel + done.length) :
    (run tree fuel state).pending = [] := by
  induction fuel generalizing state done with
  | zero =>
    have hlength := h.distinct.length_le
    rw [List.length_append] at hlength
    change state.pending = []
    exact List.eq_nil_of_length_eq_zero (by omega)
  | succ fuel ih =>
    rw [Inspection.run]
    split
    · assumption
    · rename_i id rest hpending
      have hlt := h.distinct.lt_size id (by simp [hpending])
      obtain ⟨_, hreached, -⟩ := visit_reached { state with pending := rest } h.size hlt
      exact ih (h.step hpending hreached) (by rw [List.length_cons]; omega)

theorem run_of_pending_nil (h : state.pending = []) (fuel : Nat) : run tree fuel state = state := by
  cases fuel with
  | zero => rfl
  | succ fuel => simp [run, h]

theorem run_add (fuel more : Nat) : run tree (fuel + more) state = run tree more (run tree fuel state) := by
  induction fuel generalizing state with
  | zero => rw [Nat.zero_add]; rfl
  | succ fuel ih =>
    rw [Nat.add_right_comm, run, run]
    split
    · rename_i hpending
      exact (run_of_pending_nil hpending more).symm
    · exact ih

theorem Accounted.clean_of_run (h : Accounted tree state done) {fuel : Nat}
    (hclean : (Inspection.run tree fuel state).violations = #[]) : state.violations = #[] := by
  induction fuel generalizing state done with
  | zero => exact hclean
  | succ fuel ih =>
    rw [Inspection.run] at hclean
    split at hclean
    · exact hclean
    · rename_i id rest hpending
      have hlt := h.distinct.lt_size id (by simp [hpending])
      obtain ⟨_, hreached, hvisit, -⟩ := visit_reached { state with pending := rest } h.size hlt
      exact (hvisit.mp (ih (h.step hpending hreached) hclean)).1

theorem Flawless.reaches_of_mem (h : Flawless tree root state done) : ∀ id ∈ done ++ state.pending, tree.Reaches root id := by
  intro id hid
  rcases List.mem_cons.mp (h.perm.mem_iff.mpr hid) with rfl | hchild
  · exact .refl
  · obtain ⟨parent, hparent, hchild⟩ := List.mem_flatMap.mp hchild
    exact (h.reaches parent hparent).tail hchild

theorem Flawless.step {rest : List NodeId} (h : Flawless tree root state done) (hpending : state.pending = id :: rest)
    (htidy : tree.Tidy id) (hfresh : Fresh tree state id) :
    Flawless tree root (visit tree { state with pending := rest } id) (id :: done) := by
  have hmem : id ∈ done ++ state.pending := by simp [hpending]
  obtain ⟨reached, hreached, hclean, hall⟩ := visit_reached { state with pending := rest }
    h.accounted.size (h.accounted.distinct.lt_size id hmem)
  have hstill := hclean.mpr ⟨h.clean, htidy, hfresh.distinct, hfresh.unseen⟩
  obtain rfl := hall hstill
  refine ⟨h.accounted.step hpending hreached, hstill, List.forall_mem_cons.mpr ⟨htidy, h.tidy⟩,
    List.forall_mem_cons.mpr ⟨h.reaches_of_mem id hmem, h.reaches⟩, ?_⟩
  rw [hreached.pending]
  refine .trans ?_ perm_step.symm
  rw [← hpending, List.flatMap_cons]
  exact List.perm_middle.symm.trans (h.perm.append_left _)

theorem Flawless.run (h : Flawless tree root state done) {fuel : Nat}
    (hclean : (Inspection.run tree fuel state).violations = #[]) :
    ∃ done, Flawless tree root (Inspection.run tree fuel state) done := by
  induction fuel generalizing state done with
  | zero => exact ⟨done, h⟩
  | succ fuel ih =>
    rw [Inspection.run] at hclean ⊢
    split at hclean
    · exact ⟨done, h⟩
    · rename_i id rest hpending
      have hlt := h.accounted.distinct.lt_size id (by simp [hpending])
      obtain ⟨_, hreached, hvisit, -⟩ :=
        visit_reached { state with pending := rest } h.accounted.size hlt
      have hstill := (h.accounted.step hpending hreached).clean_of_run hclean
      obtain ⟨-, htidy, hfresh⟩ := hvisit.mp hstill
      exact ih (h.step hpending htidy ⟨hfresh.distinct, hfresh.unseen⟩) hclean

end Inspection

section

variable {root id child parent other : NodeId}

theorem Sound.tidy (h : tree.Sound root) (hreached : tree.Reaches root id) : tree.Tidy id :=
  ⟨h.filled id hreached, h.inside id hreached, h.ordered id hreached⟩

theorem Sound.exists_node (h : tree.Sound root) (hreached : tree.Reaches root id) : ∃ node, tree.get? id = some node := by
  cases hreached with
  | refl => exact h.root_exists
  | tail hparent hchild => exact h.children_exist _ hparent _ hchild

theorem Sound.lt_size (h : tree.Sound root) (hreached : tree.Reaches root id) : id.index < tree.size :=
  have ⟨_, hnode⟩ := h.exists_node hreached
  (Array.getElem?_eq_some_iff.mp hnode).1

theorem Sound.place_unique (h : tree.Sound root) {first second : Nat} (hparent : tree.Reaches root parent)
    (hother : tree.Reaches root other) (hfirst : (tree.children parent)[first]? = some child)
    (hsecond : (tree.children other)[second]? = some child) : parent = other ∧ first = second := by
  have hchild : child ∈ tree.children parent := List.mem_of_getElem? hfirst
  have hne : child ≠ root := fun heq => h.root_free parent hparent (heq ▸ hchild)
  obtain ⟨_, -, hunique⟩ := h.once child (hparent.tail hchild) hne
  exact Prod.mk.inj ((hunique (parent, first) ⟨hparent, hfirst⟩).trans (hunique (other, second) ⟨hother, hsecond⟩).symm)

theorem Sound.parent_unique (h : tree.Sound root) (hparent : tree.Reaches root parent) (hother : tree.Reaches root other)
    (hfirst : tree.HasChild parent child) (hsecond : tree.HasChild other child) : parent = other := by
  obtain ⟨_, hfirst⟩ := List.mem_iff_getElem?.mp hfirst
  obtain ⟨_, hsecond⟩ := List.mem_iff_getElem?.mp hsecond
  exact (h.place_unique hparent hother hfirst hsecond).1

theorem Sound.children_nodup (h : tree.Sound root) (hreached : tree.Reaches root id) : (tree.children id).Nodup := by
  rw [List.nodup_iff_getElem?_ne_getElem?]
  intro first second hlt hsecond heq
  have hplace := List.getElem?_eq_getElem hsecond
  exact absurd (h.place_unique hreached hreached (heq.trans hplace) hplace).2 (Nat.ne_of_lt hlt)

theorem Sound.not_isAbove_self (h : tree.Sound root) (hreached : tree.Reaches root id) : ¬tree.IsAbove id id := by
  induction hreached with
  | refl =>
    intro habove
    obtain ⟨parent, hparent, hchild⟩ := Relation.TransGen.tail'_iff.mp habove
    exact h.root_free parent hparent hchild
  | tail hparent hchild ih =>
    intro habove
    obtain ⟨last, hlast, hback⟩ := Relation.TransGen.tail'_iff.mp habove
    obtain rfl := h.parent_unique ((hparent.tail hchild).trans hlast) hparent hback hchild
    exact ih (.head' hchild hlast)

theorem Sound.acyclic (h : tree.Sound root) : tree.Acyclic root :=
  fun _ _ hreached _ => h.not_isAbove_self hreached

end

namespace Inspection

variable {state : Inspection}

theorem Flawless.fresh {rest : List NodeId} (h : Flawless tree root state done) (hsound : tree.Sound root)
    (hpending : state.pending = id :: rest) : Fresh tree state id := by
  have hreached := h.reaches_of_mem id (by simp [hpending])
  refine ⟨⟨hsound.children_nodup hreached, fun child hchild => hsound.lt_size (hreached.tail hchild)⟩, fun child hchild => ?_⟩
  rw [← Bool.not_eq_true, h.accounted.seen, ← h.perm.mem_iff, List.mem_cons, List.mem_flatMap]
  rintro (rfl | ⟨parent, hparent, hother⟩)
  · exact hsound.root_free id hreached hchild
  · obtain rfl := hsound.parent_unique (h.reaches parent hparent) hreached hother hchild
    have hnodup := h.accounted.distinct.nodup
    rw [hpending, List.nodup_append'] at hnodup
    exact hnodup.2.2 hparent List.mem_cons_self

theorem Flawless.clean_run (h : Flawless tree root state done) (hsound : tree.Sound root) (fuel : Nat) :
    (Inspection.run tree fuel state).violations = #[] := by
  induction fuel generalizing state done with
  | zero => exact h.clean
  | succ fuel ih =>
    rw [Inspection.run]
    split
    · exact h.clean
    · rename_i id rest hpending
      have hreached := h.reaches_of_mem id (by simp [hpending])
      exact ih (h.step hpending (hsound.tidy hreached) (h.fresh hsound hpending))

theorem Flawless.sound (h : Flawless tree root state done) (hpending : state.pending = []) : tree.Sound root := by
  obtain ⟨⟨-, -, hdistinct⟩, -, htidy, hreaches, hperm⟩ := h
  rw [hpending, List.append_nil] at hdistinct hperm
  exact sound_of_perm hperm hdistinct.nodup hreaches htidy

def start (tree : Tree) (root : NodeId) : Inspection := reach ⟨Array.replicate tree.size false, [], #[]⟩ root

theorem Flawless.start {node : Node} (hnode : tree.get? root = some node) :
    Flawless tree root (start tree root) [] := by
  have hlt : root.index < tree.size := (Array.getElem?_eq_some_iff.mp hnode).1
  refine ⟨⟨?_, fun id => ?_, List.nodup_singleton root, List.forall_mem_singleton.mpr hlt⟩, rfl, nofun, nofun, .refl _⟩
  · simp [Inspection.start, reach]
  · rw [Inspection.start, hasSeen_reach (by simpa using hlt), hasSeen_replicate]
    simp [reach]

theorem check_eq_run {node : Node} (hnode : tree.get? root = some node) :
    tree.check root = (run tree tree.size (start tree root)).violations := by
  simp only [check, hnode]
  rfl

end Inspection

theorem check_eq_empty_iff : tree.check root = #[] ↔ tree.Sound root := by
  cases hnode : tree.get? root with
  | none =>
    have hbad : ¬tree.Sound root := fun h => by
      obtain ⟨_, hfound⟩ := h.root_exists
      cases hnode.symm.trans hfound
    simp [check, hnode, hbad]
  | some node =>
    have hstart := Inspection.Flawless.start hnode
    rw [Inspection.check_eq_run hnode]
    constructor
    · intro hclean
      obtain ⟨_, h⟩ := hstart.run hclean
      exact h.sound (hstart.accounted.run tree.size (Nat.le_add_right _ _))
    · exact fun hsound => hstart.clean_run hsound tree.size

theorem Sound.exists_forest (h : tree.Sound root) {depth : Nat} {calls : List Call} {listed final : Array NodeId}
    (htraverses : Traverses tree lister ids depth listed calls final) (hreached : ∀ id ∈ ids, tree.Reaches root id) :
    ∃ nodes, tree.Forest ids nodes ∧ final = listed ++ nodes.toArray := by
  induction htraverses with
  | nil => exact ⟨[], .nil, by simp⟩
  | missing hnode =>
    obtain ⟨_, hfound⟩ := h.exists_node (hreached _ List.mem_cons_self)
    cases hnode.symm.trans hfound
  | skipped _ henter => cases henter
  | @entered id node rest _ _ _ _ _ _ _ hnode henter _ _ ihchildren ihrest =>
    obtain ⟨hhere, hbeyond⟩ := List.forall_mem_cons.mp hreached
    have hfilled := h.filled id hhere
    rw [payload, hnode] at hfilled
    obtain ⟨below, hbelow, hlisted⟩ := ihchildren fun child hchild =>
      hhere.tail (by rwa [HasChild, children_of_get? hnode])
    obtain ⟨beyond, hrest, hfinal⟩ := ihrest hbeyond
    obtain rfl := (Prod.mk.inj henter).2
    refine ⟨_, .cons hnode hfilled hbelow hrest, ?_⟩
    simp [hfinal, hlisted, lister]

variable {roots nodes : List NodeId}

theorem Forest.mem_iff (h : tree.Forest roots nodes) : id ∈ nodes ↔ ∃ root ∈ roots, tree.Reaches root id := by
  constructor
  · intro hmem
    induction h with
    | nil => cases hmem
    | @cons root node rest below beyond hnode _ _ _ ihbelow ihbeyond =>
      rcases List.mem_cons.mp hmem with rfl | hmem
      · exact ⟨id, List.mem_cons_self, .refl⟩
      · rcases List.mem_append.mp hmem with hmem | hmem
        · obtain ⟨child, hchild, hreaches⟩ := ihbelow hmem
          rw [← children_of_get? hnode] at hchild
          exact ⟨root, List.mem_cons_self, .head hchild hreaches⟩
        · obtain ⟨other, hother, hreaches⟩ := ihbeyond hmem
          exact ⟨other, List.mem_cons_of_mem _ hother, hreaches⟩
  · rintro ⟨root, hroot, hreaches⟩
    induction hreaches with
    | refl => exact h.perm_children.mem_iff.mpr (List.mem_append_left _ hroot)
    | tail _ hchild ih =>
      exact h.perm_children.mem_iff.mpr (List.mem_append_right _ (List.mem_flatMap.mpr ⟨_, ih, hchild⟩))

theorem Forest.sound (h : tree.Forest [root] nodes) (hnodup : nodes.Nodup) (hnested : ∀ id, tree.Nested id) :
    tree.Sound root := by
  refine sound_of_perm h.perm_children.symm hnodup (fun id hid => ?_)
    fun id hid => ⟨h.exists_filled id hid, (hnested id).inside, (hnested id).ordered.isChain⟩
  obtain ⟨_, htop, hreaches⟩ := h.mem_iff.mp hid
  exact List.mem_singleton.mp htop ▸ hreaches

theorem count_children_le (hnodup : (tree.children parent).Nodup)
    (honly : ∀ other ∈ nodes, child ∈ tree.children other → other = parent) :
    (nodes.flatMap tree.children).count child ≤ nodes.count parent := by
  induction nodes with
  | nil => simp
  | cons other rest ih =>
    obtain ⟨hother, hrest⟩ := List.forall_mem_cons.mp honly
    have hbeyond := ih hrest
    rw [List.flatMap_cons, List.count_append]
    by_cases heq : other = parent
    · subst heq
      have hhere := List.nodup_iff_count_le_one.mp hnodup child
      rw [List.count_cons_self]
      omega
    · rw [List.count_eq_zero_of_not_mem (mt hother heq), List.count_cons_of_ne heq]
      omega

theorem Sound.forest_nodup (hsound : tree.Sound root) (h : tree.Forest [root] nodes) : nodes.Nodup := by
  have hreaches : ∀ id, id ∈ nodes ↔ tree.Reaches root id := fun id => by simp [h.mem_iff]
  have hchildren : ∀ id, nodes.count id = [root].count id + (nodes.flatMap tree.children).count id := fun id => by
    rw [← List.count_append, h.perm_children.count_eq]
  rw [List.nodup_iff_count_eq_one]
  intro id hmem
  refine Nat.le_antisymm ?_ (List.count_pos_iff.mpr hmem)
  -- along the path from the root: a node is there no more often than its parent, and the root once
  induction (hreaches id).mp hmem with
  | refl =>
    have hroot : root ∉ nodes.flatMap tree.children := fun hroot => by
      obtain ⟨parent, hparent, hchild⟩ := List.mem_flatMap.mp hroot
      exact hsound.root_free parent ((hreaches parent).mp hparent) hchild
    rw [hchildren, List.count_eq_zero_of_not_mem hroot, List.count_singleton_self]
  | @tail parent child hparent hchild ih =>
    have hne : root ≠ child := fun heq => hsound.root_free parent hparent (heq ▸ hchild)
    have hle := count_children_le (hsound.children_nodup hparent) fun other hother hback =>
      hsound.parent_unique ((hreaches other).mp hother) hparent hback hchild
    have honce := ih ((hreaches parent).mpr hparent)
    rw [hchildren, List.count_eq_zero_of_not_mem (by simpa using hne.symm)]
    omega

theorem Sound.nested (h : tree.Sound root) (hreached : tree.Reaches root id) : tree.Nested id := by
  let Before (child next : NodeId) : Prop := (tree.range child).stop ≤ (tree.range next).start
  have htrans : Trans Before Before Before :=
    ⟨fun {_ middle _} hfirst hsecond => hfirst.trans ((tree.range middle).start_le_stop.trans hsecond)⟩
  exact ⟨h.inside id hreached, (h.ordered id hreached).pairwise⟩

theorem Sound.forest_sorted (hsound : tree.Sound root) (h : tree.Forest roots nodes)
    (hreached : ∀ id ∈ roots, tree.Reaches root id)
    (hordered : roots.Pairwise fun child next => (tree.range child).stop ≤ (tree.range next).start) :
    nodes.Pairwise (fun first second => (tree.range first).start ≤ (tree.range second).start) ∧
      ∀ id ∈ nodes, ∃ top ∈ roots, (tree.range top).contains (tree.range id) = true := by
  simp only [Range.contains, Bool.and_eq_true, decide_eq_true_iff]
  induction h with
  | nil => exact ⟨.nil, nofun⟩
  | @cons top node rest below beyond hnode _ _ _ ihbelow ihbeyond =>
    obtain ⟨hhere, hreached⟩ := List.forall_mem_cons.mp hreached
    obtain ⟨hfirst, hordered⟩ := List.pairwise_cons.mp hordered
    have hnested := hsound.nested hhere
    rw [← children_of_get? hnode] at ihbelow
    obtain ⟨hsorted, hinside⟩ := ihbelow (fun child hchild => hhere.tail hchild) hnested.ordered
    obtain ⟨hsortedBeyond, houtside⟩ := ihbeyond hreached hordered
    have hbelow : ∀ id ∈ below, (tree.range top).start ≤ (tree.range id).start ∧
        (tree.range id).stop ≤ (tree.range top).stop := fun id hid => by
      obtain ⟨child, hchild, hin⟩ := hinside id hid
      have hcontains := hnested.inside child hchild
      simp only [Range.contains, Bool.and_eq_true, decide_eq_true_iff] at hcontains
      omega
    have hbeyond : ∀ id ∈ beyond, (tree.range top).stop ≤ (tree.range id).start := fun id hid => by
      obtain ⟨other, hother, hin⟩ := houtside id hid
      exact (hfirst other hother).trans hin.1
    have htop := (tree.range top).start_le_stop
    constructor
    · refine List.pairwise_cons.mpr ⟨fun id hid => ?_, List.pairwise_append.mpr ⟨hsorted, hsortedBeyond, ?_⟩⟩
      · rcases List.mem_append.mp hid with hid | hid
        · exact (hbelow id hid).1
        · exact htop.trans (hbeyond id hid)
      · intro first hfirst second hsecond
        have hstop := (hbelow first hfirst).2
        exact (tree.range first).start_le_stop.trans (hstop.trans (hbeyond second hsecond))
    · refine List.forall_mem_cons.mpr ⟨⟨top, List.mem_cons_self, by omega⟩, fun id hid => ?_⟩
      rcases List.mem_append.mp hid with hid | hid
      · exact ⟨top, List.mem_cons_self, hbelow id hid⟩
      · obtain ⟨other, hother, hin⟩ := houtside id hid
        exact ⟨other, List.mem_cons_of_mem _ hother, hin⟩

/-- The check goes on until nothing is pending, with whatever fuel from the number of nodes on; it finds nothing just in
case the tree is sound; and then every walk is a recursion that ends, and the nodes are listed once each, in order. -/
theorem check_decides (tree : Tree) (root : NodeId) :
    ((∃ node, tree.get? root = some node) → ∀ fuel, tree.size ≤ fuel →
      (Inspection.run tree fuel (.start tree root)).pending = [] ∧
        (Inspection.run tree fuel (.start tree root)).violations = tree.check root) ∧
    (tree.check root = #[] ↔ tree.Sound root) ∧
    (tree.check root = #[] →
      (∀ {σ : Type} (visitor : Visitor σ) (state : σ),
        ∃ calls, Traverses tree visitor [root] 0 state calls (tree.walk visitor root state)) ∧
      (tree.preorder root).toList.Nodup ∧ (∀ id, id ∈ tree.preorder root ↔ tree.Reaches root id) ∧
      (tree.preorder root).toList.Pairwise fun first second =>
        (tree.range first).start ≤ (tree.range second).start) := by
  refine ⟨?_, check_eq_empty_iff, fun hclean => ?_⟩
  · rintro ⟨node, hnode⟩ fuel hfuel
    have hstart := (Inspection.Flawless.start hnode).accounted
    have hended := hstart.run tree.size (Nat.le_add_right _ _)
    obtain ⟨more, rfl⟩ := Nat.exists_eq_add_of_le hfuel
    rw [Inspection.run_add, Inspection.run_of_pending_nil hended]
    exact ⟨hended, (Inspection.check_eq_run hnode).symm⟩
  · have hsound := check_eq_empty_iff.mp hclean
    obtain ⟨calls, htraverses⟩ := hsound.acyclic.exists_walk lister #[]
    obtain ⟨nodes, hforest, hfinal⟩ :=
      hsound.exists_forest htraverses (List.forall_mem_singleton.mpr .refl)
    have hpreorder : tree.preorder root = nodes.toArray := hfinal.trans (by simp)
    rw [hpreorder]
    refine ⟨fun visitor state => hsound.acyclic.exists_walk visitor state, hsound.forest_nodup hforest, fun id => ?_, ?_⟩
    · simp [hforest.mem_iff]
    · exact (hsound.forest_sorted hforest (List.forall_mem_singleton.mpr .refl) (List.pairwise_singleton _ root)).1

def sum : Tree :=
  ⟨#[⟨.ofLength 0 1, .expr (.literal .integer "1")⟩, ⟨.ofLength 4 1, .expr (.literal .integer "2")⟩,
    ⟨.ofLength 0 5, .expr (.binary .add ⟨0⟩ ⟨1⟩)⟩]⟩

theorem check_sum : sum.check ⟨2⟩ = #[] ∧ (Inspection.run sum 7 (.start sum ⟨2⟩)).pending = [] ∧ sum.Sound ⟨2⟩ ∧
    (sum.preorder ⟨2⟩).toList.Nodup ∧ ⟨1⟩ ∈ sum.preorder ⟨2⟩ := by
  obtain ⟨hends, hsound, hwalks⟩ := check_decides sum ⟨2⟩
  have hclean : sum.check ⟨2⟩ = #[] := by decide
  obtain ⟨-, hnodup, hmem, -⟩ := hwalks hclean
  have hchild : sum.HasChild ⟨2⟩ ⟨1⟩ := show _ ∈ sum.children ⟨2⟩ by decide
  exact ⟨hclean, (hends ⟨_, rfl⟩ 7 (by decide)).1, hsound.mp hclean, hnodup, (hmem ⟨1⟩).mpr (.single hchild)⟩

end Tree

end AdaSyntax
