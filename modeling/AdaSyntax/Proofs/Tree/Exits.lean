import AdaSyntax.Proofs.Tree.Cast
import Mathlib.Data.List.Basic

namespace AdaSyntax

namespace Bracket

def enter (loops : List NodeId) : Bracket → List NodeId
  | plain => loops
  | loop node => node :: loops
  | body => []

def within (loops : List NodeId) (brackets : List Bracket) : List NodeId := brackets.foldl enter loops

def around (brackets : List Bracket) : List NodeId := brackets.foldr (fun bracket loops => bracket.enter loops) []

theorem around_append (opened brackets : List Bracket) :
    around (opened.reverse ++ brackets) = within (around brackets) opened := by
  rw [around, List.foldr_append, List.foldr_reverse]
  rfl

theorem within_append (loops : List NodeId) (outer inner : List Bracket) :
    within loops (outer ++ inner) = within (within loops outer) inner :=
  List.foldl_append

theorem within_filter (loops : List NodeId) (brackets : List Bracket) :
    within loops (brackets.filter (!·.isPlain)) = within loops brackets := by
  induction brackets generalizing loops with
  | nil => rfl
  | cons bracket brackets ih => cases bracket <;> exact ih _

end Bracket

namespace Role

def isStatement : Role → Bool
  | statement _ => true
  | _ => false

def loops (around : List NodeId) : Role → List NodeId
  | statement inner => Bracket.within around inner
  | _ => []

theorem loops_within (around : List NodeId) (outer : List Bracket) (role : Role) :
    (role.within outer).loops around = role.loops (Bracket.within around outer) := by
  cases role with
  | statement inner =>
    rw [within_statement, loops, loops, Bracket.within_append, Bracket.within_filter]
  | _ => rfl

end Role

namespace Payload

variable {ρ σ : Type}

def bracket (node : NodeId) : Payload ρ → Bracket
  | stmt (.loop ..) => .loop node
  | decl (.subprogramBody ..) | decl (.packageBody ..) => .body
  | _ => .plain

theorem isExit_map (f : ρ → σ) (payload : Payload ρ) : (payload.map f).isExit = payload.isExit := by
  cases payload with
  | stmt part => cases part <;> rfl
  | _ => rfl

theorem of_statement_mem {payload : Payload ρ} {node child : NodeId} {role : Role} {inner : List Bracket}
    (h : ⟨child, .statement inner⟩ ∈ payload.pieces node role) :
    inner = [payload.bracket node].filter (!·.isPlain) ∧
      (payload.isStatement = true ∨ payload.bracket node = .body) := by
  have hmark : .statement inner ≠ role.ofMark := by cases role <;> nofun
  have hbase : .statement inner ≠ role.ofPrefix := by cases role <;> nofun
  cases payload with
  | unit part => cases part <;> simp [Piece.mem_many] at h
  | decl part =>
    cases part with
    | renames name kind renamed => cases kind <;> simp at h
    | subprogramBody | packageBody =>
      obtain ⟨-, rfl⟩ : _ ∧ inner = [.body] := by simpa [Piece.mem_many] using h
      exact ⟨rfl, .inr rfl⟩
    | _ => simp [Piece.mem_many] at h
  | type part => cases part <;> simp [Piece.mem_many] at h
  | expr part => cases part <;> simp [Piece.mem_many, hmark] at h
  | name part => cases part <;> simp [Piece.mem_many, hbase] at h
  | stmt part =>
    refine ⟨?_, .inl rfl⟩
    cases part <;> simp [Piece.mem_many, ← or_and_right] at h <;> exact h.2
  | placeholder => cases h

variable {payload : Payload ρ} {node : NodeId} {role : Role} {piece : Piece}

theorem not_isStatement (hadmits : role.admits payload = true) (hrole : role.isStatement = false) :
    payload.isStatement = false := by
  cases payload with
  | stmt =>
    cases role with
    | statement => cases hrole
    | _ => cases hadmits
  | _ => rfl

theorem closed_pieces (hadmits : role.admits payload = true) (hrole : role.isStatement = false) :
    payload.bracket node = .body ∨ ∀ piece ∈ payload.pieces node role, piece.role.isStatement = false := by
  by_cases hbody : payload.bracket node = .body
  · exact .inl hbody
  refine .inr fun ⟨child, role'⟩ hpiece => ?_
  cases role' with
  | statement inner =>
    rcases (of_statement_mem hpiece).2 with hstatement | hbracket
    · cases (not_isStatement hadmits hrole).symm.trans hstatement
    · exact absurd hbracket hbody
  | _ => rfl

theorem loops_pieces (hadmits : role.admits payload = true) (hfresh : role.isFresh = true)
    (hpiece : piece ∈ payload.pieces node role) (hstatement : piece.role.isStatement = true)
    (around : List NodeId) : piece.role.loops around = (payload.bracket node).enter (role.loops around) := by
  obtain ⟨child, role'⟩ := piece
  obtain ⟨inner, rfl⟩ : ∃ inner, role' = .statement inner := by
    cases role' <;> first | exact ⟨_, rfl⟩ | cases hstatement
  obtain ⟨rfl, hkind⟩ := of_statement_mem hpiece
  rw [Role.loops, Bracket.within_filter]
  change (payload.bracket node).enter around = _
  by_cases hrole : role.isStatement = true
  · -- a fresh statement has no brackets around it yet
    obtain rfl : role = .statement [] := by
      cases role with
      | statement outer => cases outer <;> first | rfl | cases hfresh
      | _ => cases hrole
    rfl
  · have hnot := not_isStatement hadmits (Bool.eq_false_iff.mpr hrole)
    rcases hkind with hpayload | hbody
    · cases hnot.symm.trans hpayload
    · rw [hbody]
      rfl

end Payload

namespace Tree

/-- The exit statements of a subtree in the order of the text, each with the loops that it may leave. A tree
is no higher than it has nodes. -/
def exits (tree : Tree) : Nat → List NodeId → NodeId → List (NodeId × List NodeId)
  | 0, _, _ => []
  | height + 1, loops, id =>
    (if (tree.payload id).isExit then [(id, loops)] else []) ++
      (tree.children id).flatMap (tree.exits height (((tree.payload id).bracket id).enter loops))

def exitsOf (tree : Tree) (height : Nat) (around : List NodeId) (piece : Piece) : List (NodeId × List NodeId) :=
  tree.exits height (piece.role.loops around) piece.node

variable {tree : Tree} {pieces checks : List Piece} {nodes : List NodeId} {node : NodeId} {role role' : Role}
variable {entry : Node} {height : Nat} {around : List NodeId}

theorem exits_succ (hentry : tree.get? node = some entry) (loops : List NodeId) :
    tree.exits (height + 1) loops node = (if entry.payload.isExit then [(node, loops)] else []) ++
      (entry.payload.pieces node role).flatMap fun piece =>
        tree.exits height ((entry.payload.bracket node).enter loops) piece.node := by
  have hpayload := payload_of_get? hentry
  rw [exits, children, hpayload, ← Payload.map_node_pieces entry.payload node role, List.flatMap_map]

theorem flatMap_within (outer : List Bracket) :
    (pieces.map (Piece.within outer)).flatMap (tree.exitsOf height around) =
      pieces.flatMap (tree.exitsOf height (Bracket.within around outer)) := by
  rw [List.flatMap_map]
  refine congrArg (pieces.flatMap ·) (funext fun piece => ?_)
  rw [exitsOf, Piece.within, Role.loops_within, exitsOf]

namespace Cast

theorem exits_nodes (h : tree.Cast pieces nodes checks) (hheight : nodes.length ≤ height)
    (loops : Piece → List NodeId) :
    (pieces.flatMap fun piece => tree.exits height (loops piece) piece.node).map Prod.fst =
      nodes.filter fun id => (tree.payload id).isExit := by
  induction h generalizing height loops with
  | nil => rfl
  | @cons node role entry rest checks checks' below beyond hentry hadmits _ _ ihbelow ihbeyond =>
    rw [List.length_cons, List.length_append] at hheight
    obtain _ | height := height
    · cases hheight
    have hbelow := @ihbelow height (by omega) fun _ => (entry.payload.bracket node).enter (loops ⟨node, role⟩)
    have hbeyond := @ihbeyond (height + 1) (by omega) loops
    rw [List.flatMap_cons, exits_succ hentry, List.map_append, List.map_append, hbelow, hbeyond,
      List.filter_cons, payload_of_get? hentry, List.filter_append]
    split <;> simp

theorem exits_eq_nil (h : tree.Cast pieces nodes checks) (hheight : nodes.length ≤ height)
    (hnone : ∀ id ∈ nodes, (tree.payload id).isExit = false) :
    pieces.flatMap (tree.exitsOf height around) = [] := by
  have hnodes := h.exits_nodes hheight fun piece => piece.role.loops around
  rw [List.filter_eq_nil_iff.mpr (by simpa using hnone)] at hnodes
  exact List.map_eq_nil_iff.mp hnodes

theorem exits_closed (h : tree.Cast pieces nodes checks) {piece : Piece} (hpiece : piece ∈ pieces)
    (hclosed : piece.role.isStatement = false) (loops loops' : List NodeId) :
    tree.exits height loops piece.node = tree.exits height loops' piece.node := by
  induction h generalizing height loops loops' piece with
  | nil => cases hpiece
  | @cons node role entry rest checks checks' below beyond hentry hadmits _ _ ihbelow ihbeyond =>
    rcases List.mem_cons.mp hpiece with rfl | hpiece
    · obtain _ | height := height
      · rfl
      have hexit : entry.payload.isExit = false := by
        have hnot := Payload.not_isStatement hadmits hclosed
        cases hpayload : entry.payload <;> first | rfl | (rw [hpayload] at hnot; cases hnot)
      rw [exits_succ hentry, exits_succ hentry, hexit]
      rcases Payload.closed_pieces hadmits hclosed with hbody | hpieces
      · rw [hbody]
        rfl
      · exact congrArg _ (List.flatMap_congr fun child hchild => ihbelow hchild (hpieces child hchild) _ _)
    · exact ihbeyond hpiece hclosed loops loops'

theorem exits_parent (hentry : tree.get? node = some entry)
    (h : tree.Cast (entry.payload.pieces node role) nodes checks) (hadmits : role.admits entry.payload = true)
    (hfresh : role.isFresh = true) :
    tree.exitsOf (height + 1) around ⟨node, role⟩ =
      (if entry.payload.isExit then [(node, role.loops around)] else []) ++
        (entry.payload.pieces node role).flatMap (tree.exitsOf height around) := by
  rw [exitsOf, exits_succ hentry]
  refine congrArg _ (List.flatMap_congr fun piece hpiece => ?_)
  by_cases hstatement : piece.role.isStatement = true
  · rw [exitsOf, Payload.loops_pieces hadmits hfresh hpiece hstatement]
  · exact h.exits_closed hpiece (Bool.eq_false_iff.mpr hstatement) _ _

theorem exits_serve (h : tree.Cast [⟨node, role⟩] nodes checks) (hserves : role.Serves role') :
    tree.exitsOf height around ⟨node, role'⟩ = tree.exitsOf height around ⟨node, role⟩ := by
  cases hserves with
  | refl => rfl
  | _ => exact h.exits_closed (List.mem_singleton_self _) rfl _ _

end Cast

end Tree

end AdaSyntax
