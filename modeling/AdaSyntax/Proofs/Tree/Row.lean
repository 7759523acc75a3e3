import AdaSyntax.Token.Basic
import AdaSyntax.Tree.Basic

namespace AdaSyntax

def tokenStart (tokens : Array Token) (position : Nat) : Nat :=
  (tokens[position]?.map (·.range.start)).getD 0

def tokenStop (tokens : Array Token) : Nat → Nat
  | 0 => tokenStart tokens 0
  | position + 1 => (tokens[position]?.map (·.range.stop)).getD 0

def tokenSpan (tokens : Array Token) (start stop : Nat) : Range :=
  .upTo (tokenStart tokens start) (tokenStop tokens stop)

inductive Row (tokens : Array Token) (tree : Tree) : Nat → Nat → List NodeId → List NodeId → Prop where
  | nil {low high : Nat} (hle : low ≤ high) : Row tokens tree low high [] []
  | cons {low high start stop : Nat} {id : NodeId} {node : Node} {rest below beyond : List NodeId}
      (hlow : low ≤ start) (hhigh : start < high) (hnode : tree.get? id = some node)
      (hfilled : node.payload.isPlaceholder = false) (hrange : node.range = tokenSpan tokens start stop)
      (hbelow : Row tokens tree start stop node.payload.children below)
      (hbeyond : Row tokens tree stop high rest beyond) :
      Row tokens tree low high (id :: rest) (id :: (below ++ beyond))

namespace Row

variable {tokens : Array Token} {tree later : Tree} {low high : Nat} {roots nodes : List NodeId}

theorem le (h : Row tokens tree low high roots nodes) : low ≤ high := by
  induction h with
  | nil hle => exact hle
  | cons hlow _ _ _ _ _ _ ihbelow ihbeyond => omega

theorem lt_of_ne_nil (h : Row tokens tree low high roots nodes) (hne : roots ≠ []) : low < high := by
  cases h with
  | nil => exact absurd rfl hne
  | cons hlow hhigh => omega

theorem mono_low {low' : Nat} (h : Row tokens tree low high roots nodes) (hlow : low' ≤ low) :
    Row tokens tree low' high roots nodes := by
  cases h with
  | nil hle => exact .nil (by omega)
  | cons hstart hhigh hnode hfilled hrange hbelow hbeyond =>
    exact .cons (by omega) hhigh hnode hfilled hrange hbelow hbeyond

theorem mono_high {high' : Nat} (h : Row tokens tree low high roots nodes) (hhigh : high ≤ high') :
    Row tokens tree low high' roots nodes := by
  induction h with
  | nil hle => exact .nil (by omega)
  | cons hstart hlt hnode hfilled hrange hbelow _ _ ihbeyond =>
    exact .cons hstart (by omega) hnode hfilled hrange hbelow (ihbeyond hhigh)

theorem append {middle : Nat} {roots' nodes' : List NodeId}
    (h : Row tokens tree low middle roots nodes) (h' : Row tokens tree middle high roots' nodes') :
    Row tokens tree low high (roots ++ roots') (nodes ++ nodes') := by
  induction h with
  | nil hle => exact h'.mono_low hle
  | cons hstart hlt hnode hfilled hrange hbelow _ _ ihbeyond =>
    have hle := h'.le
    rw [List.cons_append, List.cons_append, List.append_assoc]
    exact .cons hstart (by omega) hnode hfilled hrange hbelow (ihbeyond h')

theorem transfer (h : Row tokens tree low high roots nodes)
    (hsame : ∀ id ∈ nodes, later.get? id = tree.get? id) :
    Row tokens later low high roots nodes := by
  induction h with
  | nil hle => exact .nil hle
  | cons hstart hlt hnode hfilled hrange _ _ ihbelow ihbeyond =>
    refine .cons hstart hlt ?_ hfilled hrange (ihbelow ?_) (ihbeyond ?_)
    · rw [hsame _ List.mem_cons_self, hnode]
    · exact fun id hid => hsame id (List.mem_cons_of_mem _ (List.mem_append_left _ hid))
    · exact fun id hid => hsame id (List.mem_cons_of_mem _ (List.mem_append_right _ hid))

theorem parent {high' : Nat} {id : NodeId} {node : Node}
    (h : Row tokens tree low high node.payload.children nodes) (hlt : low < high') (hle : high ≤ high')
    (hnode : tree.get? id = some node) (hfilled : node.payload.isPlaceholder = false)
    (hrange : node.range = tokenSpan tokens low high) :
    Row tokens tree low high' [id] (id :: nodes) := by
  have hrow := Row.cons (Nat.le_refl low) hlt hnode hfilled hrange h (.nil hle)
  rwa [List.append_nil] at hrow

end Row

def nodesBetween (low high : Nat) : List NodeId := (List.range' low (high - low)).map NodeId.mk

theorem mem_nodesBetween {low high : Nat} {id : NodeId} :
    id ∈ nodesBetween low high ↔ low ≤ id.index ∧ id.index < high := by
  simp only [nodesBetween, List.mem_map, List.mem_range'_1]
  constructor
  · rintro ⟨index, hindex, rfl⟩
    exact ⟨hindex.1, by simp only; omega⟩
  · exact fun h => ⟨id.index, by omega, rfl⟩

theorem nodesBetween_append {low middle high : Nat} (h : low ≤ middle) (h' : middle ≤ high) :
    nodesBetween low middle ++ nodesBetween middle high = nodesBetween low high := by
  have hmiddle : middle = low + (middle - low) := by omega
  have hhigh : high - low = (middle - low) + (high - middle) := by omega
  rw [nodesBetween, nodesBetween, nodesBetween, ← List.map_append, hhigh]
  conv => lhs; rw [show List.range' middle (high - middle) =
    List.range' (low + (middle - low)) (high - middle) by rw [← hmiddle]]
  rw [List.range'_append_1]

theorem nodup_nodesBetween (low high : Nat) : (nodesBetween low high).Nodup :=
  List.Pairwise.map _ (fun _ _ hne heq => hne (NodeId.mk.inj heq)) List.nodup_range'

theorem nodesBetween_self (index : Nat) : nodesBetween index index = [] := by
  simp [nodesBetween]

theorem nodesBetween_succ (index : Nat) : nodesBetween index (index + 1) = [⟨index⟩] := by
  simp [nodesBetween]

end AdaSyntax
