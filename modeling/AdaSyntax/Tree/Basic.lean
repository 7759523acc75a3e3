import AdaSyntax.Diagnostic.Log
import AdaSyntax.Tree.Payload

/-!
Trees. The nodes lie in one array and name their children by number. A node is added when its children
are complete; a construct that must be named from inside of itself reserves its node first.
-/

namespace AdaSyntax

structure Node where
  range : Range
  payload : Payload Range
deriving DecidableEq

structure Tree where
  nodes : Array Node
deriving DecidableEq

namespace Tree

def empty : Tree := ⟨#[]⟩

def size (tree : Tree) : Nat := tree.nodes.size

def get? (tree : Tree) (id : NodeId) : Option Node := tree.nodes[id.index]?

def payload (tree : Tree) (id : NodeId) : Payload Range :=
  match tree.get? id with
  | some node => node.payload
  | none => .placeholder

def range (tree : Tree) (id : NodeId) : Range :=
  match tree.get? id with
  | some node => node.range
  | none => .empty 0

def children (tree : Tree) (id : NodeId) : List NodeId := (tree.payload id).children

def add (tree : Tree) (range : Range) (payload : Payload Range) : NodeId × Tree :=
  (⟨tree.size⟩, ⟨tree.nodes.push ⟨range, payload⟩⟩)

def reserve (tree : Tree) (range : Range) : NodeId × Tree := tree.add range .placeholder

/-- Fills a reserved node; no other node can be filled, and not with another placeholder. -/
def fill (tree : Tree) (id : NodeId) (range : Range) (payload : Payload Range) :
    Except Fatal Tree :=
  match tree.get? id with
  | none => .error (.invalidBackfill id)
  | some node =>
    if node.payload.isPlaceholder && !payload.isPlaceholder then
      .ok ⟨tree.nodes.setIfInBounds id.index ⟨range, payload⟩⟩
    else .error (.invalidBackfill id)

def truncate (tree : Tree) (size : Nat) : Tree := ⟨tree.nodes.shrink size⟩

def spelling (tree : Tree) : Nat → NodeId → String
  | 0, _ => "<name>"
  | fuel + 1, id =>
    match tree.payload id with
    | .name (.identifier name ..) => name.text
    | .name (.selected base selector ..) => tree.spelling fuel base ++ "." ++ selector.text
    | _ => "<name>"

end Tree

end AdaSyntax
