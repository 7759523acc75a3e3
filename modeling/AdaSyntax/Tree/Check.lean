import AdaSyntax.Tree.Basic

/-!
The check that the nodes below a root form a sound tree: nothing is missing or still reserved, no node
has two parents, and children lie inside their parent, one behind the other.
-/

namespace AdaSyntax

inductive TreeViolation where
  | placeholder (node : NodeId)
  | sharedChild (node : NodeId)
  | dangling (parent child : NodeId)
  | outsideParent (parent child : NodeId)
  | outOfOrder (parent child : NodeId)
deriving DecidableEq

def TreeViolation.message : TreeViolation → String
  | placeholder node => "node " ++ toString node.index ++ " is an unfilled placeholder"
  | sharedChild node =>
    "node " ++ toString node.index ++ " is referenced by more than one parent"
  | dangling parent child =>
    "node " ++ toString parent.index ++ " refers to missing child " ++ toString child.index
  | outsideParent parent child =>
    "child " ++ toString child.index ++ " lies outside parent " ++ toString parent.index
  | outOfOrder _ child =>
    "child " ++ toString child.index ++ " starts before the end of its previous sibling"

namespace Tree

structure Inspection where
  seen : Array Bool
  pending : List NodeId
  violations : Array TreeViolation

namespace Inspection

def hasSeen (state : Inspection) (id : NodeId) : Bool := state.seen.getD id.index false

def complain (state : Inspection) (violation : TreeViolation) : Inspection :=
  { state with violations := state.violations.push violation }

def complainIf (state : Inspection) (condition : Bool) (violation : TreeViolation) : Inspection :=
  if condition then state.complain violation else state

def reach (state : Inspection) (id : NodeId) : Inspection :=
  { state with seen := state.seen.setIfInBounds id.index true, pending := id :: state.pending }

/-- Goes through the children of a node; `previousEnd` is where the last accepted one ends. -/
def visitChildren (tree : Tree) (parent : NodeId) (range : Range) (previousEnd : Option Nat)
    (state : Inspection) : List NodeId → Inspection
  | [] => state
  | child :: rest =>
    match tree.get? child with
    | none =>
      visitChildren tree parent range previousEnd (state.complain (.dangling parent child)) rest
    | some node =>
      if state.hasSeen child then
        visitChildren tree parent range previousEnd (state.complain (.sharedChild child)) rest
      else
        let early := previousEnd.any fun stop => node.range.start < stop
        let state := state.complainIf (!range.contains node.range) (.outsideParent parent child)
        let state := state.complainIf early (.outOfOrder parent child)
        visitChildren tree parent range (some node.range.stop) (state.reach child) rest

def visit (tree : Tree) (state : Inspection) (id : NodeId) : Inspection :=
  match tree.get? id with
  | none => state
  | some node =>
    if node.payload.isPlaceholder then state.complain (.placeholder id)
    else visitChildren tree id node.range none state node.payload.children

/-- Each node is pending at most once, so `fuel` need not exceed the number of nodes. -/
def run (tree : Tree) : Nat → Inspection → Inspection
  | 0, state => state
  | fuel + 1, state =>
    match state.pending with
    | [] => state
    | id :: rest => run tree fuel (visit tree { state with pending := rest } id)

end Inspection

def check (tree : Tree) (root : NodeId) : Array TreeViolation :=
  match tree.get? root with
  | none => #[.dangling root root]
  | some _ =>
    let start : Inspection := ⟨Array.replicate tree.size false, [], #[]⟩
    (Inspection.run tree tree.size (start.reach root)).violations

end Tree

end AdaSyntax
