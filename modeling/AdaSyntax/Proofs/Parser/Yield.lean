import AdaSyntax.Proofs.Tree.Piece

namespace AdaSyntax

structure Hole where
  node : NodeId
  start : Nat
  labels : List SymbolId
  range : Option NodeId
deriving DecidableEq

@[ext]
structure Yield where
  holes : List Hole := []
  pieces : List Piece := []
  /-- The open regions, the innermost last. -/
  opened : List Bracket := []
  /-- Positions of tokens that were consumed and matter still. -/
  places : List Nat := []
  /-- Whether nothing was declared, bound, reserved or opened. -/
  silent : Bool := true
  /-- Whether library units were bound, where a clause names them or where a unit is complete. -/
  files : Bool := false

namespace Yield

def empty : Yield := {}

def inside : List Bracket → List Piece → List Piece
  | [], pieces => pieces
  | outer, pieces => pieces.map (Piece.within outer)

def append (first second : Yield) : Yield where
  holes := first.holes ++ second.holes
  pieces := first.pieces ++ inside first.opened second.pieces
  opened := first.opened ++ second.opened
  places := first.places ++ second.places
  silent := first.silent && second.silent
  files := first.files || second.files

instance : Append Yield := ⟨append⟩

def loud (yield : Yield) : Yield := { yield with silent := false }

def filing (yield : Yield) : Yield := { yield with silent := false, files := true }

def opening (yield : Yield) (bracket : Bracket) : Yield :=
  { yield with opened := yield.opened ++ [bracket], silent := false }

def closing (yield : Yield) : Yield := { yield with opened := yield.opened.dropLast }

def reserving (yield : Yield) (node : NodeId) (start : Nat) : Yield :=
  { yield with holes := yield.holes ++ [⟨node, start, [], none⟩], silent := false }

def labeling (yield : Yield) (hole : Hole) (label : SymbolId) : Yield :=
  { yield with holes := [{ hole with labels := hole.labels ++ [label] }], silent := false }

def ranging (yield : Yield) (hole : Hole) (range : NodeId) : Yield :=
  { yield with holes := [{ hole with range := some range }], silent := false }

def filling (yield : Yield) : Yield := { yield with holes := [] }

def clearing (yield : Yield) : Yield := { yield with places := [] }

def fold (yield : Yield) (node : NodeId) (role : Role) : Yield :=
  { yield with pieces := [⟨node, role⟩], silent := yield.silent && role.isSilent }

def many (role : Role) (nodes : List NodeId) : Yield :=
  { pieces := Piece.many role nodes, silent := role.isSilent }

def one (role : Role) (node : NodeId) : Yield := { pieces := [⟨node, role⟩], silent := role.isSilent }

abbrev expression (node : NodeId) : Yield := one .expression node

abbrev declaration (node : NodeId) : Yield := one .declaration node

abbrev statement (node : NodeId) : Yield := one (.statement []) node

abbrev expressions (nodes : List NodeId) : Yield := many .expression nodes

abbrev declarations (nodes : List NodeId) : Yield := many .declaration nodes

abbrev statements (nodes : List NodeId) : Yield := many (.statement []) nodes

def place (position : Nat) : Yield := { places := [position] }

def names (names : List (DefiningName Nat)) : Yield := { places := names.map DefiningName.place }

inductive Recast : List Piece → List Piece → Prop where
  | refl (pieces : List Piece) : Recast pieces pieces
  | one {node : NodeId} {role role' : Role} (h : role.Serves role') : Recast [⟨node, role⟩] [⟨node, role'⟩]

structure Weakens (earlier later : Yield) : Prop where
  holes : later.holes = earlier.holes
  pieces : Recast earlier.pieces later.pieces
  opened : later.opened = earlier.opened
  places : ∀ place ∈ later.places, place ∈ earlier.places
  silent : later.silent = true → earlier.silent = true
  files : earlier.files = true → later.files = true

section

variable {first second third : Yield} {role role' : Role} {node : NodeId} {nodes nodes' : List NodeId}

theorem inside_eq (outer : List Bracket) (pieces : List Piece) :
    inside outer pieces = pieces.map (Piece.within outer) := by
  cases outer with
  | nil => exact (Piece.map_within_nil pieces).symm
  | cons => rfl

attribute [simp] empty loud filing opening closing reserving labeling ranging filling clearing fold many one place names

@[simp] theorem append_holes : (first ++ second).holes = first.holes ++ second.holes := rfl

@[simp] theorem append_pieces :
    (first ++ second).pieces = first.pieces ++ second.pieces.map (Piece.within first.opened) :=
  congrArg (first.pieces ++ ·) (inside_eq _ _)

@[simp] theorem append_opened : (first ++ second).opened = first.opened ++ second.opened := rfl

@[simp] theorem append_places : (first ++ second).places = first.places ++ second.places := rfl

@[simp] theorem append_silent : (first ++ second).silent = (first.silent && second.silent) := rfl

@[simp] theorem append_files : (first ++ second).files = (first.files || second.files) := rfl

@[simp] theorem append_empty : first ++ empty = first := by
  ext1 <;> simp [empty]

theorem loud_eq_self (h : first.silent = false) : first.loud = first := by
  rw [loud, ← h]

theorem filing_eq_self (h : first.silent = false) (hfiles : first.files = true) : first.filing = first := by
  rw [filing, ← h, ← hfiles]

namespace Weakens

theorem refl (yield : Yield) : yield.Weakens yield :=
  ⟨rfl, .refl _, rfl, fun _ h => h, fun h => h, fun h => h⟩

theorem one (h : role.Serves role') : (one role node).Weakens (one role' node) :=
  ⟨rfl, .one h, rfl, fun _ h => h, h.isSilent, nofun⟩

theorem none : empty.Weakens (many role []) :=
  ⟨rfl, .refl [], rfl, fun _ h => h, fun _ => rfl, nofun⟩

theorem noneFiling : empty.Weakens (many role []).filing :=
  ⟨rfl, .refl [], rfl, fun _ h => h, nofun, nofun⟩

theorem unsilent (yield : Yield) : yield.Weakens yield.loud :=
  { refl yield with silent := fun h => by cases h }

theorem filing (yield : Yield) : yield.Weakens yield.filing :=
  { refl yield with silent := nofun, files := fun _ => rfl }

theorem unplaced (yield : Yield) (place : Nat) :
    Weakens { yield with places := yield.places ++ [place] } yield :=
  { refl yield with places := fun _ h => List.mem_append_left _ h }

theorem clear (yield : Yield) : yield.Weakens yield.clearing :=
  { refl yield with places := nofun }

end Weakens

theorem many_append : many role (nodes ++ nodes') = many role nodes ++ many role nodes' := by
  ext1 <;> simp

theorem many_append_nil : many role nodes ++ many role [] = many role nodes := by
  rw [← many_append, List.append_nil]

theorem many_snoc : many role (nodes ++ [node]) = many role nodes ++ one role node := many_append

theorem names_snoc (names : List (DefiningName Nat)) (name : DefiningName Nat) :
    Yield.names (names ++ [name]) = Yield.names names ++ Yield.names [name] := by
  ext1 <;> simp [Yield.names]

end

end Yield

end AdaSyntax
