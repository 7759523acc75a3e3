import AdaSyntax.Proofs.Scope.Change
import AdaSyntax.Proofs.Tree.Exits
import Mathlib.Data.List.Forall2

namespace AdaSyntax

namespace SymbolTable

def Labels (table : SymbolTable) (node : NodeId) (labels : List SymbolId) : Prop :=
  ∀ id, id ∈ labels ↔ ∃ symbol, table.symbol? id = some symbol ∧ symbol.kind = .label ∧ symbol.node = some node

def frames (table : SymbolTable) : List (RegionKind × Option SymbolId) :=
  table.regions.map fun region => (region.kind, region.owner)

def Frames (table : SymbolTable) (frame : RegionKind × Option SymbolId) : Bracket → Prop
  | .plain => frame.1 ≠ .loop ∧ frame.1.isBody = false
  | .loop node => frame.1 = .loop ∧ table.Labels node frame.2.toList
  | .body => frame.1.isBody = true

def Framed (table : SymbolTable) (brackets : List Bracket) : Prop :=
  List.Forall₂ table.Frames table.frames brackets

variable {table later : SymbolTable} {node : NodeId} {labels : List SymbolId} {brackets : List Bracket}

theorem symbol?_congr (h : later.symbols = table.symbols) (id : SymbolId) : later.symbol? id = table.symbol? id := by
  rw [symbol?, h, symbol?]

theorem Labels.of_same (h : table.Labels node labels) (hsymbols : later.symbols = table.symbols) :
    later.Labels node labels := by
  intro id
  rw [symbol?_congr hsymbols]
  exact h id

theorem symbol?_declare (table : SymbolTable) (declaration : Declaration) (id : SymbolId) :
    (table.declare declaration).2.2.symbol? id =
      if id = ⟨table.symbols.size⟩ then
        some { declaration with region := table.innermost.id, depth := table.depth }
      else table.symbol? id := by
  have hid : id.index = table.symbols.size ↔ id = ⟨table.symbols.size⟩ := by
    cases id
    simp
  simp only [symbol?, declare_symbols, Array.getElem?_push, hid]

theorem Labels.declare_other {declaration : Declaration} (h : table.Labels node labels)
    (hother : declaration.kind = .label → declaration.node ≠ some node) :
    (table.declare declaration).2.2.Labels node labels := by
  intro id
  rw [symbol?_declare, h]
  split
  · rename_i heq
    subst heq
    constructor
    · rintro ⟨symbol, hsymbol, -⟩
      simp [symbol?] at hsymbol
    · rintro ⟨symbol, hsymbol, hkind, hnode⟩
      obtain rfl := Option.some.inj hsymbol
      exact absurd hnode (hother hkind)
  · rfl

theorem Labels.declare_self {declaration : Declaration} (h : table.Labels node labels)
    (hkind : declaration.kind = .label) (hnode : declaration.node = some node) :
    (table.declare declaration).2.2.Labels node (labels ++ [⟨table.symbols.size⟩]) := by
  intro id
  rw [symbol?_declare, List.mem_append, List.mem_singleton, h]
  split
  · rename_i heq
    subst heq
    exact ⟨fun _ => ⟨_, rfl, hkind, hnode⟩, fun _ => .inr rfl⟩
  · rename_i hne
    simp [hne]

theorem frames_bind (table : SymbolTable) (id : SymbolId) : (table.bind id).2.frames = table.frames := by
  rcases table.bind_eq id with heq | ⟨symbol, -, heq⟩
  · rw [heq]
  · rw [heq]
    rfl

theorem frames_declare (table : SymbolTable) (declaration : Declaration) :
    (table.declare declaration).2.2.frames = table.frames :=
  frames_bind _ _

theorem frames_addPredefined (table : SymbolTable) : table.addPredefined.2.frames = table.frames :=
  addPredefined_induction (motive := (·.frames = table.frames)) rfl
    (fun later declaration h => (later.frames_declare declaration).trans h)
    fun later declaration h => (later.frames_declare declaration).trans h

theorem frames_publishAlias (table : SymbolTable) (synonym target : SymbolId) :
    (table.publishAlias synonym target).frames = table.frames := by
  rcases table.publishAlias_eq synonym target with heq | ⟨contents, heq⟩
  · rw [heq]
  · rw [heq]
    rfl

theorem Framed.of_labels (h : table.Framed brackets) (hframes : later.frames = table.frames)
    (hlabels : ∀ node, .loop node ∈ brackets → ∀ labels, table.Labels node labels → later.Labels node labels) :
    later.Framed brackets := by
  unfold Framed at h ⊢
  rw [hframes]
  generalize table.frames = frames at h
  induction h with
  | nil => exact .nil
  | @cons frame bracket frames brackets hframe _ ih =>
    refine .cons ?_ (ih fun node hnode => hlabels node (List.mem_cons_of_mem _ hnode))
    cases bracket with
    | loop node => exact ⟨hframe.1, hlabels node List.mem_cons_self _ hframe.2⟩
    | _ => exact hframe

theorem Framed.of_same (h : table.Framed brackets) (hframes : later.frames = table.frames)
    (hsymbols : later.symbols = table.symbols) : later.Framed brackets :=
  h.of_labels hframes fun _ _ _ hlabels => hlabels.of_same hsymbols

theorem Framed.openRegion {kind : RegionKind} (h : table.Framed brackets) (owner : Option SymbolId)
    (hkind : kind ≠ .loop) : (table.openRegion kind owner).Framed (kind.bracket :: brackets) := by
  refine .cons ?_ (h.of_same rfl rfl)
  unfold RegionKind.bracket
  split
  · rename_i hbody
    exact hbody
  · rename_i hbody
    exact ⟨hkind, Bool.eq_false_iff.mpr hbody⟩

theorem Framed.openLoop {owner : Option SymbolId} (h : table.Framed brackets)
    (howner : table.Labels node owner.toList) :
    (table.openRegion .loop owner).Framed (.loop node :: brackets) :=
  .cons ⟨rfl, howner.of_same rfl⟩ (h.of_same rfl rfl)

theorem Framed.closeRegion {closed : ClosedRegion} {bracket : Bracket}
    (h : table.Framed (bracket :: brackets)) (hclose : table.closeRegion = some (closed, later)) :
    later.Framed brackets := by
  unfold SymbolTable.closeRegion at hclose
  split at hclose
  · cases hclose
  · rename_i region rest henclosing
    obtain ⟨-, rfl⟩ := Prod.mk.inj (Option.some.inj hclose)
    rw [Framed, frames, regions, henclosing] at h
    cases h with
    | cons _ hrest =>
      have hframed : ({ table with innermost := region, enclosing := rest } : SymbolTable).Framed brackets := hrest
      exact hframed.of_same rfl rfl

section

variable {region : Region} {rest : List Region} {label : Option SymbolId}

theorem enclosingLoop_plain (h : table.Frames (region.kind, region.owner) .plain) :
    enclosingLoop.go label (region :: rest) = enclosingLoop.go label rest := by
  obtain ⟨hloop, hbody⟩ := h
  simp only [enclosingLoop.go, hloop, hbody, decide_false, Bool.false_and, Bool.false_eq_true, if_false]

theorem enclosingLoop_loop (h : table.Frames (region.kind, region.owner) (.loop node)) :
    enclosingLoop.go label (region :: rest) =
      (label.isNone || decide (region.owner = label) || enclosingLoop.go label rest) := by
  have hloop : region.kind = .loop := h.1
  simp only [enclosingLoop.go, hloop, decide_true, Bool.true_and]
  split
  · rename_i hfound
    rw [hfound, Bool.true_or]
  · rename_i hfound
    rw [Bool.eq_false_iff.mpr hfound, Bool.false_or]
    rfl

theorem enclosingLoop_body (h : table.Frames (region.kind, region.owner) .body) :
    enclosingLoop.go label (region :: rest) = false := by
  have hbody : region.kind.isBody = true := h
  have hloop : region.kind ≠ .loop := fun hloop => by cases hloop ▸ hbody
  simp only [enclosingLoop.go, hloop, hbody, decide_false, Bool.false_and, Bool.false_eq_true, if_false, if_true]

end

theorem Framed.enclosingLoop_none (h : table.Framed brackets) :
    table.enclosingLoop none = !(Bracket.around brackets).isEmpty := by
  rw [Framed, frames, List.forall₂_map_left_iff] at h
  rw [enclosingLoop]
  generalize table.regions = regions at h
  induction h with
  | nil => rfl
  | @cons region bracket _ _ hframe _ ih =>
    cases bracket with
    | plain => exact (enclosingLoop_plain hframe).trans ih
    | loop node => exact enclosingLoop_loop hframe
    | body => exact enclosingLoop_body hframe

theorem Framed.enclosingLoop_some (h : table.Framed brackets) (label : SymbolId) :
    table.enclosingLoop (some label) = true ↔ ∃ symbol, table.symbol? label = some symbol ∧
      symbol.kind = .label ∧ ∃ node ∈ Bracket.around brackets, symbol.node = some node := by
  rw [Framed, frames, List.forall₂_map_left_iff] at h
  rw [enclosingLoop]
  generalize table.regions = regions at h
  induction h with
  | nil => simp [enclosingLoop.go, Bracket.around]
  | @cons region bracket _ brackets hframe _ ih =>
    cases bracket with
    | plain =>
      rw [enclosingLoop_plain hframe]
      exact ih
    | loop node =>
      have hlabel : region.owner = some label ↔ _ := Option.mem_toList.symm.trans (hframe.2 label)
      have haround : Bracket.around (.loop node :: brackets) = node :: Bracket.around brackets := rfl
      simp only [enclosingLoop_loop hframe, haround, Option.isNone_some, Bool.false_or, Bool.or_eq_true,
        decide_eq_true_eq, ih, hlabel, List.mem_cons, or_and_right, exists_or, exists_eq_left, and_or_left]
    | body =>
      rw [enclosingLoop_body hframe]
      simp [Bracket.around, Bracket.enter]

end SymbolTable

end AdaSyntax
