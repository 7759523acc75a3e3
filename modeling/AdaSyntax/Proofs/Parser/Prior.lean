import AdaSyntax.Proofs.Parser.Continues
import AdaSyntax.Proofs.Parser.Looped
import Mathlib.Data.List.Perm.Subperm

namespace AdaSyntax

namespace Tree

structure Subtree (tree : Tree) (root : NodeId) (nodes : List NodeId) : Prop where
  forest : tree.Forest [root] nodes
  nodup : nodes.Nodup

def Above (tree : Tree) (node : NodeId) : Prop :=
  ∃ below, tree.Subtree node (node :: below) ∧ ∀ other ∈ below, other.index < node.index

def Predates (tree : Tree) (root : NodeId) (id : SymbolId) : Prop :=
  ∃ nodes, tree.Subtree root nodes ∧
    ∀ node ∈ nodes, ∀ other, (tree.payload node).classify.1 = some other → other.index < id.index

variable {tree later : Tree} {node root : NodeId} {roots nodes : List NodeId} {id : SymbolId}

theorem get?_of_classify (h : (tree.payload node).classify.1 = some id) :
    ∃ range use, tree.get? node = some ⟨range, .name use⟩ ∧ use.symbol? = some id := by
  unfold payload at h
  split at h
  · rename_i found hfound
    obtain ⟨range, payload⟩ := found
    cases payload with
    | name use => exact ⟨range, use, hfound, h⟩
    | _ => cases h
  · cases h

theorem get?_of_filled (h : (tree.payload node).isPlaceholder = false) :
    ∃ found, tree.get? node = some found ∧ found.payload.isPlaceholder = false := by
  unfold payload at h
  split at h
  · rename_i found hfound
    exact ⟨found, hfound, h⟩
  · cases h

theorem Retains.payload_eq (h : later.Retains tree) (hfilled : (tree.payload node).isPlaceholder = false) :
    later.payload node = tree.payload node := by
  obtain ⟨found, hfound, hfilled⟩ := get?_of_filled hfilled
  exact payload_congr ((h.get? node found hfound hfilled).trans hfound.symm)

theorem Forest.retain (h : tree.Forest roots nodes) (hlater : later.Retains tree) : later.Forest roots nodes := by
  induction h with
  | nil => exact .nil
  | cons hnode hfilled _ _ ihbelow ihbeyond => exact .cons (hlater.get? _ _ hnode hfilled) hfilled ihbelow ihbeyond

namespace Subtree

theorem retain (h : tree.Subtree root nodes) (hlater : later.Retains tree) : later.Subtree root nodes :=
  ⟨h.forest.retain hlater, h.nodup⟩

theorem preorder_eq (h : tree.Subtree root nodes) : (tree.preorder root).toList = nodes := by
  have hsubset : nodes ⊆ nodesBetween 0 tree.size := fun node hnode => by
    obtain ⟨found, hfound, -⟩ := get?_of_filled (h.forest.exists_filled node hnode)
    exact mem_nodesBetween.mpr ⟨Nat.zero_le _, (Array.getElem?_eq_some_iff.mp hfound).1⟩
  have hlength := (h.nodup.subperm hsubset).length_le
  simp only [nodesBetween, List.length_map, List.length_range'] at hlength
  exact h.forest.preorder_eq hlength

end Subtree

theorem Above.retain (h : tree.Above node) (hlater : later.Retains tree) : later.Above node :=
  have ⟨below, hsubtree, hbelow⟩ := h
  ⟨below, hsubtree.retain hlater, hbelow⟩

theorem Predates.retain (h : tree.Predates root id) (hlater : later.Retains tree) : later.Predates root id := by
  obtain ⟨nodes, hsubtree, hnodes⟩ := h
  refine ⟨nodes, hsubtree.retain hlater, fun node hnode other hother => hnodes node hnode other ?_⟩
  rwa [hlater.payload_eq (hsubtree.forest.exists_filled node hnode)] at hother

end Tree

namespace SymbolTable

def Declares (table : SymbolTable) (node : NodeId) (id : SymbolId) : Prop :=
  ∃ symbol, table.symbol? id = some symbol ∧ symbol.node = some node

def Parameter (table : SymbolTable) (loop : NodeId) (id : SymbolId) : Prop :=
  ∃ symbol, table.symbol? id = some symbol ∧ symbol.kind = .loopParameter ∧ symbol.node = some loop

variable {table : SymbolTable} {declaration : Declaration} {node : NodeId} {id : SymbolId}

theorem Parameter.declares (h : table.Parameter node id) : table.Declares node id :=
  have ⟨symbol, hsymbol, _, hnode⟩ := h
  ⟨symbol, hsymbol, hnode⟩

theorem Declares.of_declare (h : (table.declare declaration).2.2.Declares node id)
    (hid : id.index < table.symbols.size) : table.Declares node id := by
  obtain ⟨symbol, hsymbol, hnode⟩ := h
  rw [symbol?_declare, if_neg (by rintro rfl; exact Nat.lt_irrefl _ hid)] at hsymbol
  exact ⟨symbol, hsymbol, hnode⟩

theorem Parameter.of_declare (h : (table.declare declaration).2.2.Parameter node id) :
    table.Parameter node id ∨
      id = ⟨table.symbols.size⟩ ∧ declaration.kind = .loopParameter ∧ declaration.node = some node := by
  obtain ⟨symbol, hsymbol, hkind, hnode⟩ := h
  rw [symbol?_declare] at hsymbol
  split at hsymbol
  · rename_i hid
    obtain rfl := Option.some.inj hsymbol
    exact .inr ⟨hid, hkind, hnode⟩
  · exact .inl ⟨symbol, hsymbol, hkind, hnode⟩

end SymbolTable

namespace Parser

structure Prior (parser : Parser) : Prop where
  names : ∀ node id declaring, (parser.tree.payload node).classify.1 = some id →
    parser.symbols.Declares declaring id → declaring.index < node.index
  above : ∀ node, (parser.tree.payload node).isPlaceholder = false →
    (parser.tree.payload node).isReservable = false → parser.tree.Above node
  ranges : ∀ loop range id, (parser.tree.payload loop).loopRange? = some range →
    parser.symbols.Parameter loop id → parser.tree.Predates range id

structure Ranged (base parser : Parser) (yield : Yield) : Prop where
  prior : parser.Prior
  older : ∀ node id, node.index < base.tree.size → parser.symbols.Parameter node id →
    base.symbols.Parameter node id
  holes : ∀ hole ∈ yield.holes, ∀ id, parser.symbols.Parameter hole.node id →
    ∃ range, hole.range = some range ∧ parser.tree.Predates range id

variable {base middle parser later : Parser} {yield yield' : Yield} {nodes nodes' : List NodeId}

theorem Built.subtree {root : NodeId} (h : Built base parser yield nodes)
    (hpieces : yield.pieces.map Piece.node = [root]) : parser.tree.Subtree root nodes :=
  ⟨hpieces ▸ h.row.forest,
    (List.nodup_append.mp (h.listed.nodup_iff.mpr (nodup_nodesBetween _ _))).2.1⟩

namespace Linked

variable {node : NodeId} {id : SymbolId}

theorem lt_of_classify (h : parser.Linked) (hname : (parser.tree.payload node).classify.1 = some id) :
    id.index < parser.symbols.symbols.size := by
  obtain ⟨range, use, hnode, hid⟩ := Tree.get?_of_classify hname
  obtain ⟨symbol, hsymbol, -⟩ := (h.names node range use hnode).known id hid
  exact (Array.getElem?_eq_some_iff.mp hsymbol).1

theorem lt_of_declares (h : parser.Linked) (hdeclares : parser.symbols.Declares node id) :
    node.index < parser.tree.size := by
  obtain ⟨symbol, hsymbol, hnode⟩ := hdeclares
  exact (h.declared symbol (Array.mem_of_getElem? hsymbol) node hnode).lt_size

end Linked

namespace Prior

theorem of_same (h : parser.Prior) (htree : later.tree = parser.tree)
    (hsymbols : later.symbols.symbols = parser.symbols.symbols) : later.Prior := by
  have hsame := SymbolTable.symbol?_congr hsymbols
  constructor
  · intro node id declaring hname ⟨symbol, hsymbol, hnode⟩
    exact h.names node id declaring (htree ▸ hname) ⟨symbol, hsame id ▸ hsymbol, hnode⟩
  · rw [htree]
    exact h.above
  · intro loop range id hrange ⟨symbol, hsymbol, hparameter⟩
    rw [htree] at hrange ⊢
    exact h.ranges loop range id hrange ⟨symbol, hsame id ▸ hsymbol, hparameter⟩

theorem push {range : Range} {payload : Payload Range} (h : parser.Prior) (hlinked : parser.Linked)
    (habove : payload.isPlaceholder = false → (parser.tree.add range payload).2.Above ⟨parser.tree.size⟩) :
    ({ parser with tree := (parser.tree.add range payload).2 } : Parser).Prior := by
  have hretains : (parser.tree.add range payload).2.Retains parser.tree := .of_isPrefix (by simp [Tree.add])
  constructor
  · intro node id declaring hname hdeclares
    have hlt := hlinked.lt_of_declares hdeclares
    dsimp only at hname
    rw [Tree.payload_add] at hname
    split at hname
    · rename_i heq
      exact heq ▸ hlt
    · exact h.names node id declaring hname hdeclares
  · intro node hfilled hkind
    dsimp only at hfilled hkind ⊢
    rw [Tree.payload_add] at hfilled hkind
    split at hfilled
    · rename_i heq
      exact heq ▸ habove hfilled
    · rename_i hne
      rw [if_neg hne] at hkind
      exact (h.above node hfilled hkind).retain hretains
  · intro loop range id hrange hparameter
    have hlt := hlinked.lt_of_declares hparameter.declares
    dsimp only at hrange ⊢
    rw [Tree.payload_add, if_neg (by rintro rfl; exact Nat.lt_irrefl _ hlt)] at hrange
    exact (h.ranges loop range id hrange hparameter).retain hretains

theorem fill {hole : NodeId} {reserved range : Range} {payload : Payload Range} (h : parser.Prior)
    (hhole : parser.tree.get? hole = some ⟨reserved, .placeholder⟩) (hkind : payload.isReservable = true)
    (hrange : ∀ bounds id, payload.loopRange? = some bounds → parser.symbols.Parameter hole id →
      parser.tree.Predates bounds id) :
    ({ parser with tree := parser.tree.replace hole ⟨range, payload⟩ } : Parser).Prior := by
  have hlt : hole.index < parser.tree.size := (Array.getElem?_eq_some_iff.mp hhole).1
  have hfilled : payload.isPlaceholder = false := by
    cases payload with
    | placeholder => cases hkind
    | _ => rfl
  have hretains : (parser.tree.replace hole ⟨range, payload⟩).Retains parser.tree :=
    .fill (Tree.fill_eq hhole hfilled)
  constructor
  · intro node id declaring hname hdeclares
    dsimp only at hname
    rw [Tree.payload_replace hlt] at hname
    split at hname
    · cases payload with
      | name use => cases hkind
      | _ => cases hname
    · exact h.names node id declaring hname hdeclares
  · intro node hnode hother
    dsimp only at hnode hother ⊢
    rw [Tree.payload_replace hlt] at hnode hother
    split at hother
    · cases hkind.symm.trans hother
    · rename_i hne
      rw [if_neg hne] at hnode
      exact (h.above node hnode hother).retain hretains
  · intro loop bounds id hbounds hparameter
    dsimp only at hbounds ⊢
    rw [Tree.payload_replace hlt] at hbounds
    split at hbounds
    · rename_i heq
      exact (hrange bounds id hbounds (heq ▸ hparameter)).retain hretains
    · exact (h.ranges loop bounds id hbounds hparameter).retain hretains

theorem declare {declaration : Declaration} (h : parser.Prior) (hlinked : parser.Linked)
    (hloop : ∀ loop, declaration.kind = .loopParameter → declaration.node = some loop →
      (parser.tree.payload loop).isPlaceholder = true) :
    ({ parser with symbols := (parser.symbols.declare declaration).2.2 } : Parser).Prior where
  names node id declaring hname hdeclares :=
    h.names node id declaring hname (hdeclares.of_declare (hlinked.lt_of_classify hname))
  above := h.above
  ranges loop range id hrange hparameter := by
    rcases hparameter.of_declare with hparameter | ⟨-, hkind, hnode⟩
    · exact h.ranges loop range id hrange hparameter
    · have hempty := hloop loop hkind hnode
      dsimp only at hrange
      generalize parser.tree.payload loop = payload at hempty hrange
      cases payload with
      | placeholder => cases hrange
      | _ => cases hempty

end Prior

namespace Ranged

theorem refl (h : parser.Prior) : Ranged parser parser .empty := ⟨h, fun _ _ _ hparameter => hparameter, nofun⟩

theorem of_same (h : Ranged base parser yield) (hprior : later.Prior)
    (hsymbols : later.symbols.symbols = parser.symbols.symbols) (htree : later.tree.Retains parser.tree)
    (hholes : yield'.holes ⊆ yield.holes) : Ranged base later yield' := by
  have hparameter : ∀ loop id, later.symbols.Parameter loop id → parser.symbols.Parameter loop id :=
    fun loop id ⟨symbol, hsymbol, hrest⟩ => ⟨symbol, SymbolTable.symbol?_congr hsymbols id ▸ hsymbol, hrest⟩
  refine ⟨hprior, fun node id hlt hlater => h.older node id hlt (hparameter node id hlater),
    fun hole hhole id hlater => ?_⟩
  obtain ⟨range, hrange, hpredates⟩ := h.holes hole (hholes hhole) id (hparameter _ id hlater)
  exact ⟨range, hrange, hpredates.retain htree⟩

theorem unchanged (h : Ranged base parser yield) (htree : later.tree = parser.tree)
    (hsymbols : later.symbols.symbols = parser.symbols.symbols) (hholes : yield'.holes ⊆ yield.holes) :
    Ranged base later yield' :=
  h.of_same (h.prior.of_same htree hsymbols) hsymbols (htree ▸ .refl _) hholes

theorem trans (h : Ranged base middle yield) (h' : Ranged middle parser yield')
    (hbuilt : Built base middle yield nodes) (hbuilt' : Built middle parser yield' nodes') :
    Ranged base parser (yield ++ yield') where
  prior := h'.prior
  older node id hlt hparameter :=
    h.older node id hlt (h'.older node id (Nat.lt_of_lt_of_le hlt hbuilt.size_le) hparameter)
  holes hole hhole id hparameter := by
    rcases List.mem_append.mp hhole with hhole | hhole
    · have hearlier := h'.older _ id (hbuilt.lt_of_hole hhole).2 hparameter
      obtain ⟨range, hrange, hpredates⟩ := h.holes hole hhole id hearlier
      exact ⟨range, hrange, hpredates.retain (.of_isPrefix hbuilt'.reverts.nodes)⟩
    · exact h'.holes hole hhole id hparameter

theorem declare_other {declaration : Declaration} (h : Ranged base parser yield) (hlinked : parser.Linked)
    (hkind : declaration.kind ≠ .loopParameter)
    (hholes : ∀ hole ∈ yield'.holes, ∃ held ∈ yield.holes, held.node = hole.node ∧ held.range = hole.range) :
    Ranged base { parser with symbols := (parser.symbols.declare declaration).2.2 } yield' := by
  have hparameter : ∀ loop id, (parser.symbols.declare declaration).2.2.Parameter loop id →
      parser.symbols.Parameter loop id := fun loop id hlater =>
    hlater.of_declare.resolve_right fun ⟨_, heq, _⟩ => hkind heq
  refine ⟨h.prior.declare hlinked fun _ heq => absurd heq hkind,
    fun node id hlt hlater => h.older node id hlt (hparameter node id hlater), fun hole hhole id hlater => ?_⟩
  obtain ⟨held, hheld, hnode, hrange⟩ := hholes hole hhole
  exact hrange ▸ h.holes held hheld id (hnode ▸ hparameter _ id hlater)

theorem declare_parameter {declaration : Declaration} {hole : Hole} {range : NodeId}
    (h : Ranged base parser yield) (hbuilt : Built base parser yield nodes) (hlinked : parser.Linked)
    (hholes : yield.holes = [hole]) (hfirst : hole.range = none) (hpieces : yield.pieces.map Piece.node = [range])
    (hnode : declaration.node = some hole.node) :
    Ranged base { parser with symbols := (parser.symbols.declare declaration).2.2 } (yield.ranging hole range) := by
  have hhole : hole ∈ yield.holes := hholes ▸ List.mem_singleton_self _
  refine ⟨h.prior.declare hlinked fun loop _ heq => ?_, fun node id hlt hlater => ?_,
    fun held hheld id hlater => ?_⟩
  · obtain rfl := Option.some.inj (hnode.symm.trans heq)
    rw [Tree.payload_of_get? (hbuilt.holes hole hhole).1.2]
    rfl
  · rcases hlater.of_declare with hparameter | ⟨-, -, heq⟩
    · exact h.older node id hlt hparameter
    · obtain rfl := Option.some.inj (hnode.symm.trans heq)
      exact absurd (hbuilt.lt_of_hole hhole).1 (Nat.not_le_of_lt hlt)
  · obtain rfl := List.mem_singleton.mp hheld
    rcases hlater.of_declare with hparameter | ⟨rfl, -, -⟩
    · obtain ⟨other, hother, -⟩ := h.holes hole hhole id hparameter
      cases hfirst.symm.trans hother
    · exact ⟨range, rfl, nodes, hbuilt.subtree hpieces, fun _ _ _ hname => hlinked.lt_of_classify hname⟩

theorem change {change : TableChange} (h : Ranged base parser yield) (hbuilt : Built base parser yield nodes)
    (hlinked : parser.Linked) (hchange : Change base parser yield change yield') :
    Ranged base { parser with symbols := parser.symbols.change change } yield' := by
  cases hchange with
  | @declare declaration _ _ hkind =>
    have hother : declaration.kind ≠ .loopParameter := fun heq => by
      rw [heq] at hkind
      cases hkind
    exact h.declare_other hlinked hother fun hole hhole => ⟨hole, hhole, rfl, rfl⟩
  | @label declaration hole _ hholes _ hkind =>
    have hother : declaration.kind ≠ .loopParameter := by simp [hkind]
    refine h.declare_other hlinked hother fun held hheld => ?_
    obtain rfl := List.mem_singleton.mp hheld
    exact ⟨hole, hholes ▸ List.mem_singleton_self _, rfl, rfl⟩
  | parameter hholes hfirst hpieces _ hnode =>
    exact h.declare_parameter hbuilt hlinked hholes hfirst (congrArg (List.map Piece.node) hpieces) hnode
  | _ => exact h.unchanged rfl (SymbolTable.change_symbols _ rfl) (List.Subset.refl _)

theorem add {payload : Payload Nat} {role : Role} {cursor : Cursor} (h : Ranged base parser yield)
    (hbuilt : Built base parser yield nodes) (hlinked : parser.Linked)
    (hadded : Built base { parser.added base.position payload with cursor } (yield.fold ⟨parser.tree.size⟩ role)
      (⟨parser.tree.size⟩ :: nodes)) :
    Ranged base { parser.added base.position payload with cursor } (yield.fold ⟨parser.tree.size⟩ role) := by
  have hprior := h.prior.push hlinked fun _ =>
    ⟨nodes, hadded.subtree rfl, fun other hother => (hbuilt.lt_of_mem hother).2⟩
  exact h.of_same (hprior.of_same rfl rfl) rfl (.of_isPrefix (by simp [added, addNode, Tree.add]))
    (List.Subset.refl _)

end Ranged

end Parser

theorem Course.ranged {base parser : Parser} {yield : Yield} {nodes : List NodeId}
    (h : Course base parser yield nodes) (hproper : base.symbols.Proper)
    (hordered : Token.Ordered base.cursor.tokens.toList) (hlinked : base.Linked) (hprior : base.Prior) :
    Parser.Ranged base parser yield := by
  induction h with
  | refl => exact .refl hprior
  | append h h' ih ih' =>
    have hbuilt := h.built hproper
    have hfirst := ih hproper hordered hlinked hprior
    have htokens := hbuilt.reverts.tokens
    have hsecond := ih' hbuilt.proper (htokens ▸ hordered) (h.linked hproper hordered hlinked) hfirst.prior
    exact hfirst.trans hsecond hbuilt (h'.built hbuilt.proper)
  | nested _ ih | listed _ ih =>
    obtain ⟨hlater, holder, hholes⟩ := ih hproper hordered
      (hlinked.of_same hlinked.filed rfl rfl (Nat.le_refl _)) (hprior.of_same rfl rfl)
    exact ⟨hlater.of_same rfl rfl, holder, hholes⟩
  | resume _ hlater ih =>
    obtain ⟨next, furthest, -, rfl⟩ := hlater
    exact (ih hproper hordered hlinked hprior).unchanged rfl rfl (List.Subset.refl _)
  | weaken _ hyield ih =>
    exact (ih hproper hordered hlinked hprior).unchanged rfl rfl (hyield.holes ▸ List.Subset.refl _)
  | advance _ _ ih | report _ _ ih =>
    exact (ih hproper hordered hlinked hprior).unchanged rfl rfl (List.Subset.refl _)
  | bounds _ _ ih => exact (ih hproper hordered hlinked hprior).unchanged rfl rfl (List.Subset.refl _)
  | @declared _ parser _ _ id declared _ _ _ ih =>
    have hreports := parser.reportDeclared_reports id declared
    exact (ih hproper hordered hlinked hprior).unchanged hreports.tree_eq
      (congrArg SymbolTable.symbols hreports.symbols_eq) (List.Subset.refl _)
  | @mark _ parser node _ _ ih =>
    have hreports := parser.checkMark_reports node
    exact (ih hproper hordered hlinked hprior).unchanged hreports.tree_eq
      (congrArg SymbolTable.symbols hreports.symbols_eq) (List.Subset.refl _)
  | @packages _ parser _ packages _ ih =>
    obtain ⟨htree, hsymbols⟩ := parser.usePackages_same packages
    exact (ih hproper hordered hlinked hprior).unchanged htree hsymbols (List.Subset.refl _)
  | add h hfits _ _ hcursor hmoved ih =>
    have hbuilt := h.built hproper
    exact (ih hproper hordered hlinked hprior).add hbuilt (h.linked hproper hordered hlinked)
      (hbuilt.add hfits hcursor hmoved)
  | @exit base parser _ _ target condition h hfits _ _ hmoved ih =>
    have hbuilt := h.built hproper
    have hadded := (ih hproper hordered hlinked hprior).add hbuilt (h.linked hproper hordered hlinked)
      (hbuilt.add hfits (.inl rfl) hmoved)
    have hreports := (parser.added base.position (.stmt (.exit target condition))).checkExit_reports
      ⟨parser.tree.size⟩ target
    exact hadded.unchanged hreports.tree_eq (congrArg SymbolTable.symbols hreports.symbols_eq)
      (List.Subset.refl _)
  | @reserve base parser yield nodes h ih =>
    have hbefore := ih hproper hordered hlinked hprior
    have hlater := h.linked hproper hordered hlinked
    have hpushed : (parser.reserveNode (parser.place base.position).start).2.Prior :=
      hbefore.prior.push hlater fun hfilled => by cases hfilled
    refine ⟨hpushed, hbefore.older, fun hole hhole id hparameter => ?_⟩
    rcases List.mem_append.mp hhole with hhole | hhole
    · obtain ⟨range, hrange, hpredates⟩ := hbefore.holes hole hhole id hparameter
      exact ⟨range, hrange, hpredates.retain (.of_isPrefix (by simp [Parser.reserveNode, Tree.reserve, Tree.add]))⟩
    · obtain rfl := List.mem_singleton.mp hhole
      exact absurd (hlater.lt_of_declares hparameter.declares) (Nat.lt_irrefl _)
  | @fill base parser yield nodes hole payload role h hholes _ hfits hcompletes _ ih =>
    -- if it is a loop, then its range is the one that the parameter was declared for
    have hbefore := ih hproper hordered hlinked hprior
    have hhole : hole ∈ yield.holes := hholes ▸ List.mem_singleton_self _
    have hawaits := ((h.built hproper).holes hole hhole).1
    have hkind := (Payload.isReservable_map parser.place payload).trans hcompletes.reservable
    refine ⟨hbefore.prior.fill hawaits.2 hkind fun bounds id hbounds hparameter => ?_, hbefore.older,
      fun _ hother => by cases hother⟩
    rw [Payload.loopRange?_map, hcompletes.range] at hbounds
    obtain ⟨range, hrange, hpredates⟩ := hbefore.holes hole hhole id hparameter
    obtain rfl := Option.some.inj (hbounds.symm.trans hrange)
    exact hpredates
  | change h hchange ih =>
    exact (ih hproper hordered hlinked hprior).change (h.built hproper) (h.linked hproper hordered hlinked) hchange

end AdaSyntax
