import AdaSyntax.Proofs.Parser.Linked
import AdaSyntax.Proofs.Scope.Loops

namespace AdaSyntax

namespace Parser

structure Inside (parser : Parser) (brackets : List Bracket) : Prop where
  proper : parser.symbols.Proper
  ordered : Token.Ordered parser.cursor.tokens.toList
  linked : parser.Linked
  framed : parser.symbols.Framed brackets
  loops : ∀ node, .loop node ∈ brackets → node.index < parser.tree.size

structure Looped (base parser : Parser) (yield : Yield) (brackets : List Bracket) : Prop where
  framed : parser.symbols.Framed (yield.opened.reverse ++ brackets)
  loops : ∀ node, .loop node ∈ yield.opened → node.index < parser.tree.size
  holes : ∀ hole ∈ yield.holes, parser.symbols.Labels hole.node hole.labels
  older : ∀ node labels, node.index < base.tree.size → base.symbols.Labels node labels →
    parser.symbols.Labels node labels

theorem usePackages_frames (parser : Parser) (packages : List NodeId) :
    (parser.usePackages packages).symbols.frames = parser.symbols.frames := by
  induction packages generalizing parser with
  | nil => rfl
  | cons package packages ih =>
    refine (ih (parser.usePackage package)).trans ?_
    unfold usePackage
    split
    · rfl
    · rfl
    · rw [(parser.find_reports _).symbols_eq]

namespace Looped

variable {base middle parser later : Parser} {yield yield' : Yield} {nodes nodes' : List NodeId}
variable {brackets : List Bracket}

theorem refl (h : parser.symbols.Framed brackets) : Looped parser parser .empty brackets :=
  ⟨h, nofun, nofun, fun _ _ _ hlabels => hlabels⟩

theorem of_same (h : Looped base parser yield brackets)
    (hframes : later.symbols.frames = parser.symbols.frames)
    (hsymbols : later.symbols.symbols = parser.symbols.symbols) (hsize : parser.tree.size ≤ later.tree.size)
    (hopened : yield'.opened = yield.opened) (hholes : yield'.holes ⊆ yield.holes) :
    Looped base later yield' brackets where
  framed := hopened ▸ h.framed.of_same hframes hsymbols
  loops node hnode := Nat.lt_of_lt_of_le (h.loops node (hopened ▸ hnode)) hsize
  holes hole hhole := (h.holes hole (hholes hhole)).of_same hsymbols
  older node labels hnode hlabels := (h.older node labels hnode hlabels).of_same hsymbols

theorem of_symbols (h : Looped base parser yield brackets) (hsymbols : later.symbols = parser.symbols)
    (hsize : parser.tree.size ≤ later.tree.size) (hopened : yield'.opened = yield.opened)
    (hholes : yield'.holes ⊆ yield.holes) : Looped base later yield' brackets :=
  h.of_same (hsymbols ▸ rfl) (hsymbols ▸ rfl) hsize hopened hholes

theorem trans (h : Looped base middle yield brackets)
    (h' : Looped middle parser yield' (yield.opened.reverse ++ brackets)) (hbuilt : Built base middle yield nodes)
    (hbuilt' : Built middle parser yield' nodes') : Looped base parser (yield ++ yield') brackets where
  framed := by
    rw [Yield.append_opened, List.reverse_append, List.append_assoc]
    exact h'.framed
  loops node hnode := by
    rcases List.mem_append.mp hnode with hnode | hnode
    · exact Nat.lt_of_lt_of_le (h.loops node hnode) hbuilt'.size_le
    · exact h'.loops node hnode
  holes hole hhole := by
    rcases List.mem_append.mp hhole with hhole | hhole
    · exact h'.older _ _ (hbuilt.lt_of_hole hhole).2 (h.holes hole hhole)
    · exact h'.holes hole hhole
  older node labels hnode hlabels :=
    h'.older node labels (Nat.lt_of_lt_of_le hnode hbuilt.size_le) (h.older node labels hnode hlabels)

theorem reserve (h : Looped base parser yield brackets) (hlinked : parser.Linked) (start position : Nat) :
    Looped base (parser.reserveNode start).2 (yield.reserving ⟨parser.tree.size⟩ position) brackets := by
  refine { h with loops := fun node hnode => ?_, holes := fun hole hhole => ?_ }
  · have hlt := h.loops node hnode
    simp only [reserveNode, Tree.reserve, Tree.add, Tree.size, Array.size_push] at hlt ⊢
    omega
  · rcases List.mem_append.mp hhole with hhole | hhole
    · exact h.holes hole hhole
    · obtain rfl := List.mem_singleton.mp hhole
      refine fun id => ⟨fun hid => absurd hid List.not_mem_nil, ?_⟩
      rintro ⟨symbol, hsymbol, -, hnode⟩
      have hlt := (hlinked.declared symbol (Array.mem_of_getElem? hsymbol) _ hnode).lt_size
      exact absurd hlt (Nat.lt_irrefl _)

theorem declare {declaration : Declaration} (h : Looped base parser yield brackets)
    (hbase : base.Inside brackets)
    (hother : ∀ node, node.index < base.tree.size ∨ .loop node ∈ yield.opened →
      declaration.kind = .label → declaration.node ≠ some node)
    (hopened : yield'.opened = yield.opened)
    (hholes : ∀ hole ∈ yield'.holes, (parser.symbols.declare declaration).2.2.Labels hole.node hole.labels) :
    Looped base { parser with symbols := (parser.symbols.declare declaration).2.2 } yield' brackets where
  framed := by
    rw [hopened]
    refine h.framed.of_labels (parser.symbols.frames_declare declaration) fun node hnode labels hlabels => ?_
    refine hlabels.declare_other (hother node ?_)
    rcases List.mem_append.mp hnode with hnode | hnode
    · exact .inr (List.mem_reverse.mp hnode)
    · exact .inl (hbase.loops node hnode)
  loops node hnode := h.loops node (hopened ▸ hnode)
  holes := hholes
  older node labels hnode hlabels := (h.older node labels hnode hlabels).declare_other (hother node (.inl hnode))

theorem change {change : TableChange} (h : Looped base parser yield brackets)
    (hbuilt : Built base parser yield nodes) (hbase : base.Inside brackets)
    (hchange : Change base parser yield change yield') :
    Looped base { parser with symbols := parser.symbols.change change } yield' brackets := by
  cases hchange with
  | @declare declaration _ _ hkind =>
    have hlabel : declaration.kind ≠ .label := fun hlabel => by
      rw [hlabel] at hkind
      cases hkind
    exact h.declare hbase (fun _ _ heq => absurd heq hlabel) rfl fun hole hhole =>
      (h.holes hole hhole).declare_other fun heq => absurd heq hlabel
  | @parameter declaration hole _ _ _ hholes _ _ hkind =>
    have hlabel : declaration.kind ≠ .label := by simp [hkind]
    refine h.declare hbase (fun _ _ heq => absurd heq hlabel) rfl fun other hother => ?_
    obtain rfl := List.mem_singleton.mp hother
    exact (h.holes hole (hholes ▸ List.mem_singleton_self _)).declare_other fun heq => absurd heq hlabel
  | @label declaration hole _ hholes hopened hkind hnode hrange hspans =>
    have hhole : hole ∈ yield.holes := hholes ▸ List.mem_singleton_self _
    refine h.declare hbase (fun node hold _ heq => ?_) rfl fun other hother => ?_
    · obtain rfl := Option.some.inj (hnode.symm.trans heq)
      rcases hold with hlt | hloop
      · exact absurd (hbuilt.lt_of_hole hhole).1 (Nat.not_le_of_lt hlt)
      · rw [hopened] at hloop
        cases hloop
    · obtain rfl := List.mem_singleton.mp hother
      exact (h.holes hole hhole).declare_self hkind hnode
  | @bind id | file id =>
    exact h.of_same (parser.symbols.frames_bind id) (parser.symbols.bind_symbols id) (Nat.le_refl _) rfl
      (List.Subset.refl _)
  | openRegion owner hkind =>
    refine { h with framed := ?_, loops := fun node hnode => ?_ }
    · rw [Yield.opening, List.reverse_append]
      exact h.framed.openRegion owner hkind
    · rcases List.mem_append.mp hnode with hnode | hnode
      · exact h.loops node hnode
      · have hbracket := List.mem_singleton.mp hnode
        unfold RegionKind.bracket at hbracket
        split at hbracket <;> cases hbracket
  | @openLoop hole owner hholes howner =>
    have hhole : hole ∈ yield.holes := hholes ▸ List.mem_singleton_self _
    refine { h with framed := ?_, loops := fun node hnode => ?_ }
    · rw [Yield.opening, List.reverse_append]
      exact h.framed.openLoop (howner ▸ h.holes hole hhole)
    · rcases List.mem_append.mp hnode with hnode | hnode
      · exact h.loops node hnode
      · obtain rfl := Bracket.loop.inj (List.mem_singleton.mp hnode)
        exact (hbuilt.lt_of_hole hhole).2
  | closeRegion hopened =>
    obtain ⟨front, last, hlast⟩ : ∃ front last, yield.opened = front ++ [last] :=
      ⟨_, _, (List.dropLast_concat_getLast hopened).symm⟩
    have hscopes := hbuilt.scopes
    rw [hlast, List.length_append, List.length_singleton] at hscopes
    obtain ⟨closed, table, hclose, -⟩ := hscopes.closeRegion
    have htable : parser.symbols.change .closeRegion = table := by simp only [SymbolTable.change, hclose]
    have hsymbols : table.symbols = parser.symbols.symbols := htable ▸ parser.symbols.change_symbols rfl
    have hframed := h.framed
    rw [hlast, List.reverse_append] at hframed
    rw [htable]
    refine ⟨?_, fun node hnode => h.loops node (List.dropLast_subset _ hnode),
      fun hole hhole => (h.holes hole hhole).of_same hsymbols,
      fun node labels hnode hlabels => (h.older node labels hnode hlabels).of_same hsymbols⟩
    rw [Yield.closing, hlast, List.dropLast_concat]
    exact hframed.closeRegion hclose
  | publishAlias target hsynonym =>
    exact h.of_same (parser.symbols.frames_publishAlias _ target) (parser.symbols.change_symbols rfl)
      (Nat.le_refl _) rfl (List.Subset.refl _)
  | _ => exact h.of_same rfl rfl (Nat.le_refl _) rfl (List.Subset.refl _)

theorem inside (h : Looped base parser yield brackets) (hbase : base.Inside brackets)
    (hcourse : Course base parser yield nodes) : parser.Inside (yield.opened.reverse ++ brackets) where
  proper := (hcourse.built hbase.proper).proper
  ordered := (hcourse.built hbase.proper).reverts.tokens ▸ hbase.ordered
  linked := hcourse.linked hbase.proper hbase.ordered hbase.linked
  framed := h.framed
  loops node hnode := by
    rcases List.mem_append.mp hnode with hnode | hnode
    · exact h.loops node (List.mem_reverse.mp hnode)
    · exact Nat.lt_of_lt_of_le (hbase.loops node hnode) (hcourse.built hbase.proper).size_le

end Looped

namespace Inside

variable {parser : Parser} {brackets : List Bracket}

theorem deeper (h : parser.Inside brackets) : parser.deeper.Inside brackets :=
  ⟨h.proper, h.ordered, h.linked.of_same h.linked.filed rfl rfl (Nat.le_refl _), h.framed, h.loops⟩

theorem pushContext (h : parser.Inside brackets) (context : Context) :
    (parser.pushContext context).Inside brackets :=
  ⟨h.proper, h.ordered, h.linked.of_same h.linked.filed rfl rfl (Nat.le_refl _), h.framed, h.loops⟩

theorem added {payload : Payload Nat} (h : parser.Inside brackets) (start : Nat)
    (hname : payload.isName = false) : (parser.added start payload).Inside brackets where
  proper := h.proper
  ordered := h.ordered
  linked := h.linked.push fun use huse => by
    obtain rfl := Payload.map_eq_name huse
    cases hname
  framed := h.framed
  loops node hnode := Nat.lt_of_lt_of_le (h.loops node hnode) (parser.tree.size_le_add _ _)

end Inside

end Parser

namespace Course

variable {base parser : Parser} {yield : Yield} {nodes : List NodeId} {brackets : List Bracket}

theorem looped (h : Course base parser yield nodes) (hbase : base.Inside brackets) :
    Parser.Looped base parser yield brackets := by
  induction h generalizing brackets with
  | refl => exact .refl hbase.framed
  | append h h' ih ih' =>
    have hbuilt := h.built hbase.proper
    have hlooped := ih hbase
    exact hlooped.trans (ih' (hlooped.inside hbase h)) hbuilt (h'.built hbuilt.proper)
  | nested _ ih =>
    obtain ⟨hframed, hloops, hholes, holder⟩ := ih hbase.deeper
    exact ⟨hframed, hloops, hholes, holder⟩
  | listed _ ih =>
    obtain ⟨hframed, hloops, hholes, holder⟩ := ih (hbase.pushContext _)
    exact ⟨hframed, hloops, hholes, holder⟩
  | resume _ hlater ih =>
    obtain ⟨next, furthest, -, rfl⟩ := hlater
    exact (ih hbase).of_same rfl rfl (Nat.le_refl _) rfl (List.Subset.refl _)
  | weaken _ hyield ih =>
    exact (ih hbase).of_symbols rfl (Nat.le_refl _) hyield.opened (hyield.holes ▸ List.Subset.refl _)
  | advance _ _ ih | report _ _ ih | bounds _ _ ih =>
    exact (ih hbase).of_symbols rfl (Nat.le_refl _) rfl (List.Subset.refl _)
  | @declared _ parser _ _ id declared _ _ _ ih =>
    have hreports := parser.reportDeclared_reports id declared
    exact (ih hbase).of_symbols hreports.symbols_eq (hreports.tree_eq ▸ Nat.le_refl _) rfl
      (List.Subset.refl _)
  | @mark _ parser node _ _ ih =>
    have hreports := parser.checkMark_reports node
    exact (ih hbase).of_symbols hreports.symbols_eq (hreports.tree_eq ▸ Nat.le_refl _) rfl
      (List.Subset.refl _)
  | @packages _ parser _ packages _ ih =>
    obtain ⟨htree, hsymbols⟩ := parser.usePackages_same packages
    exact (ih hbase).of_same (parser.usePackages_frames packages) hsymbols (htree ▸ Nat.le_refl _) rfl
      (List.Subset.refl _)
  | @add _ parser _ _ _ _ _ _ _ _ _ _ _ ih =>
    exact (ih hbase).of_symbols rfl (parser.tree.size_le_add _ _) rfl (List.Subset.refl _)
  | @exit base parser _ _ target condition _ _ _ _ _ ih =>
    have hreports := (parser.added base.position (.stmt (.exit target condition))).checkExit_reports
      ⟨parser.tree.size⟩ target
    exact (ih hbase).of_symbols hreports.symbols_eq (hreports.tree_eq ▸ parser.tree.size_le_add _ _) rfl
      (List.Subset.refl _)
  | reserve h ih =>
    exact (ih hbase).reserve (h.linked hbase.proper hbase.ordered hbase.linked) _ _
  | fill _ _ _ _ _ _ ih =>
    exact (ih hbase).of_symbols rfl (Nat.le_of_eq (Tree.size_replace _ _ _).symm) rfl (List.nil_subset _)
  | change h hchange ih => exact (ih hbase).change (h.built hbase.proper) hbase hchange

theorem inside (h : Course base parser yield nodes) (hbase : base.Inside brackets) :
    parser.Inside (yield.opened.reverse ++ brackets) :=
  (h.looped hbase).inside hbase h

end Course

end AdaSyntax
