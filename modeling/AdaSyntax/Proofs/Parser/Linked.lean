import AdaSyntax.Proofs.Parser.Silent
import AdaSyntax.Proofs.Scope.Filed
import AdaSyntax.Proofs.Tree.Nesting

namespace AdaSyntax

def NameUse.written? : NameUse → Option Name
  | identifier written _ _ | selected _ written _ _ _ => some written
  | _ => none

structure NameUse.Refers (table : SymbolTable) (use : NameUse) (start : Nat) : Prop where
  known : ∀ id, use.symbol? = some id → ∃ symbol, table.symbol? id = some symbol ∧
    use.written? = some symbol.name ∧ use.classification = symbol.kind ∧ symbol.range.stop ≤ start
  unknown : use.symbol? = none → use.classification = .unresolved ∨ use.classification = .component

def Tree.Encloses (tree : Tree) (node : NodeId) (range : Range) : Prop :=
  ∃ entry, tree.get? node = some entry ∧ entry.range.start ≤ range.start ∧
    (entry.payload.isPlaceholder = false → range.stop ≤ entry.range.stop)

structure Parser.Linked (parser : Parser) : Prop where
  filed : parser.symbols.Filed
  declared : ∀ symbol ∈ parser.symbols.symbols, ∀ node, symbol.node = some node →
    parser.tree.Encloses node symbol.range
  passed : ∀ symbol ∈ parser.symbols.symbols,
    symbol.range.stop ≤ tokenStop parser.cursor.tokens parser.position
  names : ∀ id range use, parser.tree.get? id = some ⟨range, .name use⟩ →
    use.Refers parser.symbols range.start

section

variable {table later : SymbolTable} {use : NameUse} {start : Nat}

theorem NameUse.Refers.mono (h : use.Refers table start)
    (hgrown : table.symbols.toList <+: later.symbols.toList) : use.Refers later start where
  known id hid :=
    have ⟨symbol, hsymbol, hrest⟩ := h.known id hid
    ⟨symbol, SymbolTable.symbol?_of_isPrefix hgrown hsymbol, hrest⟩
  unknown := h.unknown

theorem SymbolTable.Denotes.refers {written : Name} {symbol : Option SymbolId} {kind : SymbolKind}
    (h : table.Denotes written ⟨symbol, kind⟩) (hsymbol : use.symbol? = symbol)
    (hkind : use.classification = kind) (hwritten : use.written? = some written)
    (hpassed : ∀ symbol ∈ table.symbols, symbol.range.stop ≤ start) : use.Refers table start where
  known := by
    rintro id hid
    obtain rfl := hsymbol.symm.trans hid
    obtain ⟨symbol, hsymbol, hname, heq⟩ := h
    exact ⟨symbol, hsymbol, hname ▸ hwritten, hkind.trans heq.symm,
      hpassed symbol (Array.mem_of_getElem? hsymbol)⟩
  unknown := by
    intro hnone
    obtain rfl := hsymbol.symm.trans hnone
    exact .inl (hkind.trans h)

theorem Payload.Resolved.refers (h : (Payload.name use).Resolved table) (hfiled : table.Filed)
    (hpassed : ∀ symbol ∈ table.symbols, symbol.range.stop ≤ start) : use.Refers table start := by
  cases use with
  | identifier written symbol kind =>
    have hdenotes := hfiled.denotes_resolve written
    rw [h] at hdenotes
    exact hdenotes.refers rfl rfl rfl hpassed
  | selected base selector form symbol kind =>
    rcases h with ⟨hnone, hkind⟩ | ⟨owner, howner⟩
    · exact ⟨fun id hid => (by cases hnone.symm.trans hid), fun _ => hkind.symm⟩
    · have hdenotes := hfiled.denotes_resolveMember owner selector
      rw [howner] at hdenotes
      exact hdenotes.refers rfl rfl rfl hpassed
  | _ => exact ⟨nofun, fun _ => .inl rfl⟩

end

namespace Tree.Encloses

variable {tree later : Tree} {node : NodeId} {range : Range}

theorem of_get? (h : tree.Encloses node range) (hsame : later.get? node = tree.get? node) :
    later.Encloses node range := by
  rwa [Encloses, hsame]

theorem lt_size (h : tree.Encloses node range) : node.index < tree.size :=
  have ⟨_, hentry, _⟩ := h
  (Array.getElem?_eq_some_iff.mp hentry).1

end Tree.Encloses

namespace Parser

section

variable {parser later : Parser}

theorem Spans.encloses {node : NodeId} {place : Nat} (h : parser.Spans node place)
    (hordered : Token.Ordered parser.cursor.tokens.toList) :
    parser.tree.Encloses node (parser.place place) := by
  obtain ⟨hlt, entry, low, hentry, hlow, hstart, hstop⟩ := h
  have hsize := parser.cursor.position_lt
  have hplace : place < parser.cursor.tokens.size := Nat.lt_trans hlt hsize
  refine ⟨entry, hentry, ?_, fun hfilled => ?_⟩
  · rw [hstart, place_start parser hplace]
    exact hordered.start_le_start hlow hplace
  · obtain ⟨high, hhigh, hle, hend⟩ := hstop hfilled
    rw [place_stop parser hplace]
    exact Nat.le_trans (hordered.stop_le_stop hhigh (Nat.le_trans hle (Nat.le_of_lt hsize))) hend

namespace Linked

theorem of_same (h : parser.Linked) (hfiled : later.symbols.Filed)
    (hsymbols : later.symbols.symbols = parser.symbols.symbols) (htree : later.tree = parser.tree)
    (hpassed : tokenStop parser.cursor.tokens parser.position ≤ tokenStop later.cursor.tokens later.position) :
    later.Linked where
  filed := hfiled
  declared := by
    rw [hsymbols, htree]
    exact h.declared
  passed symbol hsymbol := Nat.le_trans (h.passed symbol (hsymbols ▸ hsymbol)) hpassed
  names id range use hnode :=
    (h.names id range use (htree ▸ hnode)).mono (hsymbols ▸ List.prefix_rfl)

theorem symbols {table : SymbolTable} (h : parser.Linked) (hfiled : table.Filed)
    (hsymbols : table.symbols = parser.symbols.symbols) :
    ({ parser with symbols := table } : Parser).Linked :=
  h.of_same hfiled hsymbols rfl (Nat.le_refl _)

theorem reports (h : parser.Linked) (hlater : later.Reports parser) : later.Linked := by
  rcases hlater with rfl | ⟨diagnostic, rfl⟩
  · exact h
  · exact h.of_same h.filed rfl rfl (Nat.le_refl _)

theorem usePackages (h : parser.Linked) (packages : List NodeId) : (parser.usePackages packages).Linked := by
  induction packages generalizing parser with
  | nil => exact h
  | cons package packages ih =>
    refine ih ?_
    unfold usePackage
    split
    · exact h.symbols (h.filed.addImport ..) rfl
    · exact h.symbols (h.filed.addImport ..) rfl
    · exact h.reports (parser.find_reports _)

theorem follow {cursor : Cursor} (h : parser.Linked) (hcursor : cursor.Follows parser.cursor)
    (hordered : Token.Ordered parser.cursor.tokens.toList) : ({ parser with cursor } : Parser).Linked := by
  refine h.of_same h.filed rfl rfl ?_
  change tokenStop parser.cursor.tokens parser.cursor.position ≤ tokenStop cursor.tokens cursor.position
  rw [hcursor.tokens]
  exact hordered.stop_le_stop hcursor.le (Nat.le_of_lt (hcursor.tokens ▸ cursor.position_lt))

theorem declare {declaration : Declaration} {node : NodeId} {place : Nat} (h : parser.Linked)
    (hordered : Token.Ordered parser.cursor.tokens.toList) (hnode : declaration.node = some node)
    (hrange : declaration.range = parser.place place) (hspans : parser.Spans node place) :
    ({ parser with symbols := (parser.symbols.declare declaration).2.2 } : Parser).Linked := by
  have hsymbols := parser.symbols.declare_symbols declaration
  have hsize := parser.cursor.position_lt
  have hplace : place < parser.cursor.tokens.size := Nat.lt_trans hspans.1 hsize
  refine ⟨h.filed.declare declaration, ?_, ?_, ?_⟩
  · intro symbol hsymbol other hother
    rcases Array.mem_push.mp (hsymbols ▸ hsymbol) with hsymbol | rfl
    · exact h.declared symbol hsymbol other hother
    · obtain rfl := Option.some.inj (hnode.symm.trans hother)
      exact hrange ▸ hspans.encloses hordered
  · intro symbol hsymbol
    rcases Array.mem_push.mp (hsymbols ▸ hsymbol) with hsymbol | rfl
    · exact h.passed symbol hsymbol
    · change declaration.range.stop ≤ _
      rw [hrange, place_stop parser hplace]
      exact hordered.stop_le_stop hspans.1 (Nat.le_of_lt hsize)
  · intro id range use hname
    exact (h.names id range use hname).mono (by simp [hsymbols])

theorem push {range : Range} {payload : Payload Range} (h : parser.Linked)
    (hname : ∀ use, payload = .name use → use.Refers parser.symbols range.start) :
    ({ parser with tree := (parser.tree.add range payload).2 } : Parser).Linked where
  filed := h.filed
  declared symbol hsymbol node hnode :=
    have hencloses := h.declared symbol hsymbol node hnode
    hencloses.of_get? (parser.tree.get?_add_of_lt _ _ hencloses.lt_size)
  passed := h.passed
  names id other use hnode := by
    rcases Tree.get?_add_cases hnode with ⟨rfl, heq⟩ | hnode
    · obtain ⟨rfl, hpayload⟩ := Node.mk.inj heq
      exact hname use hpayload.symm
    · exact h.names id other use hnode

theorem fill {hole : NodeId} {start : Nat} {range : Range} {payload : Payload Range} (h : parser.Linked)
    (hawaits : parser.Awaits hole start) (hstart : range.start = tokenStart parser.cursor.tokens start)
    (hstop : tokenStop parser.cursor.tokens parser.position ≤ range.stop)
    (hname : payload.isName = false) :
    ({ parser with tree := parser.tree.replace hole ⟨range, payload⟩ } : Parser).Linked where
  filed := h.filed
  declared symbol hsymbol node hnode := by
    have hencloses := h.declared symbol hsymbol node hnode
    by_cases heq : node = hole
    · subst heq
      obtain ⟨entry, hentry, hbegin, -⟩ := hencloses
      obtain rfl := Option.some.inj (hawaits.2.symm.trans hentry)
      refine ⟨_, Tree.get?_replace_self _ (Array.getElem?_eq_some_iff.mp hentry).1, ?_, fun _ => ?_⟩
      · exact hstart ▸ hbegin
      · exact Nat.le_trans (h.passed symbol hsymbol) hstop
    · exact hencloses.of_get? (Tree.get?_replace_of_ne _ heq)
  passed := h.passed
  names id other use hnode := by
    change (parser.tree.replace hole ⟨range, payload⟩).get? id = _ at hnode
    by_cases heq : id = hole
    · subst heq
      rw [Tree.get?_replace_self _ (Array.getElem?_eq_some_iff.mp hawaits.2).1] at hnode
      obtain ⟨-, rfl⟩ := Node.mk.inj (Option.some.inj hnode)
      cases hname
    · rw [Tree.get?_replace_of_ne _ heq] at hnode
      exact h.names id other use hnode

theorem change {base : Parser} {yield yield' : Yield} {change : TableChange} (h : parser.Linked)
    (hordered : Token.Ordered parser.cursor.tokens.toList) (hchange : Change base parser yield change yield') :
    ({ parser with symbols := parser.symbols.change change } : Parser).Linked := by
  cases hchange with
  | declare _ hnode hrange hspans => exact h.declare hordered hnode hrange hspans
  | label _ _ _ hnode hrange hspans => exact h.declare hordered hnode hrange hspans
  | parameter _ _ _ _ hnode hrange hspans => exact h.declare hordered hnode hrange hspans
  | _ => exact h.symbols (h.filed.change _) (SymbolTable.change_symbols _ rfl)

end Linked

end

end Parser

theorem Course.linked {base parser : Parser} {yield : Yield} {nodes : List NodeId}
    (h : Course base parser yield nodes) (hproper : base.symbols.Proper)
    (hordered : Token.Ordered base.cursor.tokens.toList) (hlinked : base.Linked) : parser.Linked := by
  induction h with
  | refl => exact hlinked
  | append h _ ih ih' =>
    have hbuilt := h.built hproper
    exact ih' hbuilt.proper (hbuilt.reverts.tokens ▸ hordered) (ih hproper hordered hlinked)
  | nested _ ih =>
    have h := ih hproper hordered (hlinked.of_same hlinked.filed rfl rfl (Nat.le_refl _))
    exact h.of_same h.filed rfl rfl (Nat.le_refl _)
  | listed _ ih =>
    have h := ih hproper hordered (hlinked.of_same hlinked.filed rfl rfl (Nat.le_refl _))
    exact h.of_same h.filed rfl rfl (Nat.le_refl _)
  | resume _ hlater ih =>
    obtain ⟨next, furthest, -, rfl⟩ := hlater
    have h := ih hproper hordered hlinked
    exact h.of_same (h.filed.of_regions List.prefix_rfl h.filed.regions rfl) rfl rfl (Nat.le_refl _)
  | weaken _ _ ih => exact ih hproper hordered hlinked
  | advance h hadvance ih =>
    have htokens := (h.built hproper).reverts.tokens
    exact (ih hproper hordered hlinked).follow (.inr ⟨_, hadvance⟩) (htokens ▸ hordered)
  | report _ _ ih => exact (ih hproper hordered hlinked).reports (.inr ⟨_, rfl⟩)
  | declared _ _ _ _ ih => exact (ih hproper hordered hlinked).reports (Parser.reportDeclared_reports ..)
  | mark _ ih => exact (ih hproper hordered hlinked).reports (Parser.checkMark_reports _ _)
  | bounds _ _ ih => exact ih hproper hordered hlinked
  | packages _ ih => exact (ih hproper hordered hlinked).usePackages _
  | exit _ _ _ _ _ ih =>
    exact ((ih hproper hordered hlinked).push fun use huse => by cases huse).reports
      (Parser.checkExit_reports _ _ _)
  | @add base parser yield nodes payload role cursor h hfits _ hresolved hcursor hmoved ih =>
    have hbuilt := h.built hproper
    have htokens := hbuilt.reverts.tokens
    have hstart := parser.place_start hbuilt.position_lt
    have hbefore := ih hproper hordered hlinked
    refine Parser.Linked.follow (hbefore.push fun use huse => ?_) hcursor (htokens ▸ hordered)
    -- nothing was declared since the name began
    obtain rfl := Payload.map_eq_name huse
    have hsymbols := h.symbols_of_silent (hfits.silent rfl)
    refine hresolved.refers hbefore.filed fun symbol hsymbol => ?_
    refine Nat.le_trans (hlinked.passed symbol (hsymbols ▸ hsymbol)) ?_
    change _ ≤ (parser.place base.position).start
    rw [hstart, htokens]
    exact hordered.stop_le_start (Nat.le_refl _) base.cursor.position_lt
  | reserve _ ih => exact (ih hproper hordered hlinked).push nofun
  | @fill base parser yield nodes hole payload role h hholes hstart hfits hcompletes hmoved ih =>
    have hbuilt := h.built hproper
    have hawaits := (hbuilt.holes hole (hholes ▸ List.mem_singleton_self _)).1
    have hrange := parser.rangeFrom_eq hbuilt.position_lt
    refine (ih hproper hordered hlinked).fill hawaits ?_ ?_ ?_
    · rw [hrange, hstart]
      rfl
    · rw [hrange]
      exact Nat.le_max_right _ _
    · rw [Payload.isName_map]
      exact hcompletes.isName
  | change h hchange ih =>
    have htokens := (h.built hproper).reverts.tokens
    exact (ih hproper hordered hlinked).change (htokens ▸ hordered) hchange

end AdaSyntax
