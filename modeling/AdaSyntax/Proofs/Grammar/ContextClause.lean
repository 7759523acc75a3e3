import AdaSyntax.Proofs.Grammar.Unit

namespace AdaSyntax

def Tree.Mentions (tree : Tree) (items : List NodeId) (name : Name) : Prop :=
  ∃ clause ∈ items, ∃ units, tree.payload clause = .unit (.withClause units) ∧ ∃ unit ∈ units, unit.name = name

theorem Tree.Mentions.mono {tree later : Tree} {items items' : List NodeId} {name : Name}
    (h : tree.Mentions items name) (hgrown : tree.nodes.toList <+: later.nodes.toList) (hitems : items ⊆ items') :
    later.Mentions items' name := by
  obtain ⟨clause, hclause, units, hpayload, hunit⟩ := h
  refine ⟨clause, hitems hclause, units, ?_, hunit⟩
  rw [Tree.payload_of_isPrefix hgrown (by simp [hpayload]), hpayload]

namespace SymbolTable

variable {table : SymbolTable} {name : Name} {id : SymbolId}

/-- What a with clause finds under the name. -/
def unit? (table : SymbolTable) (name : Name) : Option SymbolId := (table.library.bindings.get name).head?

theorem library_of_enclosing {inner outer : SymbolTable} (h : inner.enclosing = outer.innermost :: outer.enclosing) :
    inner.library = outer.library := by
  rw [library, h, List.getLastD_cons]
  rfl

theorem bind_of_unnamed {symbol : Symbol} (hsymbol : table.symbol? id = some symbol)
    (hunnamed : table.innermost.bindings.get symbol.name = []) :
    table.bind id = (.new, table.putBinding symbol.name id) := by
  simp [bind, hsymbol, hunnamed, classifyBinding, putBinding]

theorem bind_of_last {symbol : Symbol} (hsymbol : table.symbol? id = some symbol)
    (hlast : (table.innermost.bindings.get symbol.name).getLast? = some id) : table.bind id = (.new, table) := by
  simp [bind, hsymbol, hlast]

end SymbolTable

namespace Parser

structure Contextual (base parser : Parser) (names : List Name) : Prop extends Within base parser where
  order : ∀ id ∈ parser.symbols.innermost.order,
    (∃ name ∈ names, base.symbols.unit? name = some id) ∨ parser.symbols.kindOf id = .unit
  bindings : ∀ name, ∀ id ∈ parser.symbols.innermost.bindings.get name,
    base.symbols.unit? name = some id ∨ base.symbols.unit? name = none
  units : ∀ id symbol, base.symbols.symbols.size ≤ id.index → parser.symbols.symbol? id = some symbol →
    symbol.kind = .unit

namespace Contextual

variable {base parser later : Parser} {moved : Bool} {yield : Yield} {names : List Name} {name : Name}
variable {id : SymbolId}

theorem opening (h : base.symbols.Filed) (kind : RegionKind) (owner : Option SymbolId) :
    Contextual base { base with symbols := base.symbols.openRegion kind owner } [] where
  toWithin := .opening h kind owner
  order := nofun
  bindings := nofun
  units _ _ hid hsymbol := absurd (Array.getElem?_eq_some_iff.mp hsymbol).1 (Nat.not_lt.mpr hid)

theorem library_eq (h : Contextual base parser names) : parser.symbols.library = base.symbols.library :=
  SymbolTable.library_of_enclosing h.enclosing

theorem of_unbound (h : Contextual base parser names) (hlater : Within base later)
    (hsymbols : later.symbols.symbols = parser.symbols.symbols) (hunbound : parser.symbols.Unbound later.symbols) :
    Contextual base later names where
  toWithin := hlater
  order id hid := by
    rw [SymbolTable.kindOf, SymbolTable.symbol?, hsymbols]
    exact h.order id (hunbound.order ▸ hid)
  bindings name id hid := h.bindings name id (hunbound.bindings ▸ hid)
  units id symbol hid hsymbol := h.units id symbol hid (by rwa [SymbolTable.symbol?, ← hsymbols])

theorem silent (h : Contextual base parser names) (hmade : Made parser later moved yield)
    (hsilent : yield.silent = true) (hfiles : yield.files = false) : Contextual base later names := by
  obtain ⟨nodes, hcourse⟩ := hmade.course
  exact h.of_unbound (h.made hmade (hcourse.opened_of_silent hsilent) hfiles)
    (hcourse.symbols_of_silent hsilent) (hcourse.unbound_of_silent hsilent)

theorem same (h : Contextual base parser names) (hsymbols : later.symbols = parser.symbols)
    (hlog : later.log = parser.log) : Contextual base later names :=
  h.of_unbound (h.toWithin.same hsymbols hlog) (congrArg SymbolTable.symbols hsymbols) (.of_symbols_eq hsymbols)

theorem of_names {names' : List Name} (h : Contextual base parser names) (hnames : names ⊆ names') :
    Contextual base parser names' := { h with
  order := by
    intro id hid
    refine (h.order id hid).imp_left ?_
    rintro ⟨name, hname, hfound⟩
    exact ⟨name, hnames hname, hfound⟩ }

theorem mention (h : Contextual base parser names) (hbase : base.symbols.enclosing = []) (hfiled : base.symbols.Filed)
    (hproper : parser.symbols.Proper) (hunit : base.symbols.unit? name = some id) :
    Contextual base (parser.bind id).2 (names ++ [name]) := by
  have hlibrary : base.symbols.library = base.symbols.innermost := by simp [SymbolTable.library, hbase]
  have hmem : id ∈ base.symbols.innermost.bindings.get name := hlibrary ▸ List.mem_of_head? hunit
  obtain ⟨symbol, hsymbol, rfl⟩ := (hfiled.innermost.bindings.get hmem).mono h.grown.reverts.symbols
  have hmentioned : Contextual base parser (names ++ [symbol.name]) :=
    h.of_names (List.subset_append_left _ _)
  have hsame : ∀ other ∈ parser.symbols.innermost.bindings.get symbol.name, other = id := by
    intro other hother
    rcases h.bindings _ other hother with hfound | hfound <;> rw [hfound] at hunit
    · exact Option.some.inj hunit
    · cases hunit
  cases hget : parser.symbols.innermost.bindings.get symbol.name with
  | nil =>
    rw [Parser.bind, SymbolTable.bind_of_unnamed hsymbol hget]
    have hgrown : parser.symbols.Grown (parser.symbols.putBinding symbol.name id) 0 :=
      .of_innermost (SymbolTable.putBinding_revertsTo hproper _ _) (.bind _ _ _) rfl rfl
    exact {
      grown := h.grown.trans hgrown
      enclosing := h.enclosing
      region := h.region
      log := h.log
      filed := h.filed.of_regions List.prefix_rfl (h.filed.of_innermost (h.filed.innermost.bind hsymbol)) rfl
      deep := h.deep
      reported := h.reported
      order := by
        intro other hother
        rcases List.mem_append.mp hother with hother | hother
        · exact hmentioned.order other hother
        · obtain rfl := List.mem_singleton.mp hother
          exact .inl ⟨symbol.name, by simp, hunit⟩
      bindings := by
        intro name other hother
        change other ∈ (parser.symbols.innermost.bindings.add symbol.name id).get name at hother
        by_cases hname : name = symbol.name
        · subst hname
          rw [Bindings.get_add_self, hget] at hother
          obtain rfl := List.mem_singleton.mp hother
          exact .inl hunit
        · rw [Bindings.get_add_of_ne _ _ hname] at hother
          exact h.bindings name other hother
      units := h.units }
  | cons first rest =>
    have hlast : (parser.symbols.innermost.bindings.get symbol.name).getLast? = some id := by
      rw [hget] at hsame ⊢
      rw [List.getLast?_eq_some_getLast (List.cons_ne_nil _ _), hsame _ (List.getLast_mem _)]
    rw [Parser.bind, SymbolTable.bind_of_last hsymbol hlast]
    exact hmentioned

theorem declare (h : Contextual base parser names) (hproper : parser.symbols.Proper) {declaration : Declaration}
    (hkind : declaration.kind = .unit) (hunit : base.symbols.unit? declaration.name = none) :
    Contextual base (parser.declare declaration).2 names := by
  obtain ⟨bound, henters⟩ := (Enters.refl h.filed).declare hproper declaration
  have hdeclared := parser.symbol?_declare declaration
  have hsymbols : (parser.declare declaration).2.symbols.symbols = parser.symbols.symbols.push
      { declaration with region := parser.symbols.innermost.id, depth := parser.symbols.depth } := by
    rw [show (parser.declare declaration).2.symbols = (parser.symbols.declare declaration).2.2 from
      reportDeclared_symbols ..]
    exact SymbolTable.declare_symbols _ _
  have hbound : ∀ id ∈ bound, id = ⟨parser.symbols.symbols.size⟩ := fun id hid =>
    List.mem_singleton.mp (henters.sublist.subset hid)
  exact {
    toWithin := h.stays henters.stays
    order := by
      intro id hid
      rw [henters.order] at hid
      rcases List.mem_append.mp hid with hid | hid
      · refine (h.order id hid).imp_right fun hkind => ?_
        obtain ⟨symbol, hsymbol, -⟩ := h.filed.innermost.order id hid
        rw [SymbolTable.kindOf, SymbolTable.symbol?_of_isPrefix henters.grown.reverts.symbols hsymbol]
        rwa [SymbolTable.kindOf, hsymbol] at hkind
      · rw [hbound id hid, SymbolTable.kindOf, hdeclared]
        exact .inr hkind
    bindings := by
      intro name id hid
      rcases henters.visible name id hid with hold | hnew
      · exact h.bindings name id hold
      · obtain rfl := hbound id hnew
        obtain ⟨symbol, hsymbol, rfl⟩ := henters.filed.innermost.bindings.get hid
        obtain rfl := Option.some.inj (hsymbol.symm.trans hdeclared)
        exact .inr hunit
    units := by
      intro id symbol hid hsymbol
      rw [SymbolTable.symbol?, hsymbols] at hsymbol
      by_cases hlt : id.index < parser.symbols.symbols.size
      · rw [Array.getElem?_push_lt hlt] at hsymbol
        exact h.units id symbol hid ((Array.getElem?_eq_getElem hlt).trans hsymbol)
      · have hle : id.index < (parser.symbols.symbols.push _).size := (Array.getElem?_eq_some_iff.mp hsymbol).1
        rw [Array.size_push] at hle
        obtain heq : id.index = parser.symbols.symbols.size := by omega
        rw [heq, Array.getElem?_push_size] at hsymbol
        obtain rfl := Option.some.inj hsymbol
        exact hkind }

end Contextual

end Parser

namespace Grammar

open Program AdaSyntax.Parser

variable {budget : Nat} {base parser : Parser} {names : List Name}

theorem withUnit_finds (h : base.Contextual parser names) (hbase : base.symbols.enclosing = [])
    (hfiled : base.symbols.Filed) (clause : NodeId) (unit : DefiningName Nat) :
    Finds budget (withUnit clause unit) parser fun _ later =>
      base.Contextual later (names ++ [unit.name]) ∧ later.tree = parser.tree := by
  refine .reachable fun hreachable => .query rfl ?_
  have hlibrary : (parser.symbols.library.bindings.get unit.name).head? = base.symbols.unit? unit.name := by
    rw [h.library_eq, SymbolTable.unit?]
  rw [hlibrary]
  cases hunit : base.symbols.unit? unit.name with
  | some id =>
    refine .step fun _ later hperform => ?_
    obtain ⟨-, rfl⟩ := Prod.mk.inj hperform
    exact ⟨h.mention hbase hfiled hreachable.proper hunit, (reportDeclared_reports ..).tree_eq⟩
  | none =>
    refine .bind (.step fun _ later hperform => ?_) fun _ later hlater => .pure hlater
    obtain ⟨-, rfl⟩ := Prod.mk.inj hperform
    refine ⟨?_, (reportDeclared_reports ..).tree_eq⟩
    exact (h.declare hreachable.proper rfl hunit).of_names (List.subset_append_left _ _)

theorem withUnits_finds (h : base.Contextual parser names) (hbase : base.symbols.enclosing = [])
    (hfiled : base.symbols.Filed) (clause : NodeId) (units : List (DefiningName Nat)) :
    Finds budget (withUnits clause units) parser fun _ later =>
      base.Contextual later (names ++ units.map DefiningName.name) ∧ later.tree = parser.tree := by
  induction units generalizing parser names with
  | nil => exact .pure ⟨by simpa using h, rfl⟩
  | cons unit units ih =>
    refine .bind (withUnit_finds h hbase hfiled clause unit) fun _ middle ⟨h, htree⟩ => ?_
    refine (ih h).mono fun _ later _ ⟨h, htree'⟩ => ⟨?_, htree'.trans htree⟩
    simpa using h

theorem withClause_finds (h : base.Contextual parser names) (hbase : base.symbols.enclosing = [])
    (hfiled : base.symbols.Filed) :
    Finds budget withClause parser fun node later => ∃ mentioned, base.Contextual later (names ++ mentioned) ∧
      ∀ name ∈ mentioned, later.tree.Mentions [node] name := by
  refine .position ?_
  refine .builds advance_passes fun _ later hmade => ?_
  replace h := h.silent hmade rfl rfl
  refine .builds identifierList_builds fun units later hmade => ?_
  replace h := h.silent hmade rfl rfl
  refine .builds (expect_passes _) fun _ later hmade => ?_
  replace h := h.silent hmade rfl rfl
  refine .bind (add_finds _ _) fun node later ⟨hsymbols, hlog, hpayload, _⟩ => ?_
  replace h := h.same hsymbols hlog
  refine .bind (withUnits_finds h hbase hfiled node units) fun _ last ⟨h, htree⟩ => .pure ⟨_, h, ?_⟩
  intro name hname
  obtain ⟨unit, hunit, rfl⟩ := List.mem_map.mp hname
  rw [htree]
  exact ⟨node, List.mem_singleton_self _, _, hpayload, _, List.mem_map_of_mem hunit, rfl⟩

theorem useClause_finds (h : base.Contextual parser names) :
    Finds budget useClause parser fun _ later => base.Contextual later names := by
  refine .position ?_
  refine .builds (expect_passes _) fun _ later hmade => ?_
  replace h := h.silent hmade rfl rfl
  refine .builds (separated_builds name_builds) fun packages later hpackages => ?_
  refine .builds (expect_passes _) fun _ middle hmade => ?_
  have hused : Finds budget (usePackages packages) middle fun _ last => base.Contextual last names := by
    intro _ _ last hrun
    rw [usePackages_run] at hrun
    obtain ⟨-, rfl⟩ := Prod.mk.inj hrun
    have hnames := hpackages.trans hmade
    rw [Yield.append_empty] at hnames
    exact h.silent hnames.usePackages rfl rfl
  refine .bind hused fun _ last h => (add_finds _ _).mono fun node _ _ ⟨hsymbols, hlog, _⟩ => ?_
  exact h.same hsymbols hlog

theorem pragma_finds (h : base.Contextual parser names) :
    Finds budget pragma parser fun _ later => base.Contextual later names := by
  refine .position ?_
  refine .builds (expect_passes _) fun _ later hmade => ?_
  replace h := h.silent hmade rfl rfl
  refine .builds definingIdentifier_passes fun name later hmade => ?_
  replace h := h.silent hmade rfl rfl
  refine .builds optionalActualParameters_builds fun arguments later hmade => ?_
  replace h := h.silent hmade rfl rfl
  refine .builds (expect_passes _) fun _ later hmade => ?_
  replace h := h.silent hmade rfl rfl
  exact (add_finds _ _).mono fun node _ _ ⟨hsymbols, hlog, _⟩ => h.same hsymbols hlog

theorem contextItem_finds {kind : TokenKind} {item : Program NodeId} (hitem : contextItem? kind = some item)
    (h : base.Contextual parser names) (hbase : base.symbols.enclosing = []) (hfiled : base.symbols.Filed) :
    Finds budget item parser fun node later => ∃ mentioned, base.Contextual later (names ++ mentioned) ∧
      ∀ name ∈ mentioned, later.tree.Mentions [node] name := by
  have hsilent : ∀ {node later}, base.Contextual later names → ∃ mentioned,
      base.Contextual later (names ++ mentioned) ∧ ∀ name ∈ mentioned, later.tree.Mentions [node] name :=
    fun h => ⟨[], by rwa [List.append_nil], nofun⟩
  unfold contextItem? at hitem
  split at hitem <;> cases hitem
  · exact withClause_finds h hbase hfiled
  · exact (useClause_finds h).mono fun _ _ _ h => hsilent h
  · exact (pragma_finds h).mono fun _ _ _ h => hsilent h

theorem contextItems_finds (h : base.Contextual parser []) (hbase : base.symbols.enclosing = [])
    (hfiled : base.symbols.Filed) :
    Finds budget contextItems parser fun items later => ∃ names, base.Contextual later names ∧
      ∀ name ∈ names, later.tree.Mentions items name := by
  refine .loop (fun items later => ∃ names, base.Contextual later names ∧
    ∀ name ∈ names, later.tree.Mentions items name) ⟨[], h, nofun⟩ fun items parser ⟨names, h, hnames⟩ => ?_
  refine .reads (Reads.query rfl) fun kind => ?_
  split
  · rename_i item hitem
    refine .bind ((contextItem_finds hitem h hbase hfiled).both (.made (contextItem_builds hitem)))
      fun node later hfound => ?_
    obtain ⟨⟨mentioned, h, hmentioned⟩, hmade⟩ := hfound
    refine .pure ⟨_, h, fun name hname => ?_⟩
    rcases List.mem_append.mp hname with hname | hname
    · exact (hnames name hname).mono hmade.reverts.nodes (List.subset_cons_self _ _)
    · exact (hmentioned name hname).mono List.prefix_rfl (by simp)
  · refine .pure ⟨names, h, fun name hname => ?_⟩
    exact (hnames name hname).mono List.prefix_rfl (by simp)

end Grammar

end AdaSyntax
