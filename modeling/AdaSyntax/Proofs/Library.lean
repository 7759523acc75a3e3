import AdaSyntax.Proofs.Compilation
import AdaSyntax.Proofs.Grammar.ContextClause
import AdaSyntax.Proofs.Progress
import AdaSyntax.Proofs.References

/-!
The library. A unit leaves in it what it declared itself, and nothing of its context clauses, but for one thing:
where the library has a name more than once, a with clause finds the first of its symbols, and that symbol is bound
again when the unit is complete.
-/

namespace AdaSyntax

def SymbolTable.Superseded (table : SymbolTable) (name : Name) (id : SymbolId) : Prop :=
  table.unit? name = some id ∧ (table.library.bindings.get name).getLast? ≠ some id

namespace Parser

structure Shelved (base inner parser : Parser) (names : List Name) (named : List SymbolId) : Prop where
  symbols : parser.symbols.symbols = inner.symbols.symbols
  enclosing : parser.symbols.enclosing = []
  region : parser.symbols.innermost.id = base.symbols.innermost.id
  imports : parser.symbols.innermost.imports = base.symbols.innermost.imports
  tree : parser.tree = inner.tree
  log : inner.log.records.toList <+: parser.log.records.toList
  filed : parser.symbols.Filed
  order : parser.symbols.innermost.order = base.symbols.innermost.order ++ named
  visible : ∀ name, ∀ id ∈ parser.symbols.innermost.bindings.get name,
    id ∈ base.symbols.innermost.bindings.get name ∨ id ∈ named
  settled : ∀ name id, base.symbols.unit? name = some id → ¬base.symbols.Superseded name id →
    parser.symbols.innermost.bindings.get name = base.symbols.innermost.bindings.get name
  superseded : ∀ id ∈ named, ∃ name ∈ names, base.symbols.Superseded name id
  reported : ∀ report ∈ parser.reportsSince inner, report.code = .duplicateDeclaration →
    ∃ name ∈ names, ∃ id, base.symbols.Superseded name id ∧ parser.Refuses report id

structure Stored (base inner parser : Parser) (names : List Name) (named offered own : List SymbolId) : Prop where
  symbols : parser.symbols.symbols = inner.symbols.symbols
  enclosing : parser.symbols.enclosing = []
  imports : parser.symbols.innermost.imports = base.symbols.innermost.imports
  tree : inner.tree.nodes.toList <+: parser.tree.nodes.toList
  log : inner.log.records.toList <+: parser.log.records.toList
  filed : parser.symbols.Filed
  order : parser.symbols.innermost.order = base.symbols.innermost.order ++ named ++ own
  superseded : ∀ id ∈ named, ∃ name ∈ names, base.symbols.Superseded name id
  sublist : own.Sublist offered
  refused : ∀ id ∈ offered, id ∈ own ∨ ∃ report ∈ parser.reportsSince inner, parser.Refuses report id
  reported : ∀ report ∈ parser.reportsSince inner, report.code = .duplicateDeclaration →
    (∃ id ∈ offered, parser.Refuses report id) ∨
      ∃ name ∈ names, ∃ id, base.symbols.Superseded name id ∧ parser.Refuses report id

theorem Stored.same {base inner parser later : Parser} {names : List Name} {named offered own : List SymbolId}
    (h : Stored base inner parser names named offered own) (hsymbols : later.symbols = parser.symbols)
    (hlog : later.log = parser.log) (htree : parser.tree.nodes.toList <+: later.tree.nodes.toList) :
    Stored base inner later names named offered own := by
  obtain ⟨cursor, log, symbols⟩ := later
  obtain rfl : symbols = parser.symbols := hsymbols
  obtain rfl : log = parser.log := hlog
  exact { h with tree := h.tree.trans htree, refused := h.refused, reported := h.reported }

/-- What a unit that is no subunit leaves in the library: first `named`, which its clauses found there, and then
`own` of the symbols in `declared`, which are all that it declared itself at its outermost level. -/
structure Files (before after : Parser) (context : List NodeId) (body : NodeId)
    (named declared own : List SymbolId) : Prop where
  order : after.symbols.library.order = before.symbols.library.order ++ named ++ own
  imports : after.symbols.library.imports = before.symbols.library.imports
  named : ∀ id ∈ named, ∃ name, after.tree.Mentions context name ∧ before.symbols.Superseded name id
  declares : (declared = [] ∧ (after.tree.payload body).isPackageBody = true) ∨
    ∃ id, declared = [id] ∧ before.Own after body id
  outermost : ∀ id symbol, before.symbols.symbols.size ≤ id.index → after.symbols.symbol? id = some symbol →
    symbol.kind ≠ .unit → symbol.depth = before.symbols.depth + 1 → id ∈ declared
  sublist : own.Sublist declared
  refused : ∀ id ∈ declared, id ∈ own ∨ ∃ report ∈ after.reportsSince before, after.Refuses report id
  reported : ∀ report ∈ after.reportsSince before, report.code = .duplicateDeclaration →
    before.Concerns after report ∨
      ∃ name id, after.tree.Mentions context name ∧ before.symbols.Superseded name id ∧ after.Refuses report id

/-- The unit was read, and it has left in the library what is its due. -/
structure Completes (before after : Parser) (unit : NodeId) : Prop where
  enclosing : after.symbols.enclosing = []
  filed : after.symbols.Filed
  unit : ∃ context body, after.tree.payload unit = .unit (.compilationUnit context body) ∧
    (((∃ parent proper, after.tree.payload body = .unit (.subunit parent proper)) ∧
        after.symbols.library = before.symbols.library ∧
        ∀ report ∈ after.reportsSince before, report.code = .duplicateDeclaration → before.Concerns after report) ∨
      ∃ named declared own, Files before after context body named declared own)

section

variable {base inner parser : Parser} {names : List Name} {named : List SymbolId} {name : Name} {id : SymbolId}

theorem library_eq (h : base.symbols.enclosing = []) : base.symbols.library = base.symbols.innermost := by
  simp [SymbolTable.library, h]

theorem unit?_names (hbase : base.symbols.enclosing = []) (hfiled : base.symbols.Filed)
    (hunit : base.symbols.unit? name = some id) : base.symbols.Names id name := by
  rw [SymbolTable.unit?, library_eq hbase] at hunit
  exact hfiled.innermost.bindings.get (List.mem_of_head? hunit)

theorem Shelved.bind (h : Shelved base inner parser names named) (hbase : base.symbols.enclosing = [])
    (hfiled : base.symbols.Filed) (hgrown : base.symbols.symbols.toList <+: inner.symbols.symbols.toList)
    (hname : name ∈ names) (hunit : base.symbols.unit? name = some id) :
    ∃ named', Shelved base inner (parser.bind id).2 names named' := by
  obtain ⟨symbol, hsymbol, rfl⟩ := (unit?_names hbase hfiled hunit).mono (h.symbols ▸ hgrown)
  by_cases hlast : (parser.symbols.innermost.bindings.get symbol.name).getLast? = some id
  · rw [Parser.bind, SymbolTable.bind_of_last hsymbol hlast]
    exact ⟨named, h⟩
  · have hsuperseded : base.symbols.Superseded symbol.name id := by
      refine Classical.byContradiction fun hsettled => ?_
      rw [h.settled _ _ hunit hsettled, ← library_eq hbase] at hlast
      exact hsettled ⟨hunit, hlast⟩
    rcases bind_cases h.filed hsymbol hlast with heq | ⟨diagnostic, hrefuses, heq⟩ <;> rw [heq]
    · refine ⟨named ++ [id], { h with
        filed := h.filed.of_regions List.prefix_rfl (h.filed.of_innermost (h.filed.innermost.bind hsymbol)) rfl
        order := ?_
        visible := ?_
        settled := ?_
        superseded := ?_ }⟩
      · change parser.symbols.innermost.order ++ [id] = _
        rw [h.order, List.append_assoc]
      · intro name other hother
        change other ∈ (parser.symbols.innermost.bindings.add symbol.name id).get name at hother
        by_cases hsame : name = symbol.name
        · rw [hsame, Bindings.get_add_self, ← hsame] at hother
          rcases List.mem_append.mp hother with hother | hother
          · exact (h.visible name other hother).imp_right (List.mem_append_left _)
          · exact .inr (List.mem_append_right _ hother)
        · rw [Bindings.get_add_of_ne _ _ hsame] at hother
          exact (h.visible name other hother).imp_right (List.mem_append_left _)
      · intro name other hfound hsettled
        have hne : name ≠ symbol.name := by
          rintro rfl
          obtain rfl := Option.some.inj (hfound.symm.trans hunit)
          exact hsettled hsuperseded
        change (parser.symbols.innermost.bindings.add symbol.name id).get name = _
        rw [Bindings.get_add_of_ne _ _ hne]
        exact h.settled name other hfound hsettled
      · intro other hother
        rcases List.mem_append.mp hother with hother | hother
        · exact h.superseded other hother
        · exact ⟨_, hname, List.mem_singleton.mp hother ▸ hsuperseded⟩
    · have hlog : parser.log.records.toList <+: (parser.report diagnostic).log.records.toList := by
        simp [report, DiagnosticLog.report]
      refine ⟨named, { h with log := h.log.trans hlog, reported := ?_ }⟩
      intro report hreport hcode
      rw [reportsSince_trans h.log hlog, reportsSince_report] at hreport
      rcases List.mem_append.mp hreport with hreport | hreport
      · exact h.reported report hreport hcode
      · exact ⟨_, hname, id, hsuperseded, List.mem_singleton.mp hreport ▸ hrefuses⟩

end

end Parser

namespace Grammar

open Program AdaSyntax.Parser

variable {budget : Nat} {base inner parser : Parser} {names : List Name} {named : List SymbolId}

theorem closeUnit_finds (h : base.Within inner) (hbase : base.symbols.enclosing = []) (names : List Name) :
    Finds budget closeRegion inner fun members later =>
      members.all = inner.symbols.innermost.order ∧ later.symbols.innermost = base.symbols.innermost ∧
        Shelved base inner later names [] := by
  refine .step fun members later hperform => ?_
  obtain ⟨closed, table, hclose, -⟩ := h.grown.closeRegion
  simp only [Parser.perform, hclose] at hperform
  obtain ⟨hmembers, rfl⟩ := Prod.mk.inj hperform
  obtain rfl := Reply.matched.inj hmembers
  have htable : inner.symbols.change .closeRegion = table := by simp [SymbolTable.change, hclose]
  have hmembers := SymbolTable.closeRegion_members hclose
  simp only [SymbolTable.closeRegion, h.enclosing] at hclose
  obtain ⟨-, rfl⟩ := Prod.mk.inj (Option.some.inj hclose)
  exact ⟨hmembers, rfl, {
    symbols := rfl
    enclosing := hbase
    region := rfl
    imports := rfl
    tree := rfl
    log := List.prefix_rfl
    filed := htable ▸ h.filed.closeRegion
    order := (List.append_nil _).symm
    visible := fun _ _ hid => .inl hid
    settled := fun _ _ _ _ => rfl
    superseded := List.forall_mem_nil _
    reported := by simp [reportsSince_of_log] }⟩

theorem moveToLibrary_finds {front own : List SymbolId} {done : Unit → Parser → Prop}
    (h : Shelved base inner parser names named) (hbase : base.symbols.enclosing = []) (hfiled : base.symbols.Filed)
    (hgrown : base.symbols.symbols.toList <+: inner.symbols.symbols.toList)
    (hfront : ∀ id ∈ front, (∃ name ∈ names, base.symbols.unit? name = some id) ∨ inner.symbols.kindOf id = .unit)
    (hown : ∀ named later, Shelved base inner later names named → Finds budget (moveToLibrary own) later done) :
    Finds budget (moveToLibrary (front ++ own)) parser done := by
  induction front generalizing parser named with
  | nil => exact hown named parser h
  | cons id front ih =>
    obtain ⟨hid, hfront⟩ := List.forall_mem_cons.mp hfront
    refine .query rfl (.reads (Reads.query rfl) fun known => ?_)
    dsimp only
    split
    · rename_i hcond
      rcases hid with ⟨name, hname, hunit⟩ | hkind
      · have hbound : Finds budget (.step (.bind id)) parser fun _ later => ∃ named', Shelved base inner later names named' := by
          refine .step fun _ later hperform => ?_
          obtain ⟨-, rfl⟩ := Prod.mk.inj hperform
          exact h.bind hbase hfiled hgrown hname hunit
        exact .bind hbound fun _ later ⟨_, h⟩ => ih h hfront
      · have hkept : parser.symbols.kindOf id = .unit := by
          rw [SymbolTable.kindOf, SymbolTable.symbol?, h.symbols]
          exact hkind
        simp [hkept] at hcond
    · exact ih h hfront

theorem moveOwn_finds {id : SymbolId} {symbol : Symbol} (h : Shelved base inner parser names named)
    (hbase : base.symbols.enclosing = []) (hfiled : base.symbols.Filed)
    (hsymbol : inner.symbols.symbol? id = some symbol) (hkind : symbol.kind ≠ .unit)
    (hregion : symbol.region ≠ base.symbols.innermost.id) (hfresh : base.symbols.symbols.size ≤ id.index) :
    Finds budget (moveToLibrary [id]) parser fun _ later => ∃ own, Stored base inner later names named [id] own := by
  replace hsymbol : parser.symbols.symbol? id = some symbol := by
    rw [SymbolTable.symbol?, h.symbols]
    exact hsymbol
  have hknown : parser.symbols.kindOf id ≠ .unit := by
    rwa [SymbolTable.kindOf, hsymbol]
  have hhere : parser.perform (.declaredHere id) = (.matched false, parser) := by
    simp [Parser.perform, hsymbol, h.region, hregion]
  have hlast : (parser.symbols.innermost.bindings.get symbol.name).getLast? ≠ some id := by
    intro hlast
    rcases h.visible _ _ (List.mem_of_getLast? hlast) with hold | hnamed
    · exact Nat.not_lt.mpr hfresh (hfiled.lt_size hold)
    · obtain ⟨name, -, hunit, -⟩ := h.superseded _ hnamed
      obtain ⟨symbol, hsymbol, -⟩ := unit?_names hbase hfiled hunit
      exact Nat.not_lt.mpr hfresh (Array.getElem?_eq_some_iff.mp hsymbol).1
  refine .query rfl (.query hhere ?_)
  simp only [ne_eq, hknown, not_false_eq_true, decide_true, Bool.not_false, Bool.and_self, if_true]
  refine .bind (.step fun _ later hperform => ?_) fun _ later hlater => .pure hlater
  obtain ⟨-, rfl⟩ := Prod.mk.inj hperform
  rcases bind_cases h.filed hsymbol hlast with heq | ⟨diagnostic, hrefuses, heq⟩ <;> rw [heq]
  · exact ⟨[id], { h with
      tree := h.tree ▸ List.prefix_rfl
      filed := h.filed.of_regions List.prefix_rfl (h.filed.of_innermost (h.filed.innermost.bind hsymbol)) rfl
      order := congrArg (· ++ [id]) h.order
      sublist := .refl _
      refused := fun _ hother => .inl hother
      reported := fun report hreport hcode => .inr (h.reported report hreport hcode) }⟩
  · have hlog : parser.log.records.toList <+: (parser.report diagnostic).log.records.toList := by
      simp [report, DiagnosticLog.report]
    have hsince := reportsSince_trans h.log hlog
    rw [reportsSince_report] at hsince
    refine ⟨[], { h with
      tree := h.tree ▸ List.prefix_rfl
      log := h.log.trans hlog
      order := (List.append_nil _).symm ▸ h.order
      sublist := List.nil_sublist _
      refused := ?_
      reported := ?_ }⟩
    · intro other hother
      obtain rfl := List.mem_singleton.mp hother
      exact .inr ⟨diagnostic, hsince ▸ List.mem_append_right _ (List.mem_singleton_self _), hrefuses⟩
    · intro report hreport hcode
      rw [hsince] at hreport
      rcases List.mem_append.mp hreport with hreport | hreport
      · exact .inr (h.reported report hreport hcode)
      · obtain rfl := List.mem_singleton.mp hreport
        exact .inl ⟨id, List.mem_singleton_self _, hrefuses⟩

theorem stored_of_shelved (h : Shelved base inner parser names named) : Stored base inner parser names named [] [] :=
  { h with
    tree := h.tree ▸ List.prefix_rfl
    order := (List.append_nil _).symm ▸ h.order
    sublist := .slnil
    refused := List.forall_mem_nil _
    reported := fun report hreport hcode => .inr (h.reported report hreport hcode) }

theorem subunit_finds : Finds budget subunit parser fun node later =>
    ∃ parent body, later.tree.payload node = .unit (.subunit parent body) := by
  refine .position ?_
  refine .builds advance_passes fun _ later _ => ?_
  refine .builds (parenthesized_builds expandedName_builds) fun parent later _ => ?_
  refine .builds (importParent_passes parent) fun _ later _ => ?_
  refine .builds (firstOf_builds .declaration (by decide)) fun body later _ => ?_
  exact (add_finds _ _).mono fun node later _ ⟨_, _, hpayload, _⟩ => ⟨parent, body, hpayload⟩

theorem files_of_stored {ready later : Parser} {context : List NodeId} {body : NodeId}
    {declared bound own : List SymbolId} (hbase : base.symbols.enclosing = []) (h : base.Contextual ready names)
    (henters : ready.Enters inner declared bound) (hstored : Stored base inner later names named bound own)
    (hnames : ∀ name ∈ names, later.tree.Mentions context name)
    (hcases : (declared = [] ∧ (later.tree.payload body).isPackageBody = true) ∨
      ∃ id, declared = [id] ∧ base.Own later body id) : Files base later context body named declared own := by
  have hwithin : base.Within inner := h.stays henters.stays
  have hsince := reportsSince_trans hwithin.log hstored.log
  have hfresh : ∀ id ∈ declared, base.symbols.symbols.size ≤ id.index := fun id hid =>
    Nat.le_trans h.grown.symbols_le (henters.fresh id hid)
  have hlater := library_eq hstored.enclosing
  refine {
    order := by rw [hlater, library_eq hbase, hstored.order]
    imports := by rw [hlater, library_eq hbase, hstored.imports]
    named := ?_
    declares := hcases
    outermost := ?_
    sublist := hstored.sublist.trans henters.sublist
    refused := ?_
    reported := ?_ }
  · intro id hid
    obtain ⟨name, hname, hsuperseded⟩ := hstored.superseded id hid
    exact ⟨name, hnames name hname, hsuperseded⟩
  · intro id symbol hid hsymbol hkind hdepth
    rw [SymbolTable.symbol?, hstored.symbols] at hsymbol
    by_cases hlt : id.index < ready.symbols.symbols.size
    · have hready : ready.symbols.symbol? id = some ready.symbols.symbols[id.index] := Array.getElem?_eq_getElem hlt
      have hsame := SymbolTable.symbol?_of_isPrefix henters.grown.reverts.symbols hready
      obtain rfl := Option.some.inj (hsymbol.symm.trans hsame)
      exact absurd (h.units id _ hid hready) hkind
    · have hopen : ready.symbols.depth = base.symbols.depth + 1 := by
        simp [SymbolTable.depth, h.enclosing]
      exact (henters.deep id symbol (Nat.not_lt.mp hlt) hsymbol).2 (hdepth.trans hopen.symm)
  · intro id hid
    rw [hsince]
    rcases henters.refused id hid with hbound | ⟨report, hreport, hrefuses⟩
    · refine (hstored.refused id hbound).imp_right ?_
      rintro ⟨report, hreport, hrefuses⟩
      exact ⟨report, List.mem_append_right _ hreport, hrefuses⟩
    · rw [reportsSince_trans h.log henters.log]
      refine .inr ⟨report, List.mem_append_left _ (List.mem_append_right _ hreport), ?_⟩
      exact hrefuses.mono (hstored.symbols ▸ List.prefix_rfl)
  · intro report hreport hcode
    rw [hsince] at hreport
    rcases List.mem_append.mp hreport with hreport | hreport
    · refine .inl ((hwithin.reported report hreport hcode).mono (Nat.le_refl _) ?_)
      exact hstored.symbols ▸ List.prefix_rfl
    · rcases hstored.reported report hreport hcode with ⟨id, hid, hrefuses⟩ | ⟨name, hname, id, hrest⟩
      · obtain ⟨-, symbol, hsymbol, hrange⟩ := hrefuses
        exact .inl ⟨id, symbol, hfresh id (henters.sublist.subset hid), hsymbol, hrange⟩
      · exact .inr ⟨name, id, hnames name hname, hrest⟩

theorem compilationUnit_completes (hbase : base.symbols.enclosing = []) (hfiled : base.symbols.Filed) :
    Finds budget compilationUnit base fun unit later => base.Completes later unit := by
  refine .reachable fun hreachable => .position ?_
  have hopening : Finds budget (openRegion .context none) base fun _ later => base.Contextual later [] := by
    refine .step fun _ later hperform => ?_
    obtain ⟨-, rfl⟩ := Prod.mk.inj hperform
    exact .opening hfiled _ _
  refine .bind hopening fun _ opened h => ?_
  refine .bind (contextItems_finds h hbase hfiled) fun context ready ⟨names, h, hnames⟩ => ?_
  refine .reads (isAt_reads _) fun isSubunit => ?_
  dsimp only
  cases isSubunit with
  | true =>
    refine .bind (subunit_finds.both (.made subunit_builds)) fun body inner ⟨⟨parent, proper, hpayload⟩, hmade⟩ => ?_
    have hwithin := h.toWithin.made hmade rfl rfl
    refine .bind (closeUnit_finds hwithin hbase []) fun members closed ⟨_, hlibrary, hclosed⟩ => ?_
    refine (add_finds _ _).mono fun unit later _ ⟨hsymbols, hlog, hunit, hgrown⟩ => ?_
    rw [hclosed.tree] at hgrown
    have hstored := (stored_of_shelved hclosed).same hsymbols hlog (hclosed.tree ▸ hgrown)
    refine ⟨hstored.enclosing, hstored.filed, context, body, hunit, .inl ⟨⟨parent, proper, ?_⟩, ?_, ?_⟩⟩
    · rw [Tree.payload_of_isPrefix hgrown (by simp [hpayload]), hpayload]
    · rw [library_eq hstored.enclosing, hsymbols, hlibrary, library_eq hbase]
    · intro report hreport hcode
      rw [reportsSince_trans hwithin.log hstored.log] at hreport
      rcases List.mem_append.mp hreport with hreport | hreport
      · exact (hwithin.reported report hreport hcode).mono (Nat.le_refl _) (hstored.symbols ▸ List.prefix_rfl)
      · rcases hstored.reported report hreport hcode with ⟨id, hid, -⟩ | ⟨name, hname, -⟩
        · cases hid
        · cases hname
  | false =>
    refine .bind ((libraryUnit_declares h.filed).both (.made (firstOf_builds .declaration (by decide))))
      fun body inner ⟨⟨declared, bound, henters, hcases⟩, hmade⟩ => ?_
    have hwithin := h.toWithin.stays henters.stays
    refine .bind (closeUnit_finds hwithin hbase names) fun members closed ⟨hmembers, _, hclosed⟩ => ?_
    have hregion : base.symbols.innermost.id.index < ready.symbols.innermost.id.index :=
      h.region ▸ hreachable.numbered.innermost
    have hfront : ∀ id ∈ ready.symbols.innermost.order,
        (∃ name ∈ names, base.symbols.unit? name = some id) ∨ inner.symbols.kindOf id = .unit := by
      intro id hid
      refine (h.order id hid).imp_right fun hkind => ?_
      obtain ⟨symbol, hsymbol, -⟩ := h.filed.innermost.order id hid
      rw [SymbolTable.kindOf, SymbolTable.symbol?_of_isPrefix henters.grown.reverts.symbols hsymbol]
      rwa [SymbolTable.kindOf, hsymbol] at hkind
    have hown : ∀ named later, Shelved base inner later names named →
        Finds budget (moveToLibrary bound) later fun _ last => ∃ named own, Stored base inner last names named bound own := by
      intro named later hshelved
      have hbound := henters.sublist
      rcases hcases with ⟨rfl, -⟩ | ⟨id, rfl, hid⟩
      · obtain rfl := List.sublist_nil.mp hbound
        exact .pure ⟨named, [], stored_of_shelved hshelved⟩
      · cases hbound with
        | cons _ hbound =>
          obtain rfl := List.sublist_nil.mp hbound
          exact .pure ⟨named, [], stored_of_shelved hshelved⟩
        | cons_cons _ hbound =>
          obtain rfl := List.sublist_nil.mp hbound
          obtain ⟨symbol, hsymbol, -, hkind, hle⟩ := hid.symbol
          refine (moveOwn_finds hshelved hbase hfiled hsymbol hkind (fun heq => ?_) ?_).mono
            fun _ last _ hstored => ⟨named, hstored⟩
          · exact Nat.not_lt.mpr (heq ▸ hle) hregion
          · exact Nat.le_trans h.grown.symbols_le hid.fresh
    have hmoved : Finds budget (moveToLibrary members.all) closed fun _ last =>
        ∃ named own, Stored base inner last names named bound own := by
      rw [hmembers, henters.order]
      exact moveToLibrary_finds hclosed hbase hfiled hwithin.grown.reverts.symbols hfront hown
    refine .bind hmoved fun _ last hstored => ?_
    obtain ⟨named, own, hstored⟩ := hstored
    refine (add_finds _ _).mono fun unit later _ ⟨hsymbols, hlog, hunit, hgrown⟩ => ?_
    replace hstored := hstored.same hsymbols hlog hgrown
    refine ⟨hstored.enclosing, hstored.filed, context, body, hunit, .inr ⟨named, declared, own, ?_⟩⟩
    refine files_of_stored hbase h henters hstored (fun name hname => ?_) ?_
    · exact (hnames name hname).mono (hmade.reverts.nodes.trans hstored.tree) (List.Subset.refl _)
    · refine hcases.imp ?_ ?_
      · rintro ⟨hdeclared, hbody⟩
        refine ⟨hdeclared, ?_⟩
        rwa [Tree.payload_of_isPrefix hstored.tree fun hnone => ?_]
        simp [hnone, Payload.isPackageBody] at hbody
      · rintro ⟨id, hdeclared, hid⟩
        exact ⟨id, hdeclared, (hid.weaken h.grown.symbols_le (Nat.le_of_lt hregion)).same hstored.symbols⟩

end Grammar

namespace Parser

def behind (parser : Parser) : Nat → Parser
  | 0 => parser
  | count + 1 => ((parser.behind count).attempt (Program.rule .compilationUnit).execute).2

/-- No clause of the unit finds a symbol that is not the last of its name. -/
def Settles (before after : Parser) (unit : NodeId) : Prop :=
  ∀ context body name id, after.tree.payload unit = .unit (.compilationUnit context body) →
    after.tree.Mentions context name → ¬before.symbols.Superseded name id

structure Traverses (start parser : Parser) (nodes : List NodeId) : Prop where
  behind : parser = start.behind nodes.length
  budget : Grammar.callBudget parser ≤ Grammar.callBudget start
  enclosing : parser.symbols.enclosing = []
  filed : parser.symbols.Filed
  units : ∀ count unit, nodes[count]? = some unit →
    (start.behind count).attempt (Program.rule .compilationUnit).execute = (.matched unit, start.behind (count + 1)) ∧
      (start.behind count).Completes (start.behind (count + 1)) unit

section

variable {start parser later : Parser} {unit : NodeId} {units : List NodeId}

theorem Completes.ascend (h : parser.deeper.Completes later unit) : parser.Completes later.ascend unit := by
  obtain ⟨henclosing, hfiled, context, body, hpayload, hcases⟩ := h
  refine ⟨henclosing, hfiled, context, body, hpayload, hcases.imp_right ?_⟩
  rintro ⟨named, declared, own, hfiles⟩
  refine ⟨named, declared, own, hfiles.order, hfiles.imports, hfiles.named, hfiles.declares.imp_right ?_,
    hfiles.outermost, hfiles.sublist, hfiles.refused, hfiles.reported⟩
  rintro ⟨id, hdeclared, hown⟩
  exact ⟨id, hdeclared, hown.fresh, hown.symbol⟩

theorem attempt_completes (hreachable : parser.Reachable) (henclosing : parser.symbols.enclosing = [])
    (hfiled : parser.symbols.Filed)
    (hmatch : parser.attempt (Program.rule .compilationUnit).execute = (.matched unit, later)) :
    parser.Completes later unit := by
  obtain ⟨hdepth, inner, hinner, rfl⟩ := attempt_matched hmatch
  have hdescend : parser.descend = .ok parser.deeper := if_neg (Nat.not_le.mpr hdepth)
  have hfinds : Program.Finds (Grammar.callBudget parser.deeper) (Program.rule .compilationUnit) parser.deeper
      fun unit later => parser.deeper.Completes later unit :=
    .rule fun _ => Grammar.compilationUnit_completes henclosing hfiled
  exact (hfinds (hreachable.move (.descend hdescend)) unit inner hinner).ascend

theorem Traverses.snoc (h : start.Traverses parser units) (hreachable : parser.Reachable)
    (hmatch : parser.attempt (Program.rule .compilationUnit).execute = (.matched unit, later))
    (hbudget : Grammar.callBudget later ≤ Grammar.callBudget parser) : start.Traverses later (units ++ [unit]) := by
  have hcompletes := attempt_completes hreachable h.enclosing h.filed hmatch
  have hbehind : start.behind (units.length + 1) = later := by
    rw [Parser.behind, ← h.behind, hmatch]
  refine ⟨?_, Nat.le_trans hbudget h.budget, hcompletes.enclosing, hcompletes.filed, ?_⟩
  · rw [List.length_append, List.length_singleton, hbehind]
  · intro count other hother
    rcases Nat.lt_or_ge count units.length with hlt | hge
    · rw [List.getElem?_append_left hlt] at hother
      exact h.units count other hother
    · have hlt : count < (units ++ [unit]).length := (List.getElem?_eq_some_iff.mp hother).1
      rw [List.length_append, List.length_singleton] at hlt
      obtain rfl : count = units.length := by omega
      obtain rfl : unit = other := by simpa using hother
      rw [hbehind, ← h.behind]
      exact ⟨hmatch, hcompletes⟩

end

end Parser

namespace Grammar

open Program AdaSyntax.Parser

variable {start parser : Parser} {units : List NodeId}

theorem compilationUnits_finds (henclosing : start.symbols.enclosing = []) (hfiled : start.symbols.Filed) :
    Finds (callBudget start) compilationUnits start fun value later => value.2 = true → start.Traverses later value.1 := by
  refine .loop (fun units later => start.Traverses later units.reverse)
    ⟨rfl, Nat.le_refl _, henclosing, hfiled, nofun⟩ fun units parser h => ?_
  refine .reads (isAt_reads _) fun atEnd => ?_
  split
  · exact .pure fun _ => h
  · have hunit : Builds (call (callBudget start)) (rule .compilationUnit) true fun node =>
        (Yield.declaration node).filing := rule_files .compilationUnit
    have hattempt : Finds (callBudget start) (attempt (rule .compilationUnit)) parser fun found later =>
        ∀ unit, found = some unit → parser.attempt (rule .compilationUnit).execute = (.matched unit, later) := by
      intro _ found later hrun unit hfound
      rw [run_attempt, attempt_unit h.budget] at hrun
      generalize parser.attempt (rule .compilationUnit).execute = result at hrun ⊢
      obtain ⟨reply, between⟩ := result
      subst hfound
      cases reply with
      | matched node => simpa using hrun
      | _ => cases hrun
    have hbuilds : Builds (call (callBudget start)) (attempt (rule .compilationUnit)) false fun found =>
        (Yield.declarations found.toList).filing := hunit.attempt .noneFiling fun _ => rfl
    refine .reachable fun hreachable => .bind (hattempt.both (.made hbuilds)) fun found later ⟨hfound, hmade⟩ => ?_
    cases found with
    | none => exact .pure nofun
    | some unit =>
      refine .pure ?_
      dsimp only
      rw [List.reverse_cons]
      refine h.snoc hreachable (hfound unit rfl) (Nat.mul_le_mul_right _ (Nat.succ_le_succ ?_))
      have hle := hmade.reaches.le
      have htokens := hmade.reverts.tokens
      simp only [Cursor.remaining, htokens]
      exact Nat.sub_le_sub_left hle _

end Grammar

namespace Parser

section

variable {start parser before after : Parser} {unit : NodeId} {units : List NodeId}

theorem Traverses.induct {holds : Parser → Prop} (h : start.Traverses parser units) (hstart : holds start)
    (hunit : ∀ count unit, units[count]? = some unit → holds (start.behind count) → holds (start.behind (count + 1))) :
    holds parser := by
  suffices ∀ count, count ≤ units.length → holds (start.behind count) from h.behind ▸ this _ (Nat.le_refl _)
  intro count
  induction count with
  | zero => exact fun _ => hstart
  | succ count ih =>
    intro hlt
    exact hunit count units[count] (List.getElem?_eq_getElem hlt) (ih (Nat.le_of_lt hlt))

theorem Completes.imports (h : before.Completes after unit) :
    after.symbols.library.imports = before.symbols.library.imports := by
  obtain ⟨context, body, -, ⟨-, hlibrary, -⟩ | ⟨named, declared, own, hfiles⟩⟩ := h.unit
  · rw [hlibrary]
  · exact hfiles.imports

structure Listed (parser : Parser) : Prop where
  enclosing : parser.symbols.enclosing = []
  filed : parser.symbols.Filed
  nodup : parser.symbols.library.order.Nodup

theorem Completes.listed (h : before.Completes after unit) (hbefore : before.Listed)
    (hsettles : Settles before after unit) : after.Listed := by
  refine ⟨h.enclosing, h.filed, ?_⟩
  obtain ⟨context, body, hpayload, ⟨-, hlibrary, -⟩ | ⟨named, declared, own, hfiles⟩⟩ := h.unit
  · exact hlibrary ▸ hbefore.nodup
  · have hnamed : named = [] := by
      refine List.eq_nil_iff_forall_not_mem.mpr fun id hid => ?_
      obtain ⟨name, hname, hsuperseded⟩ := hfiles.named id hid
      exact hsettles context body name id hpayload hname hsuperseded
    rw [hfiles.order, hnamed, List.append_nil]
    rcases hfiles.declares with ⟨rfl, -⟩ | ⟨id, rfl, hown⟩
    · rw [List.sublist_nil.mp hfiles.sublist, List.append_nil]
      exact hbefore.nodup
    · refine List.nodup_append.mpr ⟨hbefore.nodup, hfiles.sublist.nodup (List.pairwise_singleton _ _), ?_⟩
      rintro other hother _ hid rfl
      obtain rfl := List.mem_singleton.mp (hfiles.sublist.subset hid)
      rw [library_eq hbefore.enclosing] at hother
      obtain ⟨symbol, hsymbol, -⟩ := hbefore.filed.innermost.order _ hother
      exact Nat.not_lt.mpr hown.fresh (Array.getElem?_eq_some_iff.mp hsymbol).1

theorem new_listed (cursor : Cursor) (options : Options) :
    (Parser.new cursor options).Listed ∧ (Parser.new cursor options).symbols.library.imports = [] := by
  have hlinked : (Parser.new cursor options).Linked := new_linked
  have hpredefined : SymbolTable.predefined.enclosing = [] ∧ SymbolTable.predefined.library.order.Nodup ∧
      SymbolTable.predefined.library.imports = [] := by decide +kernel
  rcases new_symbols cursor options with heq | heq
  · exact ⟨⟨by rw [heq]; rfl, hlinked.filed, by rw [heq]; exact List.nodup_nil⟩, by rw [heq]; rfl⟩
  · refine ⟨⟨?_, hlinked.filed, ?_⟩, ?_⟩ <;> rw [heq]
    · exact hpredefined.1
    · exact hpredefined.2.1
    · exact hpredefined.2.2

end

end Parser

namespace Compilation

/-- The library of a compilation whose units were read from `start` on. -/
structure Catalogued (compilation : Compilation) (start : Parser) (units : List NodeId) : Prop where
  root : compilation.tree.payload compilation.root = .unit (.compilation units compilation.library)
  symbols : compilation.symbols = (start.behind units.length).symbols
  library : compilation.library = compilation.symbols.librarySymbols
  imports : compilation.symbols.library.imports = []
  steps : ∀ count unit, units[count]? = some unit →
    (start.behind count).attempt (Program.rule .compilationUnit).execute = (.matched unit, start.behind (count + 1)) ∧
      (start.behind count).Completes (start.behind (count + 1)) unit
  /-- Where all clauses find the last symbols of their names, nothing is bound twice. -/
  nodup : (∀ count unit, units[count]? = some unit → Parser.Settles (start.behind count) (start.behind (count + 1)) unit) →
    compilation.symbols.library.order.Nodup ∧ compilation.library.Nodup

theorem compile_catalogued {start : Parser} {lexical : List Diagnostic} {compilation : Compilation}
    (hreachable : start.Reachable) (hlisted : start.Listed) (himports : start.symbols.library.imports = [])
    (h : start.compile lexical = .ok compilation) : ∃ units, compilation.Catalogued start units := by
  unfold Parser.compile at h
  split at h
  · rename_i units later hexecute
    obtain rfl := Except.ok.inj h
    have htraverses : start.Traverses later units :=
      Grammar.compilationUnits_finds hlisted.enclosing hlisted.filed hreachable _ _ hexecute rfl
    let bare (parser : Parser) : Prop := parser.symbols.library.imports = []
    have hlast : bare later :=
      htraverses.induct himports fun count unit hunit hbefore => (htraverses.units count unit hunit).2.imports.trans hbefore
    exact ⟨units, {
      root := Tree.payload_of_get? (later.tree.get?_add_self _ _)
      symbols := congrArg Parser.symbols htraverses.behind
      library := rfl
      imports := hlast
      steps := htraverses.units
      nodup := by
        intro hsettles
        have hlast : later.Listed := htraverses.induct hlisted fun count unit hunit hbefore =>
          (htraverses.units count unit hunit).2.listed hbefore (hsettles count unit hunit)
        exact ⟨hlast.nodup, hlast.nodup.filter _⟩ }⟩
  all_goals cases h

/-- Each unit of a compilation leaves in the library the symbol that it declared itself, and the symbols in which its
with clauses have found no longer the last ones of their names; and the library imports nothing. -/
theorem library_catalogued {options : Options} {source : String} {compilation : Compilation}
    (h : ofSource source options = .ok compilation) :
    ∃ units, compilation.Catalogued (.new (.ofSource source) options) units := by
  obtain ⟨hlisted, himports⟩ := Parser.new_listed (.ofSource source) options
  exact compile_catalogued (.new _ _) hlisted himports h

def namedSpecification : String :=
  "procedure P; procedure P is begin null; end P; with P; procedure Q is begin null; end Q;"

theorem library_catalogued_namedSpecification :
    ∃ compilation, ofSource namedSpecification { predefined := false } = .ok compilation ∧
      ∃ units, compilation.Catalogued (.new (.ofSource namedSpecification) { predefined := false }) units := by
  obtain ⟨compilation, h⟩ := exists_of_isOk
    (show (ofSource namedSpecification { predefined := false }).isOk = true by decide +kernel)
  exact ⟨compilation, h, library_catalogued h⟩

theorem exists_of_library {result : Except Rejection Compilation} {library : List SymbolId}
    (h : result.toOption.map (·.library) = some library) :
    ∃ compilation, result = .ok compilation ∧ compilation.library = library :=
  exists_of_map h

/-- The specification, which the clause finds, stands in the library twice. -/
theorem namedSpecification_twice :
    ∃ compilation, ofSource namedSpecification { predefined := false } = .ok compilation ∧
      compilation.library = [⟨0⟩, ⟨1⟩, ⟨0⟩, ⟨2⟩] ∧ ¬compilation.library.Nodup := by
  obtain ⟨compilation, h, hlibrary⟩ := exists_of_library
    (show (ofSource namedSpecification { predefined := false }).toOption.map (·.library) =
      some [⟨0⟩, ⟨1⟩, ⟨0⟩, ⟨2⟩] by decide +kernel)
  exact ⟨compilation, h, hlibrary, hlibrary ▸ by decide⟩

end Compilation

end AdaSyntax
