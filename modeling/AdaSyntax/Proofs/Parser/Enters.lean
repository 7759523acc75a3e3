import AdaSyntax.Proofs.Parser.Steps

namespace AdaSyntax

namespace Parser

def Refuses (parser : Parser) (report : Diagnostic) (id : SymbolId) : Prop :=
  report.code = .duplicateDeclaration ∧ ∃ symbol, parser.symbols.symbol? id = some symbol ∧ report.range = symbol.range

theorem Refuses.mono {parser later : Parser} {report : Diagnostic} {id : SymbolId} (h : parser.Refuses report id)
    (hgrown : parser.symbols.symbols.toList <+: later.symbols.symbols.toList) : later.Refuses report id := by
  obtain ⟨hcode, symbol, hsymbol, hrange⟩ := h
  exact ⟨hcode, symbol, SymbolTable.symbol?_of_isPrefix hgrown hsymbol, hrange⟩

theorem bind_cases {parser : Parser} {id : SymbolId} {symbol : Symbol} (hfiled : parser.symbols.Filed)
    (hsymbol : parser.symbols.symbol? id = some symbol)
    (hlast : (parser.symbols.innermost.bindings.get symbol.name).getLast? ≠ some id) :
    (parser.bind id).2 = { parser with symbols := parser.symbols.putBinding symbol.name id } ∨
      ∃ diagnostic, parser.Refuses diagnostic id ∧ (parser.bind id).2 = parser.report diagnostic := by
  have hcases := SymbolTable.bind_cases hsymbol hlast
  simp only [bind]
  generalize parser.symbols.bind id = result at hcases
  obtain ⟨declared, symbols⟩ := result
  rcases hcases with ⟨hsymbols, hnew⟩ | ⟨existing, heq, hfirst⟩
  · obtain rfl : symbols = _ := hsymbols
    refine .inl ?_
    cases declared with
    | duplicate existing => exact absurd rfl (hnew existing)
    | _ => rfl
  · obtain ⟨rfl, rfl⟩ := Prod.mk.inj heq
    obtain ⟨earlier, hearlier, -⟩ := hfiled.innermost.bindings.get (List.mem_of_head? hfirst)
    refine .inr ⟨_, ⟨?_, symbol, hsymbol, ?_⟩, by simp only [reportDeclared, hsymbol, hearlier]; rfl⟩
    · cases earlier.isPredefined <;> rfl
    · cases earlier.isPredefined <;> rfl

structure Stays (base parser : Parser) : Prop where
  grown : base.symbols.Grown parser.symbols 0
  log : base.log.records.toList <+: parser.log.records.toList
  filed : parser.symbols.Filed
  owns : base.Owns parser 0

theorem Stays.innermost {base parser : Parser} (h : Stays base parser) :
    parser.symbols.innermost.Extends base.symbols.innermost ∧ parser.symbols.enclosing = base.symbols.enclosing :=
  h.grown.innermost

theorem Stays.of_made {parser later : Parser} {moved : Bool} {yield : Yield} (hfiled : parser.symbols.Filed)
    (h : Made parser later moved yield) (hopened : yield.opened = []) (hfiles : yield.files = false) :
    Stays parser later := by
  obtain ⟨nodes, hcourse⟩ := h.course
  have hbuilt := hcourse.built h.proper
  have hgrown := hbuilt.scopes
  have howns := hcourse.owns h.proper hfiles
  rw [hopened] at hgrown howns
  exact ⟨hgrown, hbuilt.reverts.log, hcourse.filed hfiled, howns⟩

structure Within (base parser : Parser) : Prop where
  grown : base.symbols.Grown parser.symbols 1
  enclosing : parser.symbols.enclosing = base.symbols.innermost :: base.symbols.enclosing
  region : parser.symbols.innermost.id = ⟨base.symbols.nextRegion⟩
  log : base.log.records.toList <+: parser.log.records.toList
  filed : parser.symbols.Filed
  deep : ∀ id symbol, base.symbols.symbols.size ≤ id.index → parser.symbols.symbol? id = some symbol →
    base.symbols.depth < symbol.depth
  reported : ∀ report ∈ parser.reportsSince base, report.code = .duplicateDeclaration → base.Concerns parser report

namespace Within

variable {base parser later : Parser} {moved : Bool} {yield : Yield}

theorem opening (h : base.symbols.Filed) (kind : RegionKind) (owner : Option SymbolId) :
    Within base { base with symbols := base.symbols.openRegion kind owner } where
  grown := .openRegion _ kind owner
  enclosing := rfl
  region := rfl
  log := List.prefix_rfl
  filed := h.openRegion kind owner
  deep id symbol hid hsymbol := absurd (Array.getElem?_eq_some_iff.mp hsymbol).1 (Nat.not_lt.mpr hid)
  reported := by simp [reportsSince_of_log]

theorem stays (h : Within base parser) (hlater : Stays parser later) : Within base later where
  grown := h.grown.trans hlater.grown
  enclosing := hlater.innermost.2.trans h.enclosing
  region := hlater.innermost.1.id.trans h.region
  log := h.log.trans hlater.log
  filed := hlater.filed
  deep := by
    intro id symbol hid hsymbol
    by_cases hlt : id.index < parser.symbols.symbols.size
    · have hparser : parser.symbols.symbol? id = some parser.symbols.symbols[id.index] :=
        Array.getElem?_eq_getElem hlt
      have hsame := SymbolTable.symbol?_of_isPrefix hlater.grown.reverts.symbols hparser
      obtain rfl := Option.some.inj (hsymbol.symm.trans hsame)
      exact h.deep id _ hid hparser
    · have hdepth := hlater.owns.deep id symbol (Nat.not_lt.mp hlt) hsymbol
      rw [h.grown.depth_eq] at hdepth
      exact hdepth
  reported := by
    intro report hreport hcode
    rw [reportsSince_trans h.log hlater.log] at hreport
    rcases List.mem_append.mp hreport with hreport | hreport
    · exact (h.reported report hreport hcode).mono (Nat.le_refl _) hlater.grown.reverts.symbols
    · exact (hlater.owns.reported report hreport hcode).mono h.grown.symbols_le List.prefix_rfl

theorem made (h : Within base parser) (hmade : Made parser later moved yield) (hopened : yield.opened = [])
    (hfiles : yield.files = false) : Within base later :=
  h.stays (.of_made h.filed hmade hopened hfiles)

theorem same (h : Within base parser) (hsymbols : later.symbols = parser.symbols) (hlog : later.log = parser.log) :
    Within base later := by
  have howns : Owns parser later 0 :=
    (Owns.refl parser).of_symbols (hsymbols ▸ .refl _) (congrArg SymbolTable.symbols hsymbols) hlog
  exact h.stays ⟨hsymbols ▸ .refl _, hlog ▸ List.prefix_rfl, hsymbols ▸ h.filed, howns⟩

theorem markPrivate (h : Within base parser) :
    Within base { parser with symbols := parser.symbols.markPrivate } :=
  { h with grown := h.grown.markPrivate, filed := h.filed.markPrivate, deep := h.deep, reported := h.reported }

end Within

structure Introduces (base parser : Parser) (declared bound : List SymbolId) : Prop where
  grown : base.symbols.Grown parser.symbols 0
  log : base.log.records.toList <+: parser.log.records.toList
  filed : parser.symbols.Filed
  order : parser.symbols.innermost.order = base.symbols.innermost.order ++ bound
  visible : ∀ name, ∀ id ∈ parser.symbols.innermost.bindings.get name,
    id ∈ base.symbols.innermost.bindings.get name ∨ id ∈ bound
  sublist : bound.Sublist declared
  fresh : ∀ id ∈ declared, base.symbols.symbols.size ≤ id.index
  deep : ∀ id symbol, base.symbols.symbols.size ≤ id.index → parser.symbols.symbol? id = some symbol →
    base.symbols.depth ≤ symbol.depth ∧ (symbol.depth = base.symbols.depth → id ∈ declared)
  reported : ∀ report ∈ parser.reportsSince base, report.code = .duplicateDeclaration → base.Concerns parser report

structure Enters (base parser : Parser) (declared bound : List SymbolId) : Prop
    extends Introduces base parser declared bound where
  refused : ∀ id ∈ declared, id ∈ bound ∨ ∃ report ∈ parser.reportsSince base, parser.Refuses report id

namespace Introduces

variable {base parser : Parser} {id : SymbolId} {symbol : Symbol} {declared bound : List SymbolId}

theorem adopt (h : Introduces base parser declared bound) (hid : base.symbols.symbols.size ≤ id.index) :
    Introduces base parser (declared ++ [id]) bound :=
  { h with
    sublist := h.sublist.trans (List.sublist_append_left _ _)
    fresh := by
      intro other hother
      rcases List.mem_append.mp hother with hother | hother
      · exact h.fresh other hother
      · exact List.mem_singleton.mp hother ▸ hid
    deep := fun other symbol hother hsymbol =>
      (h.deep other symbol hother hsymbol).imp_right fun hin hdepth => List.mem_append_left _ (hin hdepth) }

theorem reserve (h : Introduces base parser declared bound) (declaration : Declaration) :
    Introduces base { parser with symbols := (parser.symbols.reserve declaration).2 }
      (declared ++ [⟨parser.symbols.symbols.size⟩]) bound := by
  have hadopted : Introduces base parser (declared ++ [⟨parser.symbols.symbols.size⟩]) bound :=
    h.adopt h.grown.symbols_le
  have hgrown : parser.symbols.Grown (parser.symbols.reserve declaration).2 0 := .reserve _ _
  exact { hadopted with
    grown := h.grown.trans hgrown
    filed := h.filed.reserve declaration
    deep := by
      intro other symbol hother hsymbol
      by_cases hlt : other.index < parser.symbols.symbols.size
      · have hparser : parser.symbols.symbol? other = some parser.symbols.symbols[other.index] :=
          Array.getElem?_eq_getElem hlt
        have hsame := SymbolTable.symbol?_of_isPrefix hgrown.reverts.symbols hparser
        obtain rfl := Option.some.inj (hsymbol.symm.trans hsame)
        exact hadopted.deep other _ hother hparser
      · have hle : other.index < (parser.symbols.symbols.push _).size := (Array.getElem?_eq_some_iff.mp hsymbol).1
        rw [Array.size_push] at hle
        obtain rfl : other = ⟨parser.symbols.symbols.size⟩ := by
          cases other
          simp only [SymbolId.mk.injEq] at hlt hle ⊢
          omega
        obtain rfl := Option.some.inj (hsymbol.symm.trans (parser.symbols.symbol?_reserve declaration))
        exact ⟨h.grown.depth_le, fun _ => List.mem_append_right _ (List.mem_singleton_self _)⟩
    reported := fun report hreport hcode =>
      (h.reported report hreport hcode).mono (Nat.le_refl _) hgrown.reverts.symbols }

theorem bind (h : Introduces base parser (declared ++ [id]) bound) (hproper : parser.symbols.Proper)
    (hsymbol : parser.symbols.symbol? id = some symbol) (hsublist : bound.Sublist declared) :
    Introduces base { parser with symbols := parser.symbols.putBinding symbol.name id } (declared ++ [id])
      (bound ++ [id]) :=
  { h with
    grown := h.grown.trans (.of_innermost (SymbolTable.putBinding_revertsTo hproper _ _) (.bind _ _ _) rfl rfl)
    filed := h.filed.of_regions List.prefix_rfl (h.filed.of_innermost (h.filed.innermost.bind hsymbol)) rfl
    order := by
      change parser.symbols.innermost.order ++ [id] = _
      rw [h.order, List.append_assoc]
    visible := by
      intro name other hother
      change other ∈ (parser.symbols.innermost.bindings.add symbol.name id).get name at hother
      by_cases hname : name = symbol.name
      · rw [hname, Bindings.get_add_self, ← hname] at hother
        rcases List.mem_append.mp hother with hother | hother
        · exact (h.visible name other hother).imp_right (List.mem_append_left _)
        · exact .inr (List.mem_append_right _ hother)
      · rw [Bindings.get_add_of_ne _ _ hname] at hother
        exact (h.visible name other hother).imp_right (List.mem_append_left _)
    sublist := hsublist.append (.refl _)
    deep := h.deep
    reported := h.reported }

theorem report {diagnostic : Diagnostic} (h : Introduces base parser declared bound)
    (hid : base.symbols.symbols.size ≤ id.index) (hrefuses : parser.Refuses diagnostic id) :
    Introduces base (parser.report diagnostic) declared bound := by
  have hlog : parser.log.records.toList <+: (parser.report diagnostic).log.records.toList := by
    simp [Parser.report, DiagnosticLog.report]
  exact { h with
    log := h.log.trans hlog
    filed := h.filed
    deep := h.deep
    reported := by
      intro report hmem hcode
      rw [reportsSince_trans h.log hlog, reportsSince_report] at hmem
      rcases List.mem_append.mp hmem with hmem | hmem
      · exact h.reported report hmem hcode
      · obtain rfl := List.mem_singleton.mp hmem
        obtain ⟨-, symbol, hsymbol, hrange⟩ := hrefuses
        exact ⟨id, symbol, hid, hsymbol, hrange⟩ }

end Introduces

namespace Enters

variable {base middle parser later : Parser} {moved : Bool} {yield : Yield} {id : SymbolId}
variable {declared bound declared' bound' : List SymbolId}

theorem refl (h : parser.symbols.Filed) : Enters parser parser [] [] where
  grown := .refl _
  log := List.prefix_rfl
  filed := h
  order := (List.append_nil _).symm
  visible _ _ hid := .inl hid
  sublist := .slnil
  fresh := List.forall_mem_nil _
  deep id symbol hid hsymbol := absurd (Array.getElem?_eq_some_iff.mp hsymbol).1 (Nat.not_lt.mpr hid)
  reported := by simp [reportsSince_of_log]
  refused := List.forall_mem_nil _

theorem trans (h : Enters base middle declared bound) (h' : Enters middle parser declared' bound') :
    Enters base parser (declared ++ declared') (bound ++ bound') where
  grown := h.grown.trans h'.grown
  log := h.log.trans h'.log
  filed := h'.filed
  order := by rw [h'.order, h.order, List.append_assoc]
  visible := by
    intro name id hid
    rcases h'.visible name id hid with hid | hid
    · exact (h.visible name id hid).imp_right (List.mem_append_left _)
    · exact .inr (List.mem_append_right _ hid)
  sublist := h.sublist.append h'.sublist
  fresh id hid := by
    rcases List.mem_append.mp hid with hid | hid
    · exact h.fresh id hid
    · exact Nat.le_trans h.grown.symbols_le (h'.fresh id hid)
  deep := by
    intro id symbol hid hsymbol
    by_cases hlt : id.index < middle.symbols.symbols.size
    · have hmiddle : middle.symbols.symbol? id = some middle.symbols.symbols[id.index] :=
        Array.getElem?_eq_getElem hlt
      have hsame := SymbolTable.symbol?_of_isPrefix h'.grown.reverts.symbols hmiddle
      rw [hsymbol] at hsame
      exact (h.deep id symbol hid (hmiddle.trans hsame.symm)).imp_right fun hin hdepth =>
        List.mem_append_left _ (hin hdepth)
    · have hdepth : middle.symbols.depth = base.symbols.depth := h.grown.depth_eq
      exact hdepth ▸ (h'.deep id symbol (Nat.not_lt.mp hlt) hsymbol).imp_right fun hin hdepth =>
        List.mem_append_right _ (hin hdepth)
  reported := by
    intro report hreport hcode
    rw [reportsSince_trans h.log h'.log] at hreport
    rcases List.mem_append.mp hreport with hreport | hreport
    · exact (h.reported report hreport hcode).mono (Nat.le_refl _) h'.grown.reverts.symbols
    · exact (h'.reported report hreport hcode).mono h.grown.symbols_le List.prefix_rfl
  refused := by
    intro id hid
    rw [reportsSince_trans h.log h'.log]
    rcases List.mem_append.mp hid with hid | hid
    · refine (h.refused id hid).imp (List.mem_append_left _) ?_
      rintro ⟨report, hreport, hrefuses⟩
      exact ⟨report, List.mem_append_left _ hreport, hrefuses.mono h'.grown.reverts.symbols⟩
    · refine (h'.refused id hid).imp (List.mem_append_right _) ?_
      rintro ⟨report, hreport, hrefuses⟩
      exact ⟨report, List.mem_append_right _ hreport, hrefuses⟩

theorem stays (h : Enters base parser declared bound) : Stays base parser where
  grown := h.grown
  log := h.log
  filed := h.filed
  owns := {
    bound := by
      obtain ⟨inner, region, hregions, hlength, -⟩ := h.grown.regions
      refine ⟨inner, region, hregions, hlength, ?_, fun id hid => ?_⟩
      · rw [List.length_eq_zero_iff.mp hlength]
        nofun
      · rw [List.length_eq_zero_iff.mp hlength] at hregions
        obtain ⟨rfl, -⟩ := List.cons.inj hregions
        rw [h.order] at hid
        exact (List.mem_append.mp hid).imp_right fun hid => h.fresh id (h.sublist.subset hid)
    deep := fun id symbol hid hsymbol => (h.deep id symbol hid hsymbol).1
    reported := h.reported }

theorem of_same (hfiled : parser.symbols.Filed) (hsymbols : later.symbols.symbols = parser.symbols.symbols)
    (hgrown : parser.symbols.Grown later.symbols 0) (hinnermost : later.symbols.innermost = parser.symbols.innermost)
    (hlater : later.symbols.Filed) (hlog : later.log = parser.log) : Enters parser later [] [] where
  grown := hgrown
  log := hlog ▸ List.prefix_rfl
  filed := hlater
  order := by rw [hinnermost, List.append_nil]
  visible _ _ hid := .inl (hinnermost ▸ hid)
  sublist := .slnil
  fresh := List.forall_mem_nil _
  deep id symbol hid hsymbol := by
    rw [SymbolTable.symbol?, hsymbols] at hsymbol
    exact (refl hfiled).deep id symbol hid hsymbol
  reported := by simp [reportsSince_of_log hlog]
  refused := List.forall_mem_nil _

theorem same (h : Enters base parser declared bound) (hsymbols : later.symbols = parser.symbols)
    (hlog : later.log = parser.log) : Enters base later declared bound := by
  have hlater := of_same h.filed (congrArg SymbolTable.symbols hsymbols) (hsymbols ▸ .refl _)
    (congrArg SymbolTable.innermost hsymbols) (hsymbols ▸ h.filed) hlog
  have henters := h.trans hlater
  rwa [List.append_nil, List.append_nil] at henters

theorem resume (h : Enters base parser declared bound) (hlater : later.Resumes parser) :
    Enters base later declared bound := by
  obtain ⟨next, furthest, hnext, rfl⟩ := hlater
  let table : SymbolTable := { parser.symbols with nextRegion := next }
  have htable : table.Filed := h.filed.of_regions List.prefix_rfl h.filed.regions rfl
  have hlater : Enters parser { parser with symbols := table, furthest } [] [] :=
    of_same h.filed rfl (.of_counter hnext) rfl htable rfl
  have henters := h.trans hlater
  rwa [List.append_nil, List.append_nil] at henters

theorem silent (h : Enters base parser declared bound) (hmade : Made parser later moved yield)
    (hsilent : yield.silent = true) (hfiles : yield.files = false) : Enters base later declared bound := by
  obtain ⟨nodes, hcourse⟩ := hmade.course
  have hbuilt := hcourse.built hmade.proper
  have hgrown := hbuilt.scopes
  rw [hcourse.opened_of_silent hsilent] at hgrown
  have hsilent' : Enters parser later [] [] := {
    grown := hgrown
    log := hbuilt.reverts.log
    filed := hcourse.filed h.filed
    order := by rw [(hcourse.unbound_of_silent hsilent).order, List.append_nil]
    visible := fun name id hid => .inl ((hcourse.unbound_of_silent hsilent).bindings ▸ hid)
    sublist := .slnil
    fresh := List.forall_mem_nil _
    deep := by
      intro id symbol hid hsymbol
      rw [SymbolTable.symbol?, hcourse.symbols_of_silent hsilent] at hsymbol
      exact (refl h.filed).deep id symbol hid hsymbol
    reported := (hcourse.owns hmade.proper hfiles).reported
    refused := List.forall_mem_nil _ }
  have henters := h.trans hsilent'
  rwa [List.append_nil, List.append_nil] at henters

theorem published {table : SymbolTable} (h : Enters base parser declared bound)
    (hgrown : base.symbols.Grown table 0) (hsymbols : table.symbols = parser.symbols.symbols)
    (hregion : table.innermost = parser.symbols.innermost) (hfiled : table.Filed) :
    Enters base { parser with symbols := table } declared bound where
  grown := hgrown
  log := h.log
  filed := hfiled
  order := hregion ▸ h.order
  visible := hregion ▸ h.visible
  sublist := h.sublist
  fresh := h.fresh
  deep id symbol hid hsymbol := h.deep id symbol hid (by rwa [SymbolTable.symbol?, ← hsymbols])
  reported report hreport hcode :=
    (h.reported report hreport hcode).mono (Nat.le_refl _) (hsymbols ▸ List.prefix_rfl)
  refused id hid := by
    refine (h.refused id hid).imp_right ?_
    rintro ⟨report, hreport, hrefuses⟩
    exact ⟨report, hreport, hrefuses.mono (hsymbols ▸ List.prefix_rfl)⟩

theorem region {closed : ClosedRegion} {table : SymbolTable} (h : Enters base parser declared bound)
    (hwithin : Within parser later) (hclose : later.symbols.closeRegion = some (closed, table)) :
    Enters base { later with symbols := table } declared bound := by
  obtain ⟨closed', table', hclose', hgrown⟩ := hwithin.grown.closeRegion
  obtain ⟨-, rfl⟩ := Prod.mk.inj (Option.some.inj (hclose.symm.trans hclose'))
  have htable : later.symbols.change .closeRegion = table := by simp [SymbolTable.change, hclose]
  have hsymbols : table.symbols = later.symbols.symbols := htable ▸ SymbolTable.change_symbols _ rfl
  have hinnermost : table.innermost = parser.symbols.innermost := by
    simp only [SymbolTable.closeRegion, hwithin.enclosing] at hclose
    rw [← (Prod.mk.inj (Option.some.inj hclose)).2]
  have hregion : Enters parser { later with symbols := table } [] [] := {
    grown := hgrown
    log := hwithin.log
    filed := htable ▸ hwithin.filed.closeRegion
    order := by rw [List.append_nil, ← hinnermost]
    visible := fun name id hid => .inl (hinnermost ▸ hid)
    sublist := .slnil
    fresh := List.forall_mem_nil _
    deep := by
      intro id symbol hid hsymbol
      rw [SymbolTable.symbol?, hsymbols] at hsymbol
      have hdeep := hwithin.deep id symbol hid hsymbol
      exact ⟨Nat.le_of_lt hdeep, fun hdepth => absurd (hdepth ▸ hdeep) (Nat.lt_irrefl _)⟩
    reported := fun report hreport hcode =>
      (hwithin.reported report hreport hcode).mono (Nat.le_refl _) (hsymbols ▸ List.prefix_rfl)
    refused := List.forall_mem_nil _ }
  have henters := h.trans hregion
  rwa [List.append_nil, List.append_nil] at henters

theorem offer {symbol : Symbol} (h : Introduces base parser (declared ++ [id]) bound)
    (hproper : parser.symbols.Proper) (hsymbol : parser.symbols.symbol? id = some symbol)
    (hlast : (parser.symbols.innermost.bindings.get symbol.name).getLast? ≠ some id) (hsublist : bound.Sublist declared)
    (hrefused : ∀ other ∈ declared, other ∈ bound ∨ ∃ report ∈ parser.reportsSince base, parser.Refuses report other) :
    ∃ bound', Enters base (parser.bind id).2 (declared ++ [id]) (bound ++ bound') := by
  rcases bind_cases h.filed hsymbol hlast with heq | ⟨diagnostic, hrefuses, heq⟩ <;> rw [heq]
  · refine ⟨[id], h.bind hproper hsymbol hsublist, fun other hother => ?_⟩
    rcases List.mem_append.mp hother with hother | hother
    · exact (hrefused other hother).imp_left (List.mem_append_left _)
    · exact .inl (List.mem_append_right _ hother)
  · have hlog : parser.log.records.toList <+: (parser.report diagnostic).log.records.toList := by
      simp [report, DiagnosticLog.report]
    have hid := h.fresh id (List.mem_append_right _ (List.mem_singleton_self _))
    refine ⟨[], ?_, fun other hother => ?_⟩
    · rw [List.append_nil]
      exact h.report hid hrefuses
    · rw [reportsSince_trans h.log hlog, reportsSince_report, List.append_nil]
      rcases List.mem_append.mp hother with hother | hother
      · refine (hrefused other hother).imp_right ?_
        rintro ⟨report, hmem, hrefuses⟩
        exact ⟨report, List.mem_append_left _ hmem, hrefuses⟩
      · obtain rfl := List.mem_singleton.mp hother
        exact .inr ⟨diagnostic, List.mem_append_right _ (List.mem_singleton_self _), hrefuses⟩

theorem declare (h : Enters base parser declared bound) (hproper : parser.symbols.Proper)
    (declaration : Declaration) : ∃ bound', Enters base (parser.declare declaration).2
      (declared ++ [⟨parser.symbols.symbols.size⟩]) (bound ++ bound') := by
  have hsymbol := parser.symbols.symbol?_reserve declaration
  refine offer (h.reserve declaration) (hproper.reserve declaration) hsymbol (fun hlast => ?_) h.sublist
    fun other hother => ?_
  · exact Nat.lt_irrefl _ (h.filed.lt_size (List.mem_of_getLast? hlast))
  · refine (h.refused other hother).imp_right ?_
    rintro ⟨report, hmem, hrefuses⟩
    exact ⟨report, hmem, hrefuses.mono (SymbolTable.Grown.reserve parser.symbols declaration).reverts.symbols⟩

theorem lift {symbol : Symbol} (h : Enters base parser declared bound) (hbase : base.symbols.Filed)
    (hproper : parser.symbols.Proper) (hid : base.symbols.symbols.size ≤ id.index)
    (hsymbol : parser.symbols.symbol? id = some symbol) (hdeclared : id ∉ declared) :
    ∃ bound', Enters base (parser.bind id).2 (declared ++ [id]) (bound ++ bound') := by
  refine offer (h.adopt hid) hproper hsymbol (fun hlast => ?_) h.sublist h.refused
  rcases h.visible _ _ (List.mem_of_getLast? hlast) with hold | hbound
  · exact Nat.not_lt.mpr hid (hbase.lt_size hold)
  · exact hdeclared (h.sublist.subset hbound)

end Enters

end Parser

end AdaSyntax
