import AdaSyntax.Proofs.Compilation
import AdaSyntax.Proofs.Depth
import AdaSyntax.Proofs.Grammar.ContextClause
import AdaSyntax.Proofs.Moment.Compilation
import AdaSyntax.Proofs.Scope.Places

/-!
With clauses, and the names that they give more than once. In the region of a unit each of them has one binding, and
what it stands for was settled when it was given first. A name of the library may be given again without a word; one
that the library does not know is reported every time, and the symbol that is declared for it then is bound nowhere.
-/

namespace AdaSyntax

def Payload.givenUnits {ρ : Type} : Payload ρ → List (DefiningName ρ)
  | unit (.withClause units) => units
  | _ => []

/-- The units that the with clauses among the items name, in the order of the text. -/
def Tree.givenUnits (tree : Tree) (items : List NodeId) : List (DefiningName Range) :=
  items.flatMap fun item => (tree.payload item).givenUnits

section

variable {α : Type} [BEq α] [LawfulBEq α] {items : List α} {item : α}

theorem eraseDups_append_of_mem (h : item ∈ items) : (items ++ [item]).eraseDups = items.eraseDups := by
  rw [List.eraseDups_append]
  simp [List.removeAll, h]

theorem eraseDups_append_of_notMem (h : item ∉ items) : (items ++ [item]).eraseDups = items.eraseDups ++ [item] := by
  rw [List.eraseDups_append]
  simp [List.removeAll, h, List.eraseDups_cons]

end

theorem SymbolKind.unit_completes (earlier : SymbolKind) : SymbolKind.completes .unit earlier = false := by
  cases earlier <;> rfl

/-- The report on a unit that was named at `first` before. -/
def DefiningName.repetition (unit first : DefiningName Range) : Diagnostic :=
  (Diagnostic.ofCode .duplicateDeclaration ("'" ++ unit.name.text ++ "' is already declared in this region")
    unit.place).withRelated "first declared here" first.place

namespace Tree

variable {tree later : Tree} {items : List NodeId}

theorem givenUnits_append (tree : Tree) (items items' : List NodeId) :
    tree.givenUnits (items ++ items') = tree.givenUnits items ++ tree.givenUnits items' :=
  List.flatMap_append

theorem givenUnits_singleton (tree : Tree) (item : NodeId) :
    tree.givenUnits [item] = (tree.payload item).givenUnits := by
  simp only [givenUnits, List.flatMap_cons, List.flatMap_nil, List.append_nil]

theorem givenUnits_of_isPrefix (h : tree.nodes.toList <+: later.nodes.toList)
    (hitems : ∀ item ∈ items, item.index < tree.size) : later.givenUnits items = tree.givenUnits items := by
  simp only [givenUnits]
  refine List.flatMap_congr fun item hitem => ?_
  rw [payload_congr (get?_of_isPrefix h (hitems item hitem))]

end Tree

namespace SymbolTable

variable (table : SymbolTable) (given : List (DefiningName Range)) (unit : DefiningName Range)

/-- What is reported of a unit that is named behind those in `given`: nothing, unless it is unknown and named again. -/
def repetition : Option Diagnostic :=
  match table.unit? unit.name with
  | some _ => none
  | none => (given.find? (·.name = unit.name)).map unit.repetition

def repetitions (given : List (DefiningName Range)) : List (DefiningName Range) → List Diagnostic
  | [] => []
  | unit :: units => (table.repetition given unit).toList ++ repetitions (given ++ [unit]) units

theorem repetitions_append (units : List (DefiningName Range)) :
    table.repetitions given (units ++ [unit]) =
      table.repetitions given units ++ (table.repetition (given ++ units) unit).toList := by
  induction units generalizing given with
  | nil => simp [repetitions]
  | cons first units ih => simp [repetitions, ih]

theorem repetition_of_known {table : SymbolTable} {id : SymbolId} (h : table.unit? unit.name = some id) :
    table.repetition given unit = none := by
  simp [repetition, h]

theorem repetitions_of_known {table : SymbolTable} {units : List (DefiningName Range)}
    (h : ∀ unit ∈ units, (table.unit? unit.name).isSome) : table.repetitions given units = [] := by
  induction units generalizing given with
  | nil => rfl
  | cons unit units ih =>
    obtain ⟨hunit, hunits⟩ := List.forall_mem_cons.mp h
    obtain ⟨id, hid⟩ := Option.isSome_iff_exists.mp hunit
    rw [repetitions, repetition_of_known _ _ hid, ih _ hunits]
    rfl

variable {table} {declaration : Declaration}

theorem declare_eq {declared : Declared} {later : SymbolTable}
    (h : (table.reserve declaration).2.bind ⟨table.symbols.size⟩ = (declared, later)) :
    table.declare declaration = (⟨table.symbols.size⟩, declared, later) := by
  have hdeclare : table.declare declaration = (⟨table.symbols.size⟩,
      ((table.reserve declaration).2.bind ⟨table.symbols.size⟩).1,
      ((table.reserve declaration).2.bind ⟨table.symbols.size⟩).2) := rfl
  rw [hdeclare, h]

theorem declare_of_unnamed (h : table.innermost.bindings.get declaration.name = []) :
    table.declare declaration =
      (⟨table.symbols.size⟩, .new, (table.reserve declaration).2.putBinding declaration.name ⟨table.symbols.size⟩) :=
  declare_eq (bind_of_unnamed (table.symbol?_reserve declaration) h)

theorem declare_of_named {id : SymbolId} {symbol : Symbol} (hkind : declaration.kind = .unit)
    (hsymbol : table.symbol? id = some symbol) (h : table.innermost.bindings.get declaration.name = [id]) :
    table.declare declaration = (⟨table.symbols.size⟩, .duplicate id, (table.reserve declaration).2) := by
  have hlt : id.index < table.symbols.size := (Array.getElem?_eq_some_iff.mp hsymbol).1
  have hne : id ≠ ⟨table.symbols.size⟩ := by
    rintro rfl
    exact Nat.lt_irrefl _ hlt
  have hget : (table.reserve declaration).2.innermost.bindings.get declaration.name = [id] := h
  have hclass : (table.reserve declaration).2.classifyBinding .unit [id] = .duplicate id := by
    simp [classifyBinding, SymbolKind.isOverloadable, SymbolKind.unit_completes]
  refine declare_eq ?_
  rw [bind, table.symbol?_reserve declaration]
  simp only [hget, List.getLast?_singleton, Option.some.injEq, hne, if_false, hkind, hclass]

theorem Filed.names_unit? {table : SymbolTable} {name : Name} {id : SymbolId} (h : table.Filed)
    (hunit : table.unit? name = some id) : table.Names id name := by
  have hlibrary : table.library ∈ table.regions := by
    rw [library, List.getLastD_eq_getLast?, SymbolTable.regions]
    cases hlast : table.enclosing.getLast? with
    | none => exact List.mem_cons_self
    | some region => exact List.mem_cons_of_mem _ (List.mem_of_getLast? hlast)
  exact (h.regions _ hlibrary).bindings.get (List.mem_of_head? hunit)

end SymbolTable

namespace Parser

def duplicatesSince (later earlier : Parser) : List Diagnostic :=
  (later.reportsSince earlier).filter (·.code = .duplicateDeclaration)

/-- The names of these units were given in the region of a unit, which was opened at `base`. -/
structure Gives (base parser : Parser) (units : List (DefiningName Range)) : Prop where
  enclosing : parser.symbols.enclosing = base.symbols.regions
  kind : parser.symbols.innermost.kind = .context
  symbols : base.symbols.symbols.toList <+: parser.symbols.symbols.toList
  log : base.log.records.toList <+: parser.log.records.toList
  /-- A name of the library stands for what the library has first. -/
  known : ∀ unit ∈ units, ∀ id, base.symbols.unit? unit.name = some id →
    parser.symbols.innermost.bindings.get unit.name = [id]
  /-- Any other name stands for the symbol that was declared for it where it was given first. -/
  unknown : ∀ unit ∈ units, base.symbols.unit? unit.name = none → ∃ id first symbol,
    parser.symbols.innermost.bindings.get unit.name = [id] ∧ units.find? (·.name = unit.name) = some first ∧
      parser.symbols.symbol? id = some symbol ∧ symbol.name = unit.name ∧ symbol.kind = .unit ∧
      symbol.range = first.place ∧ symbol.node.isSome
  others : ∀ name ∉ units.map DefiningName.name, parser.symbols.innermost.bindings.get name = []
  order : parser.symbols.innermost.order =
    (units.map DefiningName.name).eraseDups.flatMap parser.symbols.innermost.bindings.get
  reports : parser.duplicatesSince base = base.symbols.repetitions [] units

section

variable {base parser later : Parser} {units : List (DefiningName Range)} {unit : DefiningName Range}

theorem duplicatesSince_trans (h : base.log.records.toList <+: parser.log.records.toList)
    (h' : parser.log.records.toList <+: later.log.records.toList) :
    later.duplicatesSince base = parser.duplicatesSince base ++ later.duplicatesSince parser := by
  rw [duplicatesSince, reportsSince_trans h h', List.filter_append, duplicatesSince, duplicatesSince]

theorem Made.duplicatesSince_eq {moved : Bool} {yield : Yield} (h : Made parser later moved yield)
    (hsilent : yield.silent = true) (hfiles : yield.files = false) : later.duplicatesSince parser = [] := by
  obtain ⟨nodes, hcourse⟩ := h.course
  rw [duplicatesSince, List.filter_eq_nil_iff]
  intro report hreport hcode
  obtain ⟨id, symbol, hid, hsymbol, -⟩ :=
    (hcourse.owns h.proper hfiles).reported report hreport (of_decide_eq_true hcode)
  rw [SymbolTable.symbol?, hcourse.symbols_of_silent hsilent] at hsymbol
  exact absurd (Array.getElem?_eq_some_iff.mp hsymbol).1 (Nat.not_lt.mpr hid)

namespace Gives

theorem opening (base : Parser) : Gives base { base with symbols := base.symbols.openRegion .context none } [] where
  enclosing := rfl
  kind := rfl
  symbols := List.prefix_rfl
  log := List.prefix_rfl
  known := nofun
  unknown := nofun
  others _ _ := rfl
  order := rfl
  reports := by simp [duplicatesSince, reportsSince_of_log, SymbolTable.repetitions]

theorem of_unbound (h : Gives base parser units) (hsymbols : later.symbols.symbols = parser.symbols.symbols)
    (hunbound : parser.symbols.Unbound later.symbols)
    (hkind : later.symbols.innermost.kind = parser.symbols.innermost.kind)
    (hlog : parser.log.records.toList <+: later.log.records.toList) (hreports : later.duplicatesSince parser = []) :
    Gives base later units where
  enclosing := hunbound.enclosing.trans h.enclosing
  kind := hkind.trans h.kind
  symbols := hsymbols ▸ h.symbols
  log := h.log.trans hlog
  known := by
    rw [hunbound.bindings]
    exact h.known
  unknown := by
    simp only [hunbound.bindings, SymbolTable.symbol?, hsymbols]
    exact h.unknown
  others := by
    rw [hunbound.bindings]
    exact h.others
  order := by rw [hunbound.order, hunbound.bindings, h.order]
  reports := by rw [duplicatesSince_trans h.log hlog, hreports, List.append_nil, h.reports]

theorem silent {moved : Bool} {yield : Yield} (h : Gives base parser units) (hmade : Made parser later moved yield)
    (hsilent : yield.silent = true) (hfiles : yield.files = false) : Gives base later units := by
  obtain ⟨nodes, hcourse⟩ := hmade.course
  have hbuilt := hcourse.built hmade.proper
  have hgrown := hbuilt.scopes
  rw [hcourse.opened_of_silent hsilent] at hgrown
  exact h.of_unbound (hcourse.symbols_of_silent hsilent) (hcourse.unbound_of_silent hsilent)
    hgrown.innermost.1.kind hbuilt.reverts.log (hmade.duplicatesSince_eq hsilent hfiles)

theorem same (h : Gives base parser units) (hsymbols : later.symbols = parser.symbols) (hlog : later.log = parser.log) :
    Gives base later units :=
  h.of_unbound (congrArg SymbolTable.symbols hsymbols) (.of_symbols_eq hsymbols) (by rw [hsymbols])
    (hlog ▸ List.prefix_rfl) (by simp [duplicatesSince, reportsSince_of_log hlog])

theorem again (h : Gives base parser units) (hgiven : unit.name ∈ units.map DefiningName.name)
    (hregions : later.symbols.regions = parser.symbols.regions)
    (hsymbols : parser.symbols.symbols.toList <+: later.symbols.symbols.toList)
    (hlog : parser.log.records.toList <+: later.log.records.toList)
    (hreports : later.duplicatesSince parser = (base.symbols.repetition units unit).toList) :
    Gives base later (units ++ [unit]) := by
  obtain ⟨hinnermost, henclosing⟩ := List.cons.inj hregions
  obtain ⟨earlier, hearlier, hname⟩ := List.mem_map.mp hgiven
  have hamong : ∀ other ∈ units ++ [unit], ∃ same ∈ units, same.name = other.name := by
    intro other hother
    rcases List.mem_append.mp hother with hother | hother
    · exact ⟨other, hother, rfl⟩
    · obtain rfl := List.mem_singleton.mp hother
      exact ⟨earlier, hearlier, hname⟩
  exact {
    enclosing := henclosing.trans h.enclosing
    kind := hinnermost ▸ h.kind
    symbols := h.symbols.trans hsymbols
    log := h.log.trans hlog
    known := by
      intro other hother id hid
      obtain ⟨same, hsame, heq⟩ := hamong other hother
      rw [hinnermost, ← heq]
      exact h.known same hsame id (heq ▸ hid)
    unknown := by
      intro other hother hid
      obtain ⟨same, hsame, heq⟩ := hamong other hother
      obtain ⟨id, first, symbol, hget, hfirst, hsymbol, hrest⟩ := h.unknown same hsame (heq ▸ hid)
      rw [heq] at hget hfirst hrest
      refine ⟨id, first, symbol, hinnermost ▸ hget, ?_, SymbolTable.symbol?_of_isPrefix hsymbols hsymbol, hrest⟩
      rw [List.find?_append, hfirst, Option.some_or]
    others := by
      intro name hname
      rw [hinnermost]
      refine h.others name fun hmem => hname ?_
      rw [List.map_append]
      exact List.mem_append_left _ hmem
    order := by
      rw [hinnermost, h.order, List.map_append, List.map_singleton, eraseDups_append_of_mem hgiven]
    reports := by
      rw [duplicatesSince_trans h.log hlog, h.reports, hreports, SymbolTable.repetitions_append, List.nil_append] }

theorem first {id : SymbolId} (h : Gives base parser units) (hgiven : unit.name ∉ units.map DefiningName.name)
    (henclosing : later.symbols.enclosing = parser.symbols.enclosing)
    (hinnermost : later.symbols.innermost = parser.symbols.innermost.bind unit.name id)
    (hsymbols : parser.symbols.symbols.toList <+: later.symbols.symbols.toList) (hlog : later.log = parser.log)
    (hknown : ∀ found, base.symbols.unit? unit.name = some found → found = id)
    (hunknown : base.symbols.unit? unit.name = none → ∃ symbol, later.symbols.symbol? id = some symbol ∧
      symbol.name = unit.name ∧ symbol.kind = .unit ∧ symbol.range = unit.place ∧ symbol.node.isSome) :
    Gives base later (units ++ [unit]) := by
  have hself : later.symbols.innermost.bindings.get unit.name = [id] := by
    rw [hinnermost, Region.bind, Bindings.get_add_self, h.others _ hgiven, List.nil_append]
  have hother : ∀ name, name ≠ unit.name →
      later.symbols.innermost.bindings.get name = parser.symbols.innermost.bindings.get name := by
    intro name hne
    rw [hinnermost, Region.bind, Bindings.get_add_of_ne _ _ hne]
  have hne : ∀ other ∈ units, other.name ≠ unit.name := fun other hmem heq =>
    hgiven (heq ▸ List.mem_map_of_mem hmem)
  have hfind : units.find? (·.name = unit.name) = none :=
    List.find?_eq_none.mpr fun other hmem heq => hne other hmem (of_decide_eq_true heq)
  exact {
    enclosing := henclosing.trans h.enclosing
    kind := by rw [hinnermost]; exact h.kind
    symbols := h.symbols.trans hsymbols
    log := hlog ▸ h.log
    known := by
      intro other hmem found hfound
      rcases List.mem_append.mp hmem with hmem | hmem
      · rw [hother _ (hne other hmem)]
        exact h.known other hmem found hfound
      · obtain rfl := List.mem_singleton.mp hmem
        rw [hself, hknown found hfound]
    unknown := by
      intro other hmem hnone
      rcases List.mem_append.mp hmem with hmem | hmem
      · obtain ⟨found, first, symbol, hget, hfirst, hsymbol, hrest⟩ := h.unknown other hmem hnone
        refine ⟨found, first, symbol, ?_, ?_, SymbolTable.symbol?_of_isPrefix hsymbols hsymbol, hrest⟩
        · rw [hother _ (hne other hmem), hget]
        · rw [List.find?_append, hfirst, Option.some_or]
      · obtain rfl := List.mem_singleton.mp hmem
        obtain ⟨symbol, hsymbol, hrest⟩ := hunknown hnone
        refine ⟨id, other, symbol, hself, ?_, hsymbol, hrest⟩
        rw [List.find?_append, hfind]
        simp
    others := by
      intro name hname
      rw [List.map_append, List.mem_append, not_or] at hname
      rw [hother name (by simpa using hname.2)]
      exact h.others name hname.1
    order := by
      have hsame : (units.map DefiningName.name).eraseDups.flatMap parser.symbols.innermost.bindings.get =
          (units.map DefiningName.name).eraseDups.flatMap later.symbols.innermost.bindings.get := by
        refine List.flatMap_congr fun name hname => (hother name ?_).symm
        rintro rfl
        exact hgiven (List.mem_eraseDups.mp hname)
      rw [List.map_append, List.map_singleton, eraseDups_append_of_notMem hgiven, List.flatMap_append, ← hsame,
        ← h.order, List.flatMap_singleton, hself, hinnermost]
      rfl
    reports := by
      have hnone : base.symbols.repetition units unit = none := by
        unfold SymbolTable.repetition
        split <;> simp [hfind]
      rw [duplicatesSince_trans h.log (hlog ▸ List.prefix_rfl), h.reports, SymbolTable.repetitions_append,
        List.nil_append, hnone]
      simp [duplicatesSince, reportsSince_of_log hlog] }

theorem bind_given {id : SymbolId} {symbol : Symbol} (h : Gives base parser units) (unit : DefiningName Range)
    (hgiven : unit.name ∈ units.map DefiningName.name) (hunit : base.symbols.unit? unit.name = some id)
    (hsymbol : parser.symbols.symbol? id = some symbol) (hname : symbol.name = unit.name) :
    (parser.bind id).2 = parser := by
  obtain ⟨earlier, hearlier, heq⟩ := List.mem_map.mp hgiven
  have hlast : (parser.symbols.innermost.bindings.get symbol.name).getLast? = some id := by
    rw [hname, ← heq, h.known earlier hearlier id (heq ▸ hunit), List.getLast?_singleton]
  rw [Parser.bind, SymbolTable.bind_of_last hsymbol hlast]
  rfl

theorem declare_given (h : Gives base parser units) (unit : DefiningName Range) (declaration : Declaration)
    (hgiven : unit.name ∈ units.map DefiningName.name) (hkind : declaration.kind = .unit)
    (hname : declaration.name = unit.name) (hrange : declaration.range = unit.place)
    (hunit : base.symbols.unit? unit.name = none) :
    ∃ report, base.symbols.repetition units unit = some report ∧ report.code = .duplicateDeclaration ∧
      (parser.declare declaration).2 =
        ({ parser with symbols := (parser.symbols.reserve declaration).2 } : Parser).report report := by
  obtain ⟨earlier, hearlier, heq⟩ := List.mem_map.mp hgiven
  obtain ⟨id, first, symbol, hget, hfirst, hsymbol, -, -, hplace, hsome⟩ := h.unknown earlier hearlier (heq ▸ hunit)
  rw [heq] at hget hfirst
  have hpreset : symbol.isPredefined = false := by
    simpa [Symbol.isPredefined, Option.isNone_eq_false_iff] using hsome
  have hdeclared := parser.symbols.symbol?_reserve declaration
  have hold : (parser.symbols.reserve declaration).2.symbol? id = some symbol :=
    SymbolTable.symbol?_of_isPrefix (by simp [SymbolTable.reserve]) hsymbol
  refine ⟨unit.repetition first, by rw [SymbolTable.repetition, hunit, hfirst]; rfl, rfl, ?_⟩
  simp only [Parser.declare, SymbolTable.declare_of_named hkind hsymbol (hname ▸ hget), reportDeclared, hdeclared,
    hold, hpreset, hname, hrange, hplace]
  rfl

theorem mention {id : SymbolId} (h : Gives base parser units) (unit : DefiningName Range) (hfiled : base.symbols.Filed)
    (hunit : base.symbols.unit? unit.name = some id) : Gives base (parser.bind id).2 (units ++ [unit]) := by
  obtain ⟨symbol, hsymbol, hname⟩ := (hfiled.names_unit? hunit).mono h.symbols
  by_cases hgiven : unit.name ∈ units.map DefiningName.name
  · rw [h.bind_given unit hgiven hunit hsymbol hname]
    refine h.again hgiven rfl List.prefix_rfl List.prefix_rfl ?_
    rw [SymbolTable.repetition_of_known _ _ hunit]
    simp [duplicatesSince, reportsSince_of_log]
  · rw [Parser.bind, SymbolTable.bind_of_unnamed hsymbol (hname ▸ h.others _ hgiven), hname]
    refine h.first hgiven rfl rfl List.prefix_rfl rfl (fun found hfound => ?_) fun hnone => ?_
    · exact Option.some.inj (hfound.symm.trans hunit)
    · rw [hnone] at hunit
      cases hunit

theorem declare {declaration : Declaration} (h : Gives base parser units) (hkind : declaration.kind = .unit)
    (hnode : declaration.node.isSome) (hname : declaration.name = unit.name) (hrange : declaration.range = unit.place)
    (hunit : base.symbols.unit? unit.name = none) : Gives base (parser.declare declaration).2 (units ++ [unit]) := by
  by_cases hgiven : unit.name ∈ units.map DefiningName.name
  · obtain ⟨report, hreport, hcode, hlater⟩ := h.declare_given unit declaration hgiven hkind hname hrange hunit
    rw [hlater]
    refine h.again hgiven rfl (by simp [Parser.report, SymbolTable.reserve])
      (by simp [Parser.report, DiagnosticLog.report]) ?_
    rw [duplicatesSince, hreport, reportsSince_eq (by simp [Parser.report, DiagnosticLog.report] : _ = _ ++ [report])]
    simp [hcode]
  · have hdeclare : (parser.declare declaration).2 =
        { parser with
          symbols :=
            (parser.symbols.reserve declaration).2.putBinding declaration.name ⟨parser.symbols.symbols.size⟩ } := by
      simp only [Parser.declare, SymbolTable.declare_of_unnamed (hname ▸ h.others _ hgiven), reportDeclared]
    rw [hdeclare]
    have hdeclared := parser.symbols.symbol?_reserve declaration
    refine h.first hgiven rfl (hname ▸ rfl) (by simp [SymbolTable.reserve, SymbolTable.putBinding]) rfl
      (fun found hfound => ?_) fun _ => ⟨_, hdeclared, hname, hkind, hrange, hnode⟩
    rw [hunit] at hfound
    cases hfound

theorem bound (h : Gives base parser units) (hunit : unit ∈ units) :
    ∃ id, parser.symbols.innermost.bindings.get unit.name = [id] := by
  cases hfound : base.symbols.unit? unit.name with
  | some id => exact ⟨id, h.known unit hunit id hfound⟩
  | none =>
    obtain ⟨id, _, _, hget, -⟩ := h.unknown unit hunit hfound
    exact ⟨id, hget⟩

theorem resolve {id : SymbolId} {name : Name} (h : Gives base parser units)
    (hget : parser.symbols.innermost.bindings.get name = [id]) :
    parser.symbols.resolve name = parser.symbols.resolution (some id) := by
  have hlookup : parser.symbols.lookupIn parser.symbols.innermost name false = some id := by
    simp [SymbolTable.lookupIn, hget]
  simp only [SymbolTable.resolve, h.kind, RegionKind.isTypeInterior, SymbolTable.regions, SymbolTable.lookupDirect,
    hlookup]

end Gives

end

end Parser

namespace Grammar

open Program AdaSyntax.Parser

variable {budget : Nat} {base parser : Parser} {units : List (DefiningName Range)}

def named (parser : Parser) (clause : NodeId) (unit : DefiningName Nat) : Parser :=
  match parser.symbols.unit? unit.name with
  | some id => (parser.bind id).2
  | none =>
    (parser.declare { name := unit.name, kind := .unit, node := some clause, range := parser.place unit.place }).2

theorem withUnit_run (clause : NodeId) (unit : DefiningName Nat) (parser : Parser) :
    (withUnit clause unit).run (call budget) parser = (.matched (), named parser clause unit) := by
  have hstep : (Program.step (.libraryUnit unit.name)).run (call budget) parser =
      (.matched (parser.symbols.unit? unit.name), parser) := rfl
  rw [withUnit, run_bind_of_matched hstep, named]
  cases parser.symbols.unit? unit.name <;> rfl

theorem named_tree (clause : NodeId) (unit : DefiningName Nat) (parser : Parser) :
    (named parser clause unit).tree = parser.tree ∧ (named parser clause unit).cursor = parser.cursor := by
  unfold named
  split
  · exact ⟨(reportDeclared_reports ..).tree_eq, (reportDeclared_reports ..).cursor_eq⟩
  · exact ⟨(reportDeclared_reports ..).tree_eq, (reportDeclared_reports ..).cursor_eq⟩

theorem named_gives (h : base.Gives parser units) (hfiled : base.symbols.Filed) (clause : NodeId)
    (unit : DefiningName Nat) : base.Gives (named parser clause unit) (units ++ [unit.map parser.place]) := by
  have hunit : parser.symbols.unit? unit.name = base.symbols.unit? unit.name := by
    rw [SymbolTable.unit?, SymbolTable.unit?, SymbolTable.library_of_enclosing h.enclosing]
  unfold named
  rw [hunit]
  split
  · rename_i id hfound
    exact h.mention (unit.map parser.place) hfiled hfound
  · rename_i hnone
    exact h.declare rfl rfl rfl rfl hnone

theorem withUnits_naming (h : base.Gives parser units) (hfiled : base.symbols.Filed) (clause : NodeId)
    (named : List (DefiningName Nat)) :
    Finds budget (withUnits clause named) parser fun _ later =>
      base.Gives later (units ++ named.map (·.map parser.place)) ∧ later.tree = parser.tree := by
  induction named generalizing parser units with
  | nil => exact .pure ⟨by simpa using h, rfl⟩
  | cons unit rest ih =>
    have hfirst : Finds budget (withUnit clause unit) parser fun _ later =>
        later = Grammar.named parser clause unit := by
      intro _ _ later hrun
      rw [withUnit_run] at hrun
      exact (Prod.mk.inj hrun).2.symm
    refine .bind hfirst ?_
    rintro _ _ rfl
    obtain ⟨htree, hcursor⟩ := named_tree clause unit parser
    refine (ih (named_gives h hfiled clause unit)).mono fun _ later _ ⟨h, htree'⟩ => ⟨?_, htree'.trans htree⟩
    have hplace : (Grammar.named parser clause unit).place = parser.place := by
      funext position
      rw [place, place, hcursor]
    rw [hplace, List.append_assoc] at h
    exact h

theorem withClause_naming (h : base.Gives parser units) (hfiled : base.symbols.Filed) :
    Finds budget withClause parser fun node later => base.Gives later (units ++ later.tree.givenUnits [node]) := by
  refine .position ?_
  refine .builds advance_passes fun _ later hmade => ?_
  replace h := h.silent hmade rfl rfl
  refine .builds identifierList_builds fun named later hmade => ?_
  replace h := h.silent hmade rfl rfl
  refine .builds (expect_passes _) fun _ later hmade => ?_
  replace h := h.silent hmade rfl rfl
  have hadded : Finds budget (add parser.position (.unit (.withClause named))) later fun node after =>
      base.Gives after units ∧ after.place = later.place ∧
        (after.tree.payload node).givenUnits = named.map (·.map later.place) := by
    refine .step fun node after hperform => ?_
    obtain ⟨hnode, rfl⟩ := Prod.mk.inj hperform
    obtain rfl := Reply.matched.inj hnode
    exact ⟨h.same rfl rfl, rfl, congrArg Payload.givenUnits (Tree.payload_of_get? (later.tree.get?_add_self _ _))⟩
  refine .bind hadded fun node after ⟨h, hplace, hpayload⟩ => ?_
  refine .bind (withUnits_naming h hfiled node named) fun _ last ⟨h, htree⟩ => .pure ?_
  rw [Tree.givenUnits_singleton, htree, hpayload, ← hplace]
  exact h

theorem useClause_naming (h : base.Gives parser units) :
    Finds budget useClause parser fun node later => base.Gives later (units ++ later.tree.givenUnits [node]) := by
  refine .position ?_
  refine .builds (expect_passes _) fun _ later hmade => ?_
  replace h := h.silent hmade rfl rfl
  refine .builds (separated_builds name_builds) fun packages later hpackages => ?_
  refine .builds (expect_passes _) fun _ middle hmade => ?_
  have hused : Finds budget (usePackages packages) middle fun _ last => base.Gives last units := by
    intro _ _ last hrun
    rw [usePackages_run] at hrun
    obtain ⟨-, rfl⟩ := Prod.mk.inj hrun
    have hnames := hpackages.trans hmade
    rw [Yield.append_empty] at hnames
    exact h.silent hnames.usePackages rfl rfl
  refine .bind hused fun _ last h => (add_finds _ _).mono fun node _ _ ⟨hsymbols, hlog, hpayload, _⟩ => ?_
  rw [Tree.givenUnits_singleton, hpayload]
  exact (List.append_nil units).symm ▸ h.same hsymbols hlog

theorem pragma_naming (h : base.Gives parser units) :
    Finds budget pragma parser fun node later => base.Gives later (units ++ later.tree.givenUnits [node]) := by
  refine .position ?_
  refine .builds (expect_passes _) fun _ later hmade => ?_
  replace h := h.silent hmade rfl rfl
  refine .builds definingIdentifier_passes fun name later hmade => ?_
  replace h := h.silent hmade rfl rfl
  refine .builds optionalActualParameters_builds fun arguments later hmade => ?_
  replace h := h.silent hmade rfl rfl
  refine .builds (expect_passes _) fun _ later hmade => ?_
  replace h := h.silent hmade rfl rfl
  refine (add_finds _ _).mono fun node _ _ ⟨hsymbols, hlog, hpayload, _⟩ => ?_
  rw [Tree.givenUnits_singleton, hpayload]
  exact (List.append_nil units).symm ▸ h.same hsymbols hlog

theorem contextItem_naming {kind : TokenKind} {item : Program NodeId} (hitem : contextItem? kind = some item)
    (h : base.Gives parser units) (hfiled : base.symbols.Filed) :
    Finds budget item parser fun node later => base.Gives later (units ++ later.tree.givenUnits [node]) := by
  unfold contextItem? at hitem
  split at hitem <;> cases hitem
  · exact withClause_naming h hfiled
  · exact useClause_naming h
  · exact pragma_naming h

theorem lt_size_of_made {parser later : Parser} {moved : Bool} {role : Role} {node : NodeId} {files : Bool}
    (h : Made parser later moved { Yield.one role node with files }) : node.index < later.tree.size := by
  obtain ⟨nodes, hbuilt⟩ := h.built
  cases hbuilt.row with
  | cons _ _ hnode => exact (Array.getElem?_eq_some_iff.mp hnode).1

theorem contextItems_naming (h : base.Gives parser []) (hfiled : base.symbols.Filed) :
    Finds budget contextItems parser fun items later => base.Gives later (later.tree.givenUnits items) := by
  let keeps (items : List NodeId) (parser : Parser) : Prop :=
    base.Gives parser (parser.tree.givenUnits items.reverse) ∧ ∀ item ∈ items, item.index < parser.tree.size
  have hstart : keeps [] parser := ⟨h, fun _ hmem => absurd hmem List.not_mem_nil⟩
  refine .loop keeps hstart fun items parser hkeeps => ?_
  obtain ⟨h, hitems⟩ := hkeeps
  refine .reads (Reads.query rfl) fun kind => ?_
  split
  · rename_i item hitem
    refine .bind ((contextItem_naming hitem h hfiled).both (.made (contextItem_builds hitem)))
      fun node later hnode => .pure ?_
    obtain ⟨h, hmade⟩ := hnode
    have hnodes := hmade.reverts.nodes
    have hsame : later.tree.givenUnits items.reverse = parser.tree.givenUnits items.reverse :=
      Tree.givenUnits_of_isPrefix hnodes fun item hitem => hitems item (List.mem_reverse.mp hitem)
    refine ⟨?_, List.forall_mem_cons.mpr ⟨lt_size_of_made hmade, fun item hitem => ?_⟩⟩
    · rw [List.reverse_cons, Tree.givenUnits_append, hsame]
      exact h
    · exact Nat.lt_of_lt_of_le (hitems item hitem) (Tree.size_le_of_isPrefix hnodes)
  · exact .pure h

theorem withUnit_again (h : base.Gives parser units) (hfiled : base.symbols.Filed) (hnow : parser.symbols.Filed)
    (clause : NodeId) {unit : DefiningName Nat} (hgiven : unit.name ∈ units.map DefiningName.name) :
    ∃ later, (withUnit clause unit).run (call budget) parser = (.matched (), later) ∧
      later.symbols.regions = parser.symbols.regions ∧
      (∀ name, later.symbols.resolve name = parser.symbols.resolve name) ∧
      (∀ owner name, later.symbols.resolveMember owner name = parser.symbols.resolveMember owner name) ∧
      later.reportsSince parser = (base.symbols.repetition units (unit.map parser.place)).toList := by
  refine ⟨named parser clause unit, withUnit_run clause unit parser, ?_⟩
  have hlibrary : parser.symbols.unit? unit.name = base.symbols.unit? unit.name := by
    rw [SymbolTable.unit?, SymbolTable.unit?, SymbolTable.library_of_enclosing h.enclosing]
  unfold named
  cases hunit : base.symbols.unit? unit.name with
  | some id =>
    obtain ⟨symbol, hsymbol, hname⟩ := (hfiled.names_unit? hunit).mono h.symbols
    simp only [hlibrary, hunit, h.bind_given (unit.map parser.place) hgiven hunit hsymbol hname]
    rw [SymbolTable.repetition_of_known _ _ hunit]
    exact ⟨trivial, fun _ => trivial, fun _ _ => trivial, reportsSince_of_log rfl⟩
  | none =>
    simp only [hlibrary, hunit]
    obtain ⟨report, hreport, -, hlater⟩ := h.declare_given (unit.map parser.place)
      { name := unit.name, kind := .unit, node := some clause, range := parser.place unit.place }
      hgiven rfl rfl rfl hunit
    rw [hlater, hreport]
    have hgrown (declaration : Declaration) :
        parser.symbols.symbols.toList <+: (parser.symbols.reserve declaration).2.symbols.toList := by
      simp [SymbolTable.reserve]
    exact ⟨rfl, hnow.resolve_grown (hgrown _) rfl fun _ => rfl, hnow.resolveMember_grown (hgrown _) rfl fun _ => rfl,
      reportsSince_eq (by simp [Parser.report, DiagnosticLog.report])⟩

/-- In the region of a unit, each of the names that its with clauses give has one binding, and it denotes that: for a
name of the library what the library has first, for any other a unit that was declared where the name was given
first. To give one of them again, in the same clause or in a later one, binds nothing and changes no resolution, and
it is reported only if the library does not know the name. -/
theorem contextItems_name {before after : Parser} {items : List NodeId} (hbefore : before.Moment)
    (hrun : contextItems.run (call budget)
      { before with symbols := before.symbols.openRegion .context none } = (.matched items, after)) :
    before.Gives after (after.tree.givenUnits items) ∧
      (∀ unit ∈ after.tree.givenUnits items, ∃ id, after.symbols.innermost.bindings.get unit.name = [id] ∧
        after.symbols.resolve unit.name = after.symbols.resolution (some id)) ∧
      ((∀ unit ∈ after.tree.givenUnits items, (before.symbols.unit? unit.name).isSome) →
        after.duplicatesSince before = []) ∧
      ∀ clause unit, unit.name ∈ (after.tree.givenUnits items).map DefiningName.name →
        ∃ later, (withUnit clause unit).run (call budget) after = (.matched (), later) ∧
          later.symbols.regions = after.symbols.regions ∧
          (∀ name, later.symbols.resolve name = after.symbols.resolve name) ∧
          (∀ owner name, later.symbols.resolveMember owner name = after.symbols.resolveMember owner name) ∧
          later.reportsSince after =
            (before.symbols.repetition (after.tree.givenUnits items) (unit.map after.place)).toList := by
  have hfiled : before.symbols.Filed := hbefore.at.holds.wellFormed.filed
  have hopened : SymbolTable.orderly.At { before with symbols := before.symbols.openRegion .context none } :=
    ⟨hbefore.at.reachable.move (.perform (.openRegion .context none)), hbefore.at.holds.openRegion _ _⟩
  have hafter : SymbolTable.orderly.At after := by
    have hlast : SymbolTable.orderly.At (contextItems.run (call budget) _).2 :=
      Maintains.run_at (tend_orderly budget) _ hopened
    rwa [hrun] at hlast
  have h : before.Gives after (after.tree.givenUnits items) :=
    contextItems_naming (.opening before) hfiled hopened.reachable items after hrun
  refine ⟨h, fun unit hunit => ?_, fun hknown => ?_, fun clause unit hgiven => ?_⟩
  · obtain ⟨id, hget⟩ := h.bound hunit
    exact ⟨id, hget, h.resolve hget⟩
  · rw [h.reports, SymbolTable.repetitions_of_known _ hknown]
  · exact withUnit_again h hfiled hafter.holds.wellFormed.filed clause hgiven

def clausesStart : Parser :=
  .new (.ofSource "with STANDARD, X; with X, STANDARD; procedure P;") { predefined := true }

def clausesRun : Reply (List NodeId) × Parser :=
  contextItems.run (call (callBudget clausesStart - 1))
    { clausesStart.deeper with symbols := clausesStart.deeper.symbols.openRegion .context none }

/-- Each name has one binding, only the unknown one is reported, and the known one may be given a third time. -/
theorem contextItems_name_standard :
    clausesStart.deeper.Moment ∧ clausesRun = (.matched [⟨0⟩, ⟨1⟩], clausesRun.2) ∧
      (clausesRun.2.tree.givenUnits [⟨0⟩, ⟨1⟩]).map (·.name.text) = ["STANDARD", "X", "X", "STANDARD"] ∧
      clausesRun.2.symbols.innermost.order = [⟨36⟩, ⟨37⟩] ∧
      (clausesRun.2.duplicatesSince clausesStart.deeper).map (·.range.start) = [23] ∧
      ∃ later, (withUnit ⟨1⟩ ⟨⟨"STANDARD"⟩, 6⟩).run (call (callBudget clausesStart - 1)) clausesRun.2 =
          (.matched (), later) ∧
        later.symbols.regions = clausesRun.2.symbols.regions ∧ later.reportsSince clausesRun.2 = [] := by
  have hfacts : ¬clausesStart.options.maxDepth ≤ clausesStart.depth ∧ clausesRun.1.value? = some [⟨0⟩, ⟨1⟩] ∧
      (clausesRun.2.tree.givenUnits [⟨0⟩, ⟨1⟩]).map (·.name.text) = ["STANDARD", "X", "X", "STANDARD"] ∧
      clausesRun.2.symbols.innermost.order = [⟨36⟩, ⟨37⟩] ∧
      (clausesRun.2.duplicatesSince clausesStart.deeper).map (·.range.start) = [23] ∧
      clausesStart.deeper.symbols.unit? ⟨"STANDARD"⟩ = some ⟨36⟩ ∧
      (⟨⟨"STANDARD"⟩, 6⟩ : DefiningName Nat).name ∈
        (clausesRun.2.tree.givenUnits [⟨0⟩, ⟨1⟩]).map DefiningName.name := by decide +kernel
  obtain ⟨hdepth, hvalue, hnames, horder, hreports, hknown, hgiven⟩ := hfacts
  have hbefore : clausesStart.deeper.Moment :=
    .rule_first (.library _ _) (if_neg hdepth : clausesStart.descend = .ok clausesStart.deeper) .compilationUnit
  have hrun : clausesRun = (.matched [⟨0⟩, ⟨1⟩], clausesRun.2) := Reply.result_eq hvalue
  obtain ⟨-, -, -, hagain⟩ := contextItems_name hbefore hrun
  obtain ⟨later, hlater, hregions, -, -, hsilent⟩ := hagain ⟨1⟩ ⟨⟨"STANDARD"⟩, 6⟩ hgiven
  rw [SymbolTable.repetition_of_known _ (.map clausesRun.2.place ⟨⟨"STANDARD"⟩, 6⟩) hknown] at hsilent
  exact ⟨hbefore, hrun, hnames, horder, hreports, later, hlater, hregions, hsilent⟩

end Grammar

namespace Compilation

/-- An unknown unit is reported when it is named again. -/
theorem repeatedUnit_reported :
    ∃ compilation, ofSource "with X, X; procedure Q;" { predefined := false } = .ok compilation ∧
      compilation.diagnostics.map (fun report => (report.code, report.message, report.range.start)) =
        [(.duplicateDeclaration, "'X' is already declared in this region", 8)] := by
  have hreports : (ofSource "with X, X; procedure Q;" { predefined := false }).toOption.map
      (fun compilation => compilation.diagnostics.map fun report => (report.code, report.message, report.range.start)) =
      some [(.duplicateDeclaration, "'X' is already declared in this region", 8)] := by
    decide +kernel
  exact exists_of_map hreports

end Compilation

end AdaSyntax
