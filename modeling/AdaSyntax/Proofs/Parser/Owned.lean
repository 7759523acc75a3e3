import AdaSyntax.Proofs.Parser.Silent
import AdaSyntax.Proofs.Scope.Filed

namespace AdaSyntax

namespace SymbolTable

theorem members_all (region : Region) : region.members.all = region.order :=
  List.take_append_drop _ _

theorem closeRegion_members {table later : SymbolTable} {closed : ClosedRegion}
    (h : table.closeRegion = some (closed, later)) : closed.toMembers.all = table.innermost.order := by
  unfold closeRegion at h
  split at h
  · cases h
  · obtain ⟨rfl, -⟩ := Prod.mk.inj (Option.some.inj h)
    exact members_all _

def Owned (earlier later : SymbolTable) (opened : Nat) : Prop :=
  ∃ inner region, later.regions = inner ++ region :: earlier.enclosing ∧ inner.length = opened ∧
    (∀ own ∈ inner, ∀ id ∈ own.order, earlier.symbols.size ≤ id.index) ∧
    ∀ id ∈ region.order, id ∈ earlier.innermost.order ∨ earlier.symbols.size ≤ id.index

namespace Owned

variable {first second third : SymbolTable} {opened opened' : Nat}

theorem refl (table : SymbolTable) : Owned table table 0 :=
  ⟨[], table.innermost, rfl, rfl, nofun, fun _ hid => .inl hid⟩

theorem trans (h : Owned first second opened) (h' : Owned second third opened')
    (hle : first.symbols.size ≤ second.symbols.size) : Owned first third (opened + opened') := by
  obtain ⟨inner, region, hregions, hlength, hown, hregion⟩ := h
  obtain ⟨inner', region', hregions', hlength', hown', hregion'⟩ := h'
  have hinner : ∀ own ∈ inner', ∀ id ∈ own.order, first.symbols.size ≤ id.index :=
    fun own hmem id hid => Nat.le_trans hle (hown' own hmem id hid)
  cases inner with
  | nil =>
    obtain ⟨rfl, hrest⟩ := List.cons.inj hregions
    refine ⟨inner', region', hrest ▸ hregions', by simp [hlength', ← hlength], hinner, fun id hid => ?_⟩
    rcases hregion' id hid with hold | hnew
    · exact hregion id hold
    · exact .inr (Nat.le_trans hle hnew)
  | cons top inner =>
    obtain ⟨rfl, hrest⟩ := List.cons.inj hregions
    obtain ⟨htop, hbelow⟩ := List.forall_mem_cons.mp hown
    refine ⟨inner' ++ region' :: inner, region, by simp [hregions', hrest], ?_, fun own hmem => ?_, hregion⟩
    · simp only [List.length_append, List.length_cons] at hlength ⊢
      omega
    · rcases List.mem_append.mp hmem with hmem | hmem
      · exact hinner own hmem
      · rcases List.mem_cons.mp hmem with rfl | hmem
        · intro id hid
          rcases hregion' id hid with hold | hnew
          · exact htop id hold
          · exact Nat.le_trans hle hnew
        · exact hbelow own hmem

theorem extend (h : Owned first second opened) (henclosing : third.enclosing = second.enclosing)
    (horder : ∀ id ∈ third.innermost.order,
      id ∈ second.innermost.order ∨ first.symbols.size ≤ id.index) : Owned first third opened := by
  obtain ⟨inner, region, hregions, hlength, hown, hregion⟩ := h
  cases inner with
  | nil =>
    obtain ⟨rfl, hrest⟩ := List.cons.inj hregions
    refine ⟨[], third.innermost, by simp [SymbolTable.regions, henclosing, hrest], hlength, nofun, fun id hid => ?_⟩
    exact (horder id hid).elim (hregion id) .inr
  | cons top inner =>
    obtain ⟨rfl, hrest⟩ := List.cons.inj hregions
    obtain ⟨htop, hbelow⟩ := List.forall_mem_cons.mp hown
    refine ⟨third.innermost :: inner, region, by simp [SymbolTable.regions, henclosing, hrest], hlength, ?_, hregion⟩
    exact List.forall_mem_cons.mpr ⟨fun id hid => (horder id hid).elim (htop id) fun h => h, hbelow⟩

theorem bind (h : Owned first second opened) {id : SymbolId} (hid : first.symbols.size ≤ id.index) :
    Owned first (second.bind id).2 opened := by
  rcases second.bind_eq id with heq | ⟨symbol, -, heq⟩ <;> rw [heq]
  · exact h
  · refine h.extend rfl fun other hother => ?_
    rcases List.mem_append.mp hother with hother | hother
    · exact .inl hother
    · exact .inr (List.mem_singleton.mp hother ▸ hid)

theorem openRegion (h : Owned first second opened) (kind : RegionKind) (owner : Option SymbolId) :
    Owned first (second.openRegion kind owner) (opened + 1) := by
  obtain ⟨inner, region, hregions, hlength, hown, hregion⟩ := h
  refine ⟨(second.openRegion kind owner).innermost :: inner, region, ?_, by simp [hlength], ?_, hregion⟩
  · exact congrArg (_ :: ·) hregions
  · exact List.forall_mem_cons.mpr ⟨nofun, hown⟩

theorem closeRegion (h : Owned first second (opened + 1)) :
    Owned first (second.change .closeRegion) opened ∧
      ∀ id ∈ second.innermost.order, first.symbols.size ≤ id.index := by
  obtain ⟨inner, region, hregions, hlength, hown, hregion⟩ := h
  cases inner with
  | nil => cases hlength
  | cons top inner =>
    obtain ⟨rfl, hrest⟩ := List.cons.inj hregions
    obtain ⟨htop, hbelow⟩ := List.forall_mem_cons.mp hown
    refine ⟨?_, htop⟩
    cases henclosing : second.enclosing with
    | nil => simp [henclosing] at hrest
    | cons next rest =>
      refine ⟨inner, region, ?_, Nat.succ.inj hlength, hbelow, hregion⟩
      rw [henclosing] at hrest
      simpa [SymbolTable.change, SymbolTable.closeRegion, henclosing, SymbolTable.regions] using hrest

end Owned

end SymbolTable

theorem Change.files {base parser : Parser} {yield yield' : Yield} {change : TableChange}
    (h : Change base parser yield change yield') (hfiles : yield'.files = false) : yield.files = false := by
  cases h with
  | file => cases hfiles
  | _ => exact hfiles

namespace Parser

def reportsSince (later earlier : Parser) : List Diagnostic :=
  later.log.records.toList.drop earlier.log.length

section

variable {earlier middle later : Parser}

theorem reportsSince_of_log (h : later.log = earlier.log) : later.reportsSince earlier = [] := by
  simp [reportsSince, h, DiagnosticLog.length]

theorem reportsSince_eq {reports : List Diagnostic}
    (h : later.log.records.toList = earlier.log.records.toList ++ reports) :
    later.reportsSince earlier = reports := by
  simp [reportsSince, h, DiagnosticLog.length]

theorem log_eq (h : earlier.log.records.toList <+: later.log.records.toList) :
    later.log.records.toList = earlier.log.records.toList ++ later.reportsSince earlier := by
  obtain ⟨reports, hreports⟩ := h
  rw [reportsSince_eq hreports.symm, hreports]

theorem reportsSince_trans (h : earlier.log.records.toList <+: middle.log.records.toList)
    (h' : middle.log.records.toList <+: later.log.records.toList) :
    later.reportsSince earlier = middle.reportsSince earlier ++ later.reportsSince middle := by
  apply reportsSince_eq
  rw [log_eq h', log_eq h, List.append_assoc]

theorem reportsSince_report (diagnostic : Diagnostic) :
    (earlier.report diagnostic).reportsSince earlier = [diagnostic] :=
  reportsSince_eq (by simp [report, DiagnosticLog.report])

end

def Concerns (base parser : Parser) (report : Diagnostic) : Prop :=
  ∃ id symbol, base.symbols.symbols.size ≤ id.index ∧ parser.symbols.symbol? id = some symbol ∧
    report.range = symbol.range

theorem Concerns.mono {base middle earlier later : Parser} {report : Diagnostic} (h : middle.Concerns earlier report)
    (hle : base.symbols.symbols.size ≤ middle.symbols.symbols.size)
    (hgrown : earlier.symbols.symbols.toList <+: later.symbols.symbols.toList) : base.Concerns later report := by
  obtain ⟨id, symbol, hid, hsymbol, hrange⟩ := h
  exact ⟨id, symbol, Nat.le_trans hle hid, SymbolTable.symbol?_of_isPrefix hgrown hsymbol, hrange⟩

structure Owns (base parser : Parser) (opened : Nat) : Prop where
  bound : base.symbols.Owned parser.symbols opened
  deep : ∀ id symbol, base.symbols.symbols.size ≤ id.index → parser.symbols.symbol? id = some symbol →
    base.symbols.depth ≤ symbol.depth
  reported : ∀ report ∈ parser.reportsSince base, report.code = .duplicateDeclaration → base.Concerns parser report

namespace Owns

variable {base middle parser later : Parser} {yield : Yield} {nodes : List NodeId} {opened opened' : Nat}

theorem refl (parser : Parser) : Owns parser parser 0 where
  bound := .refl _
  deep id symbol hid hsymbol := absurd (Array.getElem?_eq_some_iff.mp hsymbol).1 (Nat.not_lt.mpr hid)
  reported := by simp [reportsSince_of_log]

theorem trans (h : Owns base middle opened) (h' : Owns middle parser opened')
    (hgrown : base.symbols.Grown middle.symbols opened) (hgrown' : middle.symbols.Grown parser.symbols opened')
    (hlog : base.log.records.toList <+: middle.log.records.toList)
    (hlog' : middle.log.records.toList <+: parser.log.records.toList) : Owns base parser (opened + opened') where
  bound := h.bound.trans h'.bound hgrown.symbols_le
  deep := by
    intro id symbol hid hsymbol
    by_cases hlt : id.index < middle.symbols.symbols.size
    · have hmiddle : middle.symbols.symbol? id = some middle.symbols.symbols[id.index] :=
        Array.getElem?_eq_getElem hlt
      have hsame := SymbolTable.symbol?_of_isPrefix hgrown'.reverts.symbols hmiddle
      rw [hsymbol] at hsame
      exact h.deep id symbol hid (hmiddle.trans hsame.symm)
    · exact Nat.le_trans hgrown.depth_le (h'.deep id symbol (Nat.not_lt.mp hlt) hsymbol)
  reported := by
    intro report hreport hcode
    rw [reportsSince_trans hlog hlog'] at hreport
    rcases List.mem_append.mp hreport with hreport | hreport
    · exact (h.reported report hreport hcode).mono (Nat.le_refl _) hgrown'.reverts.symbols
    · exact (h'.reported report hreport hcode).mono hgrown.symbols_le List.prefix_rfl

theorem of_symbols (h : Owns base parser opened) {opened' : Nat} (hbound : base.symbols.Owned later.symbols opened')
    (hsymbols : later.symbols.symbols = parser.symbols.symbols) (hlog : later.log = parser.log) :
    Owns base later opened' where
  bound := hbound
  deep id symbol hid hsymbol := h.deep id symbol hid (by rwa [SymbolTable.symbol?, ← hsymbols])
  reported report hreport hcode := by
    rw [reportsSince, hlog] at hreport
    exact (h.reported report hreport hcode).mono (Nat.le_refl _) (hsymbols ▸ List.prefix_rfl)

theorem report (h : Owns base parser opened) (diagnostic : Diagnostic)
    (hlog : base.log.records.toList <+: parser.log.records.toList)
    (hcode : diagnostic.code = .duplicateDeclaration → base.Concerns parser diagnostic) :
    Owns base (parser.report diagnostic) opened where
  bound := h.bound
  deep := h.deep
  reported := by
    intro report hreport hduplicate
    have hlater : parser.log.records.toList <+: (parser.report diagnostic).log.records.toList := by
      simp [Parser.report, DiagnosticLog.report]
    rw [reportsSince_trans hlog hlater, reportsSince_report] at hreport
    rcases List.mem_append.mp hreport with hreport | hreport
    · exact h.reported report hreport hduplicate
    · rw [List.mem_singleton.mp hreport] at hduplicate ⊢
      exact hcode hduplicate

theorem notes (h : Owns base parser opened) (hlog : base.log.records.toList <+: parser.log.records.toList)
    (hlater : later.Notes parser) : Owns base later opened := by
  rcases hlater with rfl | ⟨diagnostic, hcode, rfl⟩
  · exact h
  · exact h.report diagnostic hlog fun hduplicate => absurd hduplicate hcode

theorem usePackages (h : Owns base parser opened) (hbuilt : Built base parser yield nodes) (packages : List NodeId) :
    Owns base (parser.usePackages packages) opened := by
  induction packages generalizing parser with
  | nil => exact h
  | cons package packages ih =>
    refine ih ?_ (hbuilt.usePackage package)
    unfold usePackage
    split
    · exact h.of_symbols (h.bound.extend rfl fun _ hid => .inl hid) rfl rfl
    · exact h.of_symbols (h.bound.extend rfl fun _ hid => .inl hid) rfl rfl
    · exact h.notes hbuilt.reverts.log (parser.find_notes _)

theorem declare (h : Owns base parser opened) (hgrown : base.symbols.Grown parser.symbols opened)
    (declaration : Declaration) :
    Owns base { parser with symbols := (parser.symbols.declare declaration).2.2 } opened where
  bound := by
    have hreserved : base.symbols.Owned (parser.symbols.reserve declaration).2 opened :=
      h.bound.extend rfl fun _ hid => .inl hid
    exact hreserved.bind hgrown.symbols_le
  deep := by
    intro id symbol hid hsymbol
    rw [SymbolTable.symbol?, SymbolTable.declare_symbols, Array.getElem?_push] at hsymbol
    split at hsymbol
    · obtain rfl := Option.some.inj hsymbol
      exact hgrown.depth_le
    · exact h.deep id symbol hid hsymbol
  reported report hreport hcode := by
    refine (h.reported report hreport hcode).mono (Nat.le_refl _) ?_
    simp [SymbolTable.declare_symbols]

theorem change {change : TableChange} {yield' : Yield} (h : Owns base parser yield.opened.length)
    (hbuilt : Built base parser yield nodes) (hchange : Change base parser yield change yield')
    (hfiles : yield'.files = false) :
    Owns base { parser with symbols := parser.symbols.change change } yield'.opened.length := by
  have hgrown := hbuilt.scopes
  cases hchange with
  | declare => exact h.declare hgrown _
  | label => exact h.declare hgrown _
  | parameter => exact h.declare hgrown _
  | bind hid => exact h.of_symbols (h.bound.bind hid) (parser.symbols.bind_symbols _) rfl
  | file => cases hfiles
  | openRegion owner =>
    rw [Yield.opening, List.length_append]
    exact h.of_symbols (h.bound.openRegion _ owner) rfl rfl
  | openLoop =>
    rw [Yield.opening, List.length_append]
    exact h.of_symbols (h.bound.openRegion _ _) rfl rfl
  | closeRegion hopened =>
    obtain ⟨count, hcount⟩ := Nat.exists_eq_succ_of_ne_zero (mt List.length_eq_zero_iff.mp hopened)
    rw [Yield.closing, List.length_dropLast, hcount]
    exact h.of_symbols (hcount ▸ h.bound).closeRegion.1 (parser.symbols.change_symbols rfl) rfl
  | markPrivate => exact h.of_symbols (h.bound.extend rfl fun _ hid => .inl hid) rfl rfl
  | addImport => exact h.of_symbols (h.bound.extend rfl fun _ hid => .inl hid) rfl rfl
  | publish => exact h.of_symbols (h.bound.extend rfl fun _ hid => .inl hid) rfl rfl
  | @publishAlias synonym target =>
    refine h.of_symbols ?_ (parser.symbols.change_symbols rfl) rfl
    simp only [SymbolTable.change]
    rcases parser.symbols.publishAlias_eq synonym target with heq | ⟨contents, heq⟩ <;> rw [heq]
    · exact h.bound
    · exact h.bound.extend rfl fun _ hid => .inl hid

end Owns

theorem usePackages_filed {parser : Parser} (h : parser.symbols.Filed) (packages : List NodeId) :
    (parser.usePackages packages).symbols.Filed := by
  induction packages generalizing parser with
  | nil => exact h
  | cons package packages ih =>
    refine ih ?_
    unfold usePackage
    split
    · exact h.addImport _ _
    · exact h.addImport _ _
    · rw [(parser.find_reports _).symbols_eq]
      exact h

end Parser

namespace Course

open AdaSyntax.Parser

variable {base parser : Parser} {yield : Yield} {nodes : List NodeId}

theorem owns (h : Course base parser yield nodes) (hproper : base.symbols.Proper) (hfiles : yield.files = false) :
    base.Owns parser yield.opened.length := by
  induction h with
  | refl parser => exact .refl parser
  | append h h' ih ih' =>
    obtain ⟨hfirst, hsecond⟩ := Bool.or_eq_false_iff.mp hfiles
    have hbuilt := h.built hproper
    have hbuilt' := h'.built hbuilt.proper
    rw [Yield.append_opened, List.length_append]
    exact (ih hproper hfirst).trans (ih' hbuilt.proper hsecond) hbuilt.scopes hbuilt'.scopes hbuilt.reverts.log
      hbuilt'.reverts.log
  | nested _ ih =>
    obtain ⟨hbound, hdeep, hreported⟩ := ih hproper hfiles
    exact ⟨hbound, hdeep, hreported⟩
  | listed _ ih =>
    obtain ⟨hbound, hdeep, hreported⟩ := ih hproper hfiles
    exact ⟨hbound, hdeep, hreported⟩
  | resume _ hlater ih =>
    obtain ⟨next, furthest, -, rfl⟩ := hlater
    have h := ih hproper hfiles
    exact h.of_symbols (h.bound.extend rfl fun _ hid => .inl hid) rfl rfl
  | weaken _ hyield ih =>
    rw [hyield.opened]
    exact ih hproper (Bool.eq_false_iff.mpr fun htrue => by simp [hyield.files htrue] at hfiles)
  | advance _ _ ih =>
    have h := ih hproper hfiles
    exact h.of_symbols h.bound rfl rfl
  | report h hcode ih =>
    refine (ih hproper hfiles).report _ (h.built hproper).reverts.log fun hduplicate => ?_
    rw [hduplicate] at hcode
    cases hcode
  | @declared _ parser _ _ id declared h _ hid ih =>
    have howns := ih hproper hfiles
    have hid := hid.resolve_right (by simp [hfiles])
    rcases parser.reportDeclared_eq id declared with heq | ⟨diagnostic, symbol, -, hsymbol, hrange, heq⟩ <;> rw [heq]
    · exact howns
    · exact howns.report diagnostic (h.built hproper).reverts.log fun _ => ⟨id, symbol, hid, hsymbol, hrange⟩
  | mark h ih => exact (ih hproper hfiles).notes (h.built hproper).reverts.log (checkMark_notes _ _)
  | bounds _ _ ih => exact ih hproper hfiles
  | packages h ih => exact (ih hproper rfl).usePackages (h.built hproper) _
  | add _ _ _ _ _ _ ih =>
    have h := ih hproper hfiles
    exact h.of_symbols h.bound rfl rfl
  | exit h hfits _ _ hmoved ih =>
    have howns := ih hproper hfiles
    have hadded := (h.built hproper).add hfits (.inl rfl) hmoved
    refine Owns.notes ?_ hadded.reverts.log (checkExit_notes _ _ _)
    exact howns.of_symbols howns.bound rfl rfl
  | reserve _ ih =>
    have h := ih hproper hfiles
    exact h.of_symbols h.bound rfl rfl
  | fill _ _ _ _ _ _ ih =>
    have h := ih hproper hfiles
    exact h.of_symbols h.bound rfl rfl
  | change h hchange ih => exact (ih hproper (hchange.files hfiles)).change (h.built hproper) hchange hfiles

theorem filed (h : Course base parser yield nodes) (hfiled : base.symbols.Filed) : parser.symbols.Filed := by
  induction h with
  | refl => exact hfiled
  | append _ _ ih ih' => exact ih' (ih hfiled)
  | resume _ hlater ih =>
    obtain ⟨next, furthest, -, rfl⟩ := hlater
    have h := ih hfiled
    exact h.of_regions List.prefix_rfl h.regions rfl
  | declared _ _ _ _ ih =>
    rw [(reportDeclared_reports ..).symbols_eq]
    exact ih hfiled
  | @mark _ parser node _ _ ih =>
    rw [(parser.checkMark_reports node).symbols_eq]
    exact ih hfiled
  | packages _ ih => exact usePackages_filed (ih hfiled) _
  | exit _ _ _ _ _ ih =>
    rw [(checkExit_reports ..).symbols_eq]
    exact ih hfiled
  | change _ _ ih => exact (ih hfiled).change _
  | nested _ ih | listed _ ih | weaken _ _ ih | advance _ _ ih | report _ _ ih | bounds _ _ ih | reserve _ ih =>
    exact ih hfiled
  | add _ _ _ _ _ _ ih | fill _ _ _ _ _ _ ih => exact ih hfiled

theorem opened_of_silent (h : Course base parser yield nodes) (hsilent : yield.silent = true) : yield.opened = [] := by
  induction h with
  | refl => rfl
  | append _ _ ih ih' =>
    obtain ⟨hfirst, hsecond⟩ := Bool.and_eq_true_iff.mp hsilent
    rw [Yield.append_opened, ih hfirst, ih' hsecond]
    rfl
  | nested _ ih => exact ih hsilent
  | listed _ ih => exact ih hsilent
  | resume _ _ ih => exact ih hsilent
  | weaken _ hyield ih => exact hyield.opened.trans (ih (hyield.silent hsilent))
  | advance _ _ ih => exact ih hsilent
  | report _ _ ih => exact ih hsilent
  | declared _ _ hloud => simp [hloud] at hsilent
  | mark | bounds | packages => rfl
  | add _ _ _ _ _ _ ih => exact ih (Bool.and_eq_true_iff.mp hsilent).1
  | exit => cases (Bool.and_eq_true_iff.mp hsilent).2
  | reserve => cases hsilent
  | fill _ _ _ _ _ _ ih => exact ih (Bool.and_eq_true_iff.mp hsilent).1
  | change _ hchange ih =>
    cases hchange with
    | declare | label | parameter | bind | file | openRegion | openLoop => cases hsilent
    | closeRegion => rw [Yield.closing, ih hsilent]; rfl
    | _ => exact ih hsilent

end Course

structure SymbolTable.Unbound (earlier later : SymbolTable) : Prop where
  enclosing : later.enclosing = earlier.enclosing
  order : later.innermost.order = earlier.innermost.order
  bindings : later.innermost.bindings = earlier.innermost.bindings

namespace SymbolTable.Unbound

variable {first second third : SymbolTable}

theorem refl (table : SymbolTable) : Unbound table table := ⟨rfl, rfl, rfl⟩

theorem trans (h : Unbound first second) (h' : Unbound second third) : Unbound first third :=
  ⟨h'.enclosing.trans h.enclosing, h'.order.trans h.order, h'.bindings.trans h.bindings⟩

theorem of_symbols_eq (h : third = second) : Unbound second third := h ▸ .refl second

end SymbolTable.Unbound

namespace Parser

theorem usePackages_unbound (parser : Parser) (packages : List NodeId) :
    parser.symbols.Unbound (parser.usePackages packages).symbols := by
  induction packages generalizing parser with
  | nil => exact .refl _
  | cons package packages ih =>
    refine .trans ?_ (ih (parser.usePackage package))
    unfold usePackage
    split
    · exact ⟨rfl, rfl, rfl⟩
    · exact ⟨rfl, rfl, rfl⟩
    · exact .of_symbols_eq (parser.find_reports _).symbols_eq

end Parser

theorem Course.unbound_of_silent {base parser : Parser} {yield : Yield} {nodes : List NodeId}
    (h : Course base parser yield nodes) (hsilent : yield.silent = true) :
    base.symbols.Unbound parser.symbols := by
  induction h with
  | refl => exact .refl _
  | append _ _ ih ih' =>
    obtain ⟨hfirst, hsecond⟩ := Bool.and_eq_true_iff.mp hsilent
    exact (ih hfirst).trans (ih' hsecond)
  | nested _ ih => exact ih hsilent
  | listed _ ih => exact ih hsilent
  | resume _ hlater ih =>
    obtain ⟨next, furthest, -, rfl⟩ := hlater
    exact (ih hsilent).trans ⟨rfl, rfl, rfl⟩
  | weaken _ hyield ih => exact ih (hyield.silent hsilent)
  | advance _ _ ih => exact ih hsilent
  | report _ _ ih => exact ih hsilent
  | declared _ _ hloud => simp [hloud] at hsilent
  | @mark _ parser node _ _ ih => exact (ih rfl).trans (.of_symbols_eq (parser.checkMark_reports node).symbols_eq)
  | bounds _ _ ih => exact ih rfl
  | packages _ ih => exact (ih rfl).trans (Parser.usePackages_unbound _ _)
  | add _ _ _ _ _ _ ih => exact ih (Bool.and_eq_true_iff.mp hsilent).1
  | exit => cases (Bool.and_eq_true_iff.mp hsilent).2
  | reserve => cases hsilent
  | fill _ _ _ _ _ _ ih => exact ih (Bool.and_eq_true_iff.mp hsilent).1
  | change h hchange ih =>
    cases hchange with
    | declare | label | parameter | bind | file | openRegion | openLoop => cases hsilent
    | closeRegion hopened => exact absurd (h.opened_of_silent hsilent) hopened
    | markPrivate hopened => exact absurd (h.opened_of_silent hsilent) hopened
    | addImport => exact (ih hsilent).trans ⟨rfl, rfl, rfl⟩
    | publish => exact (ih hsilent).trans ⟨rfl, rfl, rfl⟩
    | publishAlias target =>
      refine (ih hsilent).trans ?_
      simp only [SymbolTable.change, SymbolTable.publishAlias]
      split <;> exact ⟨rfl, rfl, rfl⟩

end AdaSyntax
