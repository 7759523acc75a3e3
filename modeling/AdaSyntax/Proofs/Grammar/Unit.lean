import AdaSyntax.Proofs.Parser.Finds

namespace AdaSyntax

def Payload.isPackageBody {α : Type} : Payload α → Bool
  | .decl (.packageBody ..) => true
  | _ => false

namespace Parser

/-- The node declares the symbol, which is new and no mere mention of a unit. Its region is the innermost one
or a later one. -/
structure Own (base parser : Parser) (node : NodeId) (id : SymbolId) : Prop where
  fresh : base.symbols.symbols.size ≤ id.index
  symbol : ∃ symbol, parser.symbols.symbol? id = some symbol ∧ symbol.node = some node ∧ symbol.kind ≠ .unit ∧
    base.symbols.innermost.id.index ≤ symbol.region.index

def Declares (base : Parser) (node : NodeId) (parser : Parser) : Prop :=
  ∃ declared bound, base.Enters parser declared bound ∧
    ((declared = [] ∧ (parser.tree.payload node).isPackageBody = true) ∨
      ∃ id, declared = [id] ∧ base.Own parser node id)

section

variable {base middle parser later : Parser} {node : NodeId} {id : SymbolId} {declared bound : List SymbolId}

theorem Own.mono (h : base.Own parser node id)
    (hgrown : parser.symbols.symbols.toList <+: later.symbols.symbols.toList) : base.Own later node id where
  fresh := h.fresh
  symbol :=
    have ⟨symbol, hsymbol, hrest⟩ := h.symbol
    ⟨symbol, SymbolTable.symbol?_of_isPrefix hgrown hsymbol, hrest⟩

theorem Own.same (h : base.Own parser node id) (hsymbols : later.symbols.symbols = parser.symbols.symbols) :
    base.Own later node id :=
  h.mono (hsymbols ▸ List.prefix_rfl)

theorem Own.weaken (h : middle.Own parser node id)
    (hle : base.symbols.symbols.size ≤ middle.symbols.symbols.size)
    (hregion : base.symbols.innermost.id.index ≤ middle.symbols.innermost.id.index) : base.Own parser node id where
  fresh := Nat.le_trans hle h.fresh
  symbol :=
    have ⟨symbol, hsymbol, hnode, hkind, hle⟩ := h.symbol
    ⟨symbol, hsymbol, hnode, hkind, Nat.le_trans hregion hle⟩

theorem symbol?_declare (parser : Parser) (declaration : Declaration) :
    (parser.declare declaration).2.symbols.symbol? ⟨parser.symbols.symbols.size⟩ =
      some { declaration with region := parser.symbols.innermost.id, depth := parser.symbols.depth } := by
  have hsymbols : (parser.declare declaration).2.symbols = (parser.symbols.declare declaration).2.2 :=
    reportDeclared_symbols ..
  rw [hsymbols, SymbolTable.symbol?, SymbolTable.declare_symbols]
  exact Array.getElem?_push_size

end

end Parser

namespace Grammar

open Program AdaSyntax.Parser

variable {budget : Nat} {base middle parser : Parser} {declared bound : List SymbolId}

theorem declare_finds (h : base.Enters parser declared bound) (name : DefiningName Nat) {kind : SymbolKind}
    (node : NodeId) (hkind : kind ≠ .unit) :
    Finds budget (declare name kind node) parser fun id later =>
      ∃ bound', base.Enters later (declared ++ [id]) (bound ++ bound') ∧ base.Own later node id := by
  refine .reachable fun hreachable => .step fun id later hperform => ?_
  obtain ⟨hid, rfl⟩ := Prod.mk.inj hperform
  obtain rfl := Reply.matched.inj hid
  let declaration : Declaration :=
    { name := name.name, kind, node := some node, range := parser.place name.place, shape := none }
  obtain ⟨bound', henters⟩ := h.declare hreachable.proper declaration
  have hregion : base.symbols.innermost.id.index ≤ parser.symbols.innermost.id.index :=
    Nat.le_of_eq (congrArg RegionId.index h.stays.innermost.1.id.symm)
  exact ⟨bound', henters, h.grown.symbols_le, _, parser.symbol?_declare declaration, rfl, hkind, hregion⟩

theorem opening_finds (kind : RegionKind) (owner : Option SymbolId) (hfiled : parser.symbols.Filed) :
    Finds budget (openRegion kind owner) parser fun _ later => parser.Within later := by
  refine .step fun _ later hperform => ?_
  obtain ⟨-, rfl⟩ := Prod.mk.inj hperform
  exact .opening hfiled kind owner

theorem closing_finds (h : base.Enters middle declared bound) (hwithin : middle.Within parser) :
    Finds budget closeRegion parser fun _ later => base.Enters later declared bound ∧
      later.symbols.symbols = parser.symbols.symbols := by
  refine .step fun members later hperform => ?_
  obtain ⟨closed, table, hclose, -⟩ := hwithin.grown.closeRegion
  simp only [Parser.perform, hclose] at hperform
  obtain ⟨-, rfl⟩ := Prod.mk.inj hperform
  refine ⟨h.region hwithin hclose, ?_⟩
  have htable : parser.symbols.change .closeRegion = table := by simp [SymbolTable.change, hclose]
  exact htable ▸ SymbolTable.change_symbols _ rfl

theorem lift_finds {node : NodeId} {id : SymbolId} (h : base.Enters parser [] []) (hfiled : base.symbols.Filed)
    (hown : base.Own parser node id) :
    Finds budget (.step (.bind id)) parser fun _ later =>
      ∃ bound, base.Enters later [id] bound ∧ base.Own later node id := by
  refine .reachable fun hreachable => .step fun _ later hperform => ?_
  obtain ⟨-, rfl⟩ := Prod.mk.inj hperform
  obtain ⟨symbol, hsymbol, -⟩ := hown.symbol
  obtain ⟨bound, henters⟩ := h.lift hfiled hreachable.proper hown.fresh hsymbol nofun
  have hsymbols : (parser.bind id).2.symbols.symbols = parser.symbols.symbols := by
    rw [show (parser.bind id).2.symbols = (parser.symbols.bind id).2 from reportDeclared_symbols ..]
    exact parser.symbols.bind_symbols id
  exact ⟨_, henters, hown.same hsymbols⟩

theorem publish_finds {owner : SymbolId} (h : base.Enters parser declared bound)
    (howner : base.symbols.symbols.size ≤ owner.index) (members : Members) :
    Finds budget (.step (.publish owner members)) parser fun _ later =>
      base.Enters later declared bound ∧ later.symbols.symbols = parser.symbols.symbols := by
  refine .step fun _ later hperform => ?_
  obtain ⟨-, rfl⟩ := Prod.mk.inj hperform
  exact ⟨h.published (h.grown.publish howner members) rfl rfl (h.filed.publish owner members), rfl⟩

theorem publishAs_finds {synonym : SymbolId} (h : base.Enters parser declared bound)
    (hsynonym : base.symbols.symbols.size ≤ synonym.index) (target : Option SymbolId) :
    Finds budget (publishAs synonym target) parser fun _ later =>
      base.Enters later declared bound ∧ later.symbols.symbols = parser.symbols.symbols := by
  cases target with
  | none => exact .pure ⟨h, rfl⟩
  | some target =>
    refine .step fun _ later hperform => ?_
    obtain ⟨-, rfl⟩ := Prod.mk.inj hperform
    have hgrown := h.grown.publishAlias hsynonym target
    have hfiled := h.filed.publishAlias synonym target
    rcases parser.symbols.publishAlias_eq synonym target with heq | ⟨contents, heq⟩ <;> rw [heq] at hgrown hfiled ⊢
    · exact ⟨h, rfl⟩
    · exact ⟨h.published hgrown rfl rfl hfiled, rfl⟩

theorem add_finds (start : Nat) (payload : Payload Nat) :
    Finds budget (add start payload) parser fun node later => later.symbols = parser.symbols ∧
      later.log = parser.log ∧ later.tree.payload node = payload.map parser.place ∧
      parser.tree.nodes.toList <+: later.tree.nodes.toList := by
  refine .step fun node later hperform => ?_
  obtain ⟨hnode, rfl⟩ := Prod.mk.inj hperform
  obtain rfl := Reply.matched.inj hnode
  exact ⟨rfl, rfl, Tree.payload_of_get? (parser.tree.get?_add_self _ _), by simp⟩

theorem reserve_finds (start : Nat) :
    Finds budget (reserve start) parser fun _ later => later.symbols = parser.symbols ∧ later.log = parser.log := by
  refine .step fun node later hperform => ?_
  obtain ⟨-, rfl⟩ := Prod.mk.inj hperform
  exact ⟨rfl, rfl⟩

theorem fill_finds (node : NodeId) (start : Nat) (payload : Payload Nat) :
    Finds budget (fill node start payload) parser fun _ later =>
      later.symbols = parser.symbols ∧ later.log = parser.log := by
  refine .step fun _ later hperform => ?_
  simp only [Parser.perform, fillNode] at hperform
  split at hperform
  · obtain ⟨-, rfl⟩ := Prod.mk.inj hperform
    exact ⟨rfl, rfl⟩
  · cases hperform

theorem subprogramSpecification_finds (h : base.Enters parser [] []) (node : NodeId) (isGeneric : Bool) :
    Finds budget (subprogramSpecification node isGeneric) parser fun header later => ∃ middle bound,
      base.Enters middle [header.symbol] bound ∧ base.Own middle node header.symbol ∧ middle.Within later := by
  refine .position ?_
  refine .builds subprogramKind_passes fun kind later hmade => ?_
  replace h := h.silent hmade rfl rfl
  refine .builds (subprogramDesignator_builds kind) fun name later hmade => ?_
  replace h := h.silent hmade rfl rfl
  refine .reads (Reads.query rfl) fun earlier => ?_
  have hkind : subprogramSymbolKind isGeneric kind ≠ .unit := by cases kind <;> cases isGeneric <;> nofun
  refine .bind (declare_finds h name node hkind) fun symbol middle ⟨bound, h, hown⟩ => ?_
  refine .bind (opening_finds _ _ h.filed) fun _ later hwithin => ?_
  refine .builds (importFormals_passes _ _) fun _ later hmade => ?_
  replace hwithin := hwithin.made hmade rfl rfl
  refine .builds formalPart_builds fun parameters later hmade => ?_
  replace hwithin := hwithin.made hmade rfl rfl
  refine .builds (resultMark_builds kind) fun result later hmade => ?_
  replace hwithin := hwithin.made hmade rfl rfl
  refine .bind (add_finds _ _) fun spec later ⟨hsymbols, hlog, _⟩ => .pure ?_
  exact ⟨middle, bound, h, hown, hwithin.same hsymbols hlog⟩

theorem privatePart_finds (h : base.Within parser) :
    Finds budget privatePart parser fun _ later => base.Within later := by
  refine .builds (accept_passes _) fun hasPrivate later hmade => ?_
  replace h := h.made hmade rfl rfl
  split
  · have hmark : Finds budget (.step .markPrivate) later fun _ marked => base.Within marked := by
      refine .step fun _ marked hperform => ?_
      obtain ⟨-, rfl⟩ := Prod.mk.inj hperform
      exact h.markPrivate
    refine .bind (.bind hmark fun _ marked h => ?_) fun hidden later h => .pure h
    exact (Finds.made (declarativeItems_builds _)).mono fun _ _ _ hmade => h.made hmade rfl rfl
  · exact .pure h

theorem packageSpecification_finds (h : base.Enters parser [] []) (owner : Option NodeId) {kind : SymbolKind}
    (hkind : kind ≠ .unit) :
    Finds budget (packageSpecification owner kind) parser fun value later =>
      ∃ bound, base.Enters later [value.2] bound ∧ base.Own later (owner.getD value.1) value.2 := by
  refine .position ?_
  refine .builds (expect_passes _) fun _ later hmade => ?_
  replace h := h.silent hmade rfl rfl
  refine .builds definingIdentifier_passes fun name later hmade => ?_
  replace h := h.silent hmade rfl rfl
  refine .builds (expectChoice_passes _) fun _ later hmade => ?_
  replace h := h.silent hmade rfl rfl
  refine .reads (isAt_reads _) fun isInstance => ?_
  dsimp only
  split
  · exact .reject
  · refine .bind (reserve_finds _) fun node later ⟨hsymbols, hlog⟩ => ?_
    replace h := h.same hsymbols hlog
    refine .bind (declare_finds h name (owner.getD node) hkind) fun symbol middle ⟨bound, h, hown⟩ => ?_
    refine .bind (opening_finds _ _ h.filed) fun _ later hwithin => ?_
    refine .builds (declarativeItems_builds _) fun visible later hmade => ?_
    replace hwithin := hwithin.made hmade rfl rfl
    refine .bind (privatePart_finds hwithin) fun hidden later hwithin => ?_
    refine .builds (expect_passes _) fun _ later hmade => ?_
    replace hwithin := hwithin.made hmade rfl rfl
    refine .builds (endName_passes _) fun endName later hmade => ?_
    replace hwithin := hwithin.made hmade rfl rfl
    refine .bind (closing_finds h hwithin) fun members closed ⟨h, hsymbols⟩ => ?_
    replace hown := (hown.mono hwithin.grown.reverts.symbols).same hsymbols
    refine .bind (publish_finds h hown.fresh members) fun _ later ⟨h, hsymbols⟩ => ?_
    replace hown := hown.same hsymbols
    refine .bind (fill_finds _ _ _) fun _ later ⟨hsymbols, hlog⟩ => .pure ?_
    exact ⟨bound, h.same hsymbols hlog, hown.same (congrArg SymbolTable.symbols hsymbols)⟩

theorem packageDeclaration_declares (hfiled : parser.symbols.Filed) :
    Finds budget packageDeclaration parser parser.Declares := by
  refine .bind (packageSpecification_finds (.refl hfiled) none nofun) fun value later ⟨bound, h, hown⟩ => ?_
  refine .builds (expect_passes _) fun _ later' hmade => .pure ?_
  have hkept := hmade.reverts.symbols.symbols
  exact ⟨_, bound, h.silent hmade rfl rfl, .inr ⟨value.2, rfl, hown.mono hkept⟩⟩

theorem complete_declares {symbol : SymbolId} {node : NodeId} (h : base.Enters middle [symbol] bound)
    (hown : base.Own middle node symbol) (hwithin : middle.Within parser) (start : Nat) (payload : Payload Nat) :
    Finds budget (do
      let _ ← closeRegion
      fill node start payload
      return node) parser base.Declares := by
  refine .bind (closing_finds h hwithin) fun _ later ⟨h, hsymbols⟩ => ?_
  replace hown := (hown.mono hwithin.grown.reverts.symbols).same hsymbols
  refine .bind (fill_finds _ _ _) fun _ later ⟨hsymbols, hlog⟩ => .pure ?_
  exact ⟨_, bound, h.same hsymbols hlog, .inr ⟨symbol, rfl, hown.same (congrArg SymbolTable.symbols hsymbols)⟩⟩

theorem subprogramDeclaration_declares (hfiled : parser.symbols.Filed) :
    Finds budget subprogramDeclaration parser parser.Declares := by
  have h : parser.Enters parser [] [] := .refl hfiled
  refine .position <| .bind (reserve_finds _) fun node later ⟨hsymbols, hlog⟩ => ?_
  refine .bind (subprogramSpecification_finds (h.same hsymbols hlog) node false)
    fun header later ⟨middle, bound, h, hown, hwithin⟩ => ?_
  refine .builds (expect_passes _) fun _ later hmade => ?_
  exact complete_declares h hown (hwithin.made hmade rfl rfl) _ _

theorem subprogramBody_declares (hfiled : parser.symbols.Filed) :
    Finds budget subprogramBody parser parser.Declares := by
  have h : parser.Enters parser [] [] := .refl hfiled
  refine .position <| .bind (reserve_finds _) fun node later ⟨hsymbols, hlog⟩ => ?_
  refine .bind (subprogramSpecification_finds (h.same hsymbols hlog) node false)
    fun header later ⟨middle, bound, h, hown, hwithin⟩ => ?_
  refine .builds (expectChoice_passes _) fun _ later hmade => ?_
  replace hwithin := hwithin.made hmade rfl rfl
  refine .builds rejectSeparate_passes fun _ later hmade => ?_
  replace hwithin := hwithin.made hmade rfl rfl
  refine .builds declarativePart_builds fun declarations later hmade => ?_
  replace hwithin := hwithin.made hmade rfl rfl
  refine .builds (expect_passes _) fun _ later hmade => ?_
  replace hwithin := hwithin.made hmade rfl rfl
  refine .reachable fun hreachable => ?_
  have hdraft : Draft later later later false .empty := .refl hreachable.proper
  refine .bind (.leads (handledStatements_leads hdraft)) fun body _ hnext => ?_
  refine .bind (.leads (expect_next hnext _)) fun _ later hdraft => ?_
  replace hwithin := hwithin.made hdraft.made rfl rfl
  refine .builds (endName_passes _) fun endName later hmade => ?_
  replace hwithin := hwithin.made hmade rfl rfl
  refine .builds (expect_passes _) fun _ later hmade => ?_
  exact complete_declares h hown (hwithin.made hmade rfl rfl) _ _

theorem openBody_finds (owner : Option SymbolId) (hfiled : parser.symbols.Filed) :
    Finds budget (openBody owner) parser fun _ later => parser.Within later := by
  refine .bind (opening_finds _ _ hfiled) fun _ later hwithin => ?_
  cases owner with
  | none => exact .pure hwithin
  | some owner => exact (Finds.made (addImport_passes _ _)).mono fun _ _ _ hmade => hwithin.made hmade rfl rfl

theorem packageBody_declares (hfiled : parser.symbols.Filed) :
    Finds budget packageBody parser parser.Declares := by
  have h : parser.Enters parser [] [] := .refl hfiled
  refine .position ?_
  refine .builds (expect_passes _) fun _ later hmade => ?_
  replace h := h.silent hmade rfl rfl
  refine .builds (expectChoice_passes _) fun _ later hmade => ?_
  replace h := h.silent hmade rfl rfl
  refine .builds definingIdentifier_passes fun name later hmade => ?_
  replace h := h.silent hmade rfl rfl
  refine .builds (expect_passes _) fun _ later hmade => ?_
  replace h := h.silent hmade rfl rfl
  refine .builds rejectSeparate_passes fun _ middle hmade => ?_
  replace h := h.silent hmade rfl rfl
  refine .reads (bodyOwner_reads _) fun owner => ?_
  refine .bind (openBody_finds owner h.filed) fun _ later hwithin => ?_
  refine .builds declarativePart_builds fun declarations later hmade => ?_
  replace hwithin := hwithin.made hmade rfl rfl
  refine .reachable fun hreachable => ?_
  have hdraft : Draft later later later false .empty := .refl hreachable.proper
  refine .bind (.leads (optionalStatements_leads hdraft)) fun body _ hnext => ?_
  refine .bind (.leads (expect_next hnext _)) fun _ later hdraft => ?_
  replace hwithin := hwithin.made hdraft.made rfl rfl
  refine .builds (endName_passes _) fun endName later hmade => ?_
  replace hwithin := hwithin.made hmade rfl rfl
  refine .builds (expect_passes _) fun _ later hmade => ?_
  replace hwithin := hwithin.made hmade rfl rfl
  refine .bind (closing_finds h hwithin) fun _ later ⟨h, _⟩ => ?_
  refine (add_finds _ _).mono fun node later _ ⟨hsymbols, hlog, hpayload, _⟩ => ?_
  exact ⟨[], [], h.same hsymbols hlog, .inl ⟨rfl, hpayload ▸ rfl⟩⟩

theorem genericUnit_finds (node : NodeId) (hfiled : parser.symbols.Filed) :
    Finds budget (genericUnit node) parser fun value later =>
      ∃ bound, parser.Enters later [value.2] bound ∧ parser.Own later node value.2 := by
  refine .reads (isAt_reads _) fun isPackage => ?_
  split
  · exact packageSpecification_finds (.refl hfiled) (some node) nofun
  · refine .bind (subprogramSpecification_finds (.refl hfiled) node true)
      fun header later ⟨middle, bound, h, hown, hwithin⟩ => ?_
    refine .bind (closing_finds h hwithin) fun _ later ⟨h, hsymbols⟩ => .pure ?_
    exact ⟨bound, h, (hown.mono hwithin.grown.reverts.symbols).same hsymbols⟩

theorem genericDeclaration_declares (hfiled : parser.symbols.Filed) :
    Finds budget genericDeclaration parser parser.Declares := by
  have h : parser.Enters parser [] [] := .refl hfiled
  refine .reachable fun hstart => .position ?_
  refine .builds (expect_passes _) fun _ later hmade => ?_
  replace h := h.silent hmade rfl rfl
  refine .bind (reserve_finds _) fun node outer ⟨hsymbols, hlog⟩ => ?_
  replace h := h.same hsymbols hlog
  refine .bind (opening_finds _ _ h.filed) fun _ later hwithin => ?_
  refine .builds (Builds.items (firstOf_builds .declaration (by decide)) rfl) fun formals formal hmade => ?_
  replace hwithin := hwithin.made hmade rfl rfl
  refine .bind (genericUnit_finds node hwithin.filed) fun unit later ⟨bound, hunit, hown⟩ => ?_
  have hregion : parser.symbols.innermost.id.index ≤ formal.symbols.innermost.id.index := by
    rw [hwithin.region]
    exact Nat.le_of_lt (Nat.lt_of_lt_of_le hstart.numbered.innermost h.grown.reverts.nextRegion)
  replace hown := hown.weaken (Nat.le_trans h.grown.symbols_le hwithin.grown.symbols_le) hregion
  replace hwithin := hwithin.stays hunit.stays
  refine .builds (expect_passes _) fun _ later hmade => ?_
  replace hown := hown.mono hmade.reverts.symbols.symbols
  replace hwithin := hwithin.made hmade rfl rfl
  refine .bind (closing_finds h hwithin) fun members later ⟨h, hsymbols⟩ => ?_
  replace hown := hown.same hsymbols
  refine .bind (publish_finds h hown.fresh _) fun _ later ⟨h, hsymbols⟩ => ?_
  replace hown := hown.same hsymbols
  refine .bind (lift_finds h hfiled hown) fun _ later ⟨bound, h, hown⟩ => ?_
  refine .bind (fill_finds _ _ _) fun _ later ⟨hsymbols, hlog⟩ => .pure ?_
  exact ⟨_, _, h.same hsymbols hlog, .inr ⟨unit.2, rfl, hown.same (congrArg SymbolTable.symbols hsymbols)⟩⟩

theorem genericInstantiation_declares (hfiled : parser.symbols.Filed) :
    Finds budget genericInstantiation parser parser.Declares := by
  have h : parser.Enters parser [] [] := .refl hfiled
  refine .reachable fun hreachable => .position ?_
  refine .bind (.leads (genericKind_leads (.refl hreachable.proper))) fun kind later ⟨_, hkind, hdraft⟩ => ?_
  replace h := h.silent hdraft.made rfl rfl
  refine .builds (instanceDesignator_builds _) fun name later hmade => ?_
  replace h := h.silent hmade rfl rfl
  refine .builds (expectChoice_passes _) fun _ later hmade => ?_
  replace h := h.silent hmade rfl rfl
  refine .builds (expectChoice_passes _) fun _ later hmade => ?_
  replace h := h.silent hmade rfl rfl
  refine .builds expandedName_builds fun template later hmade => ?_
  replace h := h.silent hmade rfl rfl
  refine .builds optionalActualParameters_builds fun actuals later hmade => ?_
  replace h := h.silent hmade rfl rfl
  refine .builds (expect_passes _) fun _ later hmade => ?_
  replace h := h.silent hmade rfl rfl
  refine .bind (add_finds _ _) fun node later ⟨hsymbols, hlog, _⟩ => ?_
  replace h := h.same hsymbols hlog
  refine .bind (declare_finds h name node hkind) fun symbol later ⟨bound, h, hown⟩ => ?_
  refine .reads (packageTemplate_reads template) fun target => ?_
  refine .bind (publishAs_finds h hown.fresh target) fun _ later ⟨h, hsymbols⟩ => .pure ?_
  exact ⟨_, _, h, .inr ⟨symbol, rfl, hown.same hsymbols⟩⟩

theorem declares_ascend {later : Parser} {node : NodeId} (h : base.Enters parser [] [])
    (hdeclares : parser.deeper.Declares node later) : base.Declares node later.ascend := by
  obtain ⟨declared, bound, hunit, hcases⟩ := hdeclares
  have hparser : parser.Enters later.ascend declared bound := {
    grown := hunit.grown
    log := hunit.log
    filed := hunit.filed
    order := hunit.order
    visible := hunit.visible
    sublist := hunit.sublist
    fresh := hunit.fresh
    deep := hunit.deep
    reported := hunit.reported
    refused := hunit.refused }
  refine ⟨declared, bound, h.trans hparser, hcases.imp_right ?_⟩
  rintro ⟨id, rfl, hown⟩
  have hregion := Nat.le_of_eq (congrArg RegionId.index h.stays.innermost.1.id.symm)
  have hparser : parser.Own later.ascend node id := ⟨hown.fresh, hown.symbol⟩
  exact ⟨id, rfl, hparser.weaken h.grown.symbols_le hregion⟩

theorem libraryUnit_declares (hfiled : parser.symbols.Filed) :
    Finds budget (firstOf Rule.libraryUnits) parser parser.Declares := by
  have hrules : ∀ rule ∈ Rule.libraryUnits, rule ≠ .compilationUnit ∧ rule.role = .declaration := by decide
  refine .firstOf (fun later => parser.Enters later [] []) hrules (fun h hresumes => h.resume hresumes)
    (fun rule hrule later h budget => ?_) (.refl hfiled)
  suffices Finds budget (ofRule rule) later.deeper later.deeper.Declares from
    this.mono fun node _ _ hdeclares => declares_ascend h hdeclares
  have hlater : later.deeper.symbols.Filed := h.filed
  simp only [Rule.libraryUnits, List.mem_cons, List.not_mem_nil, or_false] at hrule
  obtain rfl | rfl | rfl | rfl | rfl | rfl := hrule
  · exact genericDeclaration_declares hlater
  · exact genericInstantiation_declares hlater
  · exact packageDeclaration_declares hlater
  · exact packageBody_declares hlater
  · exact subprogramDeclaration_declares hlater
  · exact subprogramBody_declares hlater

end Grammar

end AdaSyntax
