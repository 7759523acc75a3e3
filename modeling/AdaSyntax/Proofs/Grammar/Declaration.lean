import AdaSyntax.Grammar.Declaration
import AdaSyntax.Proofs.Grammar.Subtype

namespace AdaSyntax

namespace Grammar

open Program

variable {calls : ∀ {α : Type}, Production α → Parser → Reply α × Parser}
variable {origin base parser : Parser} {moved : Bool} {yield : Yield} {node : NodeId}

theorem mode_passes : Passes calls mode false := by
  refine .intro fun parser h => ?_
  refine (accept_passes _).bind h fun isIn later h => ?_
  split
  · refine (accept_passes _).bind h fun isInOut later h => ?_
    split <;> exact .pure h
  · refine (accept_passes _).bind h fun isOut later h => ?_
    split <;> exact .pure h

theorem subprogramKind_passes : Passes calls subprogramKind true := by
  refine .intro fun parser h => ?_
  refine (Reads.query rfl).bind fun kind => ?_
  split
  · exact advance_passes.bind h fun _ later h => .pure h
  · exact advance_passes.bind h fun _ later h => .pure h
  · exact .reject h.fails

theorem subprogramDesignator_builds (kind : SubprogramKind) :
    Builds calls (subprogramDesignator kind) true fun name => .names [name] := by
  cases kind with
  | procedure => exact definingIdentifier_builds
  | function => exact functionDesignator_builds

theorem resultMark_builds (kind : SubprogramKind) :
    Builds calls (resultMark kind) false fun found => .many .mark found.toList := by
  cases kind with
  | procedure => exact .pure .none
  | function =>
    refine .intro fun parser h => ?_
    refine (expect_passes _).bind h fun _ later h => ?_
    exact typeMark_builds.bind h fun mark later h => .pure h.forget

theorem importFormals_passes (kind : SymbolKind) (earlier : Resolution) :
    Passes calls (importFormals kind earlier) false := by
  unfold importFormals
  split
  · split
    · exact addImport_passes _ _
    · exact .pure
  · exact .pure

theorem exceptionDeclaration_builds : Builds calls exceptionDeclaration true .declaration := by
  refine .intro fun parser h => .position ?_
  refine identifierList_builds.bind h fun names later h => ?_
  refine (expectAll_passes _ _).bind h fun _ later h => ?_
  refine (h.define .declaration rfl rfl).bind fun node later ⟨h, hspans⟩ => ?_
  exact (declareAll_leads h hspans (by simp) rfl rfl).bind fun _ later h => .pure h

theorem objectRenamingKind_ensures :
    Ensures calls objectRenamingKind fun base value parser =>
      value.2.isHeld = false ∧ Parser.Made base parser true { pieces := value.1.pieces } := by
  intro parser hproper
  refine (accept_leads (.refl hproper) _).bind fun isException later h => ?_
  cases isException with
  | true => exact .pure ⟨rfl, h.made⟩
  | false => exact typeMark_builds.bind h fun mark later h => .pure ⟨rfl, h.made⟩

theorem publishAs_leads (h : Draft origin base parser moved yield) {synonym : SymbolId}
    (hsynonym : base.symbols.symbols.size ≤ synonym.index) (target : Option SymbolId) :
    Leads calls origin (publishAs synonym target) parser fun _ later =>
      Draft origin base later moved yield := by
  cases target with
  | some target => exact h.publishAlias hsynonym target
  | none => exact .pure h

theorem separateTail_passes : Passes calls separateTail true := by
  refine .intro fun parser h => ?_
  refine (expect_passes _).bind h fun _ later h => ?_
  refine (expectChoice_passes _).bind h fun _ later h => ?_
  exact (expect_passes _).leads h

theorem packageStub_builds : Builds calls packageStub true .declaration := by
  refine .intro fun parser h => .position ?_
  refine advance_passes.bind h fun _ later h => ?_
  refine (expect_passes _).bind h fun _ later h => ?_
  refine definingIdentifier_passes.bind h fun name later h => ?_
  exact separateTail_passes.bind h fun _ later h => h.add .declaration rfl rfl

theorem usePackage_run (package : NodeId) (parser : Parser) :
    (usePackage package).run calls parser = (.matched (), parser.usePackage package) := by
  unfold usePackage
  rw [(classify_computes package).run_bind]
  unfold Parser.usePackage
  rcases (parser.tree.payload package).classify with ⟨_ | id, kind⟩
  · rfl
  · cases kind <;> rfl

theorem usePackages_run (packages : List NodeId) (parser : Parser) :
    (usePackages packages).run calls parser = (.matched (), parser.usePackages packages) := by
  induction packages generalizing parser with
  | nil => rfl
  | cons package packages ih =>
    rw [usePackages, run_bind, usePackage_run]
    exact ih (parser.usePackage package)

variable [Sound calls]

theorem parameterSpecification_builds :
    Builds calls parameterSpecification true .declaration := by
  refine .intro fun parser h => .position ?_
  refine identifierList_builds.bind h fun names later h => ?_
  refine (expect_passes _).bind h fun _ later h => ?_
  refine mode_passes.bind h fun mode later h => ?_
  refine typeMark_builds.bind h fun mark later h => ?_
  refine initialValue_builds.bind h fun initial later h => ?_
  refine (h.define .declaration rfl rfl).bind fun node later ⟨h, hspans⟩ => ?_
  exact (declareAll_leads h hspans (by simp) rfl rfl).bind fun _ later h => .pure h

theorem formalPart_builds : Builds calls formalPart false .declarations := by
  refine .intro fun parser h => ?_
  refine (isAt_reads _).bind fun isOpen => ?_
  split
  · exact (Builds.forget (parenthesized_builds (separated_builds parameterSpecification_builds))).leads h
  · exact .pure (h.weaken .none)

theorem subprogramSymbolKind_isHeld (isGeneric : Bool) (kind : SubprogramKind) :
    (subprogramSymbolKind isGeneric kind).isHeld = false := by
  cases isGeneric <;> cases kind <;> rfl

structure Heads (base : Parser) (header : Header) (parser : Parser) : Prop where
  made : Parser.Made base parser true ((Yield.declaration header.spec).opening .body)
  symbol_le : base.symbols.symbols.size ≤ header.symbol.index

theorem subprogramSpecification_heads {start : Nat} (hproper : parser.symbols.Proper)
    (hawaits : parser.Awaits node start) (isGeneric : Bool) :
    Leads calls parser (subprogramSpecification node isGeneric) parser (Heads parser) := by
  have h : Draft parser parser parser false .empty := .refl hproper
  refine .position ?_
  refine subprogramKind_passes.bind h fun kind later h => ?_
  refine (subprogramDesignator_builds kind).bind h fun name later h => ?_
  refine (Reads.query rfl).bind fun earlier => ?_
  have hspans : later.Spans node name.place := h.made.spans_of_awaits hawaits (by simp)
  refine (h.declare hspans none (subprogramSymbolKind_isHeld _ _)).bind
    fun symbol later ⟨h, hsymbol, _⟩ => ?_
  refine (h.openRegion _ (by nofun)).bind fun _ later h => ?_
  refine (importFormals_passes _ _).bind h fun _ later h => ?_
  refine formalPart_builds.bind h fun parameters later h => ?_
  refine (resultMark_builds kind).bind h fun result later h => ?_
  exact (h.add .declaration (by simp) rfl).bind fun spec later h => .pure ⟨h.made.weaken (.clear _), hsymbol⟩

theorem subprogramSpecification_leads {hole : Hole} (h : Draft origin base parser moved yield)
    (hhole : hole ∈ yield.holes) (isGeneric : Bool) :
    Leads calls origin (subprogramSpecification hole.node isGeneric) parser fun header later =>
      Draft origin base later true (yield ++ (Yield.declaration header.spec).opening .body) ∧
        base.symbols.symbols.size ≤ header.symbol.index := by
  have hheads : Leads calls parser (subprogramSpecification hole.node isGeneric) parser _ :=
    subprogramSpecification_heads h.made.properLater (h.made.awaits hhole) isGeneric
  exact ⟨hheads.outcome.mono (fun _ hfails => hfails.trans h.fails) fun _ _ ⟨hmade, hsymbol⟩ =>
    ⟨h.trans hmade, Nat.le_trans h.made.symbols_le hsymbol⟩⟩

theorem subprogramDeclaration_builds : Builds calls subprogramDeclaration true .declaration := by
  refine .intro fun parser h => .position ?_
  refine h.reserve.bind fun node later h => ?_
  refine (subprogramSpecification_leads h (List.mem_singleton_self _) false).bind
    fun header later ⟨h, _⟩ => ?_
  refine (expect_passes _).bind h fun _ later h => ?_
  refine (h.closeRegion (by nofun)).bind fun _ later h => ?_
  exact (h.fill .declaration rfl rfl rfl ⟨rfl, rfl⟩).bind fun _ later ⟨h, _⟩ => .pure h

theorem declarativeItems_builds (context : Context) :
    Builds calls (declarativeItems context) false .declarations :=
  .items (firstOf_builds _ (by decide)) rfl

theorem declarativePart_builds : Builds calls declarativePart false .declarations :=
  declarativeItems_builds _

theorem objectSubtype_builds (isConstant : Bool) :
    Builds calls (objectSubtype isConstant) true .expression := by
  refine .intro fun parser h => ?_
  refine (isAt_reads _).bind fun isNumber => ?_
  split
  · exact .reject h.fails
  · refine (isAt_reads _).bind fun isArray => ?_
    split
    · exact constrainedArray_builds.leads h
    · exact (subtypeIndication_builds.serve .indication).leads h

theorem objectKind_isHeld (isConstant : Bool) (initial : Option NodeId) :
    (objectKind isConstant initial).isHeld = false := by
  cases isConstant <;> cases initial <;> rfl

theorem objectDeclaration_builds : Builds calls objectDeclaration true .declaration := by
  refine .intro fun parser h => .position ?_
  refine identifierList_builds.bind h fun names later h => ?_
  refine (expect_passes _).bind h fun _ later h => ?_
  refine (accept_passes _).bind h fun isConstant later h => ?_
  refine (objectSubtype_builds isConstant).bind h fun indication later h => ?_
  refine initialValue_builds.bind h fun initial later h => ?_
  refine (expect_passes _).bind h fun _ later h => ?_
  refine (h.define .declaration rfl rfl).bind fun node later ⟨h, hspans⟩ => ?_
  exact (declareAll_leads h hspans (by simp) (objectKind_isHeld _ _) rfl).bind fun _ later h => .pure h

theorem numberDeclaration_builds : Builds calls numberDeclaration true .declaration := by
  refine .intro fun parser h => .position ?_
  refine identifierList_builds.bind h fun names later h => ?_
  refine (expectAll_passes _ _).bind h fun _ later h => ?_
  refine expression_builds.bind h fun value later h => ?_
  refine (expect_passes _).bind h fun _ later h => ?_
  refine (h.define .declaration rfl rfl).bind fun node later ⟨h, hspans⟩ => ?_
  exact (declareAll_leads h hspans (by simp) rfl rfl).bind fun _ later h => .pure h

theorem subtypeDeclaration_builds : Builds calls subtypeDeclaration true .declaration := by
  refine .intro fun parser h => .position ?_
  refine (expect_passes _).bind h fun _ later h => ?_
  refine definingIdentifier_builds.bind h fun name later h => ?_
  refine (expect_passes _).bind h fun _ later h => ?_
  refine (subtypeIndication_builds.serve .indication).bind h fun indication later h => ?_
  refine (expect_passes _).bind h fun _ later h => ?_
  refine (indicationShape_reads indication).bind fun shape => ?_
  refine (h.define .declaration rfl rfl).bind fun node later ⟨h, hspans⟩ => ?_
  exact (h.declare (hspans _ (by simp)) _ rfl).bind fun _ later ⟨h, _, _⟩ => .pure h

theorem renamedEntity_builds : Builds calls renamedEntity true .expression := by
  refine .intro fun parser h => ?_
  refine (expectChoice_passes _).bind h fun _ later h => ?_
  refine name_builds.bind h fun renamed later h => ?_
  exact (expect_passes _).bind h fun _ later h => .pure h

theorem objectRenaming_builds : Builds calls objectRenaming true .declaration := by
  refine .intro fun parser h => .position ?_
  refine definingIdentifier_builds.bind h fun name later h => ?_
  refine (expect_passes _).bind h fun _ later h => ?_
  refine (objectRenamingKind_ensures.leads h).bind fun kind later ⟨hkind, hmade⟩ => ?_
  refine renamedEntity_builds.bind (h.trans hmade) fun renamed later h => ?_
  refine (h.define .declaration rfl rfl).bind fun node later ⟨h, hspans⟩ => ?_
  exact (h.declare (hspans _ (by simp)) _ hkind).bind fun _ later ⟨h, _, _⟩ => .pure h

theorem packageRenaming_builds : Builds calls packageRenaming true .declaration := by
  refine .intro fun parser h => .position ?_
  refine advance_passes.bind h fun _ later h => ?_
  refine definingIdentifier_builds.bind h fun name later h => ?_
  refine renamedEntity_builds.bind h fun renamed later h => ?_
  refine (h.define .declaration rfl rfl).bind fun node later ⟨h, hspans⟩ => ?_
  refine (h.declare (hspans _ (by simp)) _ rfl).bind fun synonym later ⟨h, hsynonym, _⟩ => ?_
  refine (classify_reads renamed).bind fun named => ?_
  exact (publishAs_leads h hsynonym _).bind fun _ later h => .pure h

theorem subprogramRenaming_builds : Builds calls subprogramRenaming true .declaration := by
  refine .intro fun parser h => .position ?_
  refine h.reserve.bind fun node later h => ?_
  refine (subprogramSpecification_leads h (List.mem_singleton_self _) false).bind
    fun header later ⟨h, _⟩ => ?_
  refine renamedEntity_builds.bind h fun renamed later h => ?_
  refine (h.closeRegion (by nofun)).bind fun _ later h => ?_
  exact (h.fill .declaration rfl rfl rfl ⟨rfl, rfl⟩).bind fun _ later ⟨h, _⟩ => .pure h

theorem renamingDeclaration_builds : Builds calls renamingDeclaration true .declaration := by
  refine .intro fun parser h => ?_
  refine (Reads.query rfl).bind fun kind => ?_
  split
  · exact objectRenaming_builds.leads h
  · exact packageRenaming_builds.leads h
  · exact subprogramRenaming_builds.leads h
  · exact subprogramRenaming_builds.leads h
  · exact .reject h.fails

theorem subprogramStub_builds : Builds calls subprogramStub true .declaration := by
  refine .intro fun parser h => .position ?_
  refine h.reserve.bind fun node later h => ?_
  refine (subprogramSpecification_leads h (List.mem_singleton_self _) false).bind
    fun header later ⟨h, _⟩ => ?_
  refine separateTail_passes.bind h fun _ later h => ?_
  refine (h.closeRegion (by nofun)).bind fun _ later h => ?_
  exact (h.fill .declaration rfl rfl rfl ⟨rfl, rfl⟩).bind fun _ later ⟨h, _⟩ => .pure h

theorem bodyStub_builds : Builds calls bodyStub true .declaration := by
  refine .intro fun parser h => ?_
  refine (Reads.query rfl).bind fun kind => ?_
  split
  · exact packageStub_builds.leads h
  · exact subprogramStub_builds.leads h
  · exact subprogramStub_builds.leads h
  · exact .reject h.fails

theorem useClause_builds : Builds calls useClause true .declaration := by
  refine .intro fun parser h => .position ?_
  refine (expect_passes _).bind h fun _ later h => ?_
  refine (separated_builds name_builds).bind h fun packages later h => ?_
  refine (expect_passes _).bind h fun _ later h => ?_
  have hused : Leads calls parser (usePackages packages) later fun _ last =>
      Draft parser parser last true (.many .package packages) := by
    refine ⟨?_⟩
    rw [usePackages_run]
    exact ⟨h.made.usePackages, h.reverts⟩
  exact hused.bind fun _ later h => h.add .declaration rfl rfl

theorem pragma_builds : Builds calls pragma true .declaration := by
  refine .intro fun parser h => .position ?_
  refine (expect_passes _).bind h fun _ later h => ?_
  refine definingIdentifier_passes.bind h fun name later h => ?_
  refine optionalActualParameters_builds.bind h fun arguments later h => ?_
  exact (expect_passes _).bind h fun _ later h => h.add .declaration rfl rfl

end Grammar

end AdaSyntax
