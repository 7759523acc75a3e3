import AdaSyntax.Grammar.Statement
import AdaSyntax.Proofs.Grammar.Declaration

namespace AdaSyntax

namespace Grammar

open Program

variable {calls : ∀ {α : Type}, Production α → Parser → Reply α × Parser}
variable {origin base parser : Parser} {moved : Bool} {yield : Yield} {node : NodeId}

theorem expect_next (h : DraftNext origin base parser yield) (kind : TokenKind) :
    Leads calls origin (expect kind) parser fun _ later =>
      Draft origin base later true yield :=
  (h.expect kind).bind fun _ _ h => .pure h

theorem exceptionChoice_builds : Builds calls exceptionChoice true .expression := by
  refine .intro fun parser h => .position ?_
  refine (accept_leads h _).bind fun isOthers later h => ?_
  cases isOthers with
  | true => exact h.add .expression rfl rfl
  | false => exact (expandedName_builds.serve .name).leads h

theorem nullStatement_builds : Builds calls nullStatement true .statement := by
  refine .intro fun parser h => .position ?_
  refine advance_passes.bind h fun _ later h => ?_
  exact (expect_passes _).bind h fun _ later h => h.add (.statement []) rfl rfl

theorem optionalExpandedName_builds : Builds calls optionalExpandedName false fun found => .expressions found.toList := by
  refine .intro fun parser h => ?_
  refine (isAt_reads _).bind fun isName => ?_
  split
  · exact (expandedName_builds.serve .name).bind h fun name later h => .pure h.forget
  · exact .pure (h.weaken .none)

theorem namesEnclosingLoop_computes (target : NodeId) :
    Computes calls (namesEnclosingLoop target) (·.namesEnclosingLoop target) := by
  intro parser
  dsimp only [Parser.namesEnclosingLoop]
  unfold namesEnclosingLoop
  rw [(classify_computes target).run_bind]
  rcases (parser.tree.payload target).classify with ⟨_ | id, kind⟩
  · rfl
  · cases kind <;> rfl

theorem checkExit_run (statement : NodeId) (target : Option NodeId) (parser : Parser) :
    (checkExit statement target).run calls parser = (.matched (), parser.checkExit statement target) := by
  unfold checkExit Parser.checkExit
  rw [(enclosingLoop_computes none).run_bind]
  split
  · cases target with
    | none => rfl
    | some target =>
      dsimp only
      rw [(namesEnclosingLoop_computes target).run_bind]
      split <;> rfl
  · rfl

theorem raiseStatement_builds : Builds calls raiseStatement true .statement := by
  refine .intro fun parser h => .position ?_
  refine advance_passes.bind h fun _ later h => ?_
  refine optionalExpandedName_builds.bind h fun exception later h => ?_
  exact (expect_passes _).bind h fun _ later h => h.add (.statement []) rfl rfl

theorem gotoStatement_builds : Builds calls gotoStatement true .statement := by
  refine .intro fun parser h => .position ?_
  refine advance_passes.bind h fun _ later h => ?_
  refine (expandedName_builds.serve .name).bind h fun target later h => ?_
  exact (expect_passes _).bind h fun _ later h => h.add (.statement []) rfl rfl

theorem labelEnd_passes (label : LabelSymbol) : Passes calls (labelEnd label) false := by
  unfold labelEnd
  split
  · exact endName_passes _
  · exact .pure

def schemePlaces : LoopScheme Nat → List Nat
  | .forLoop parameter _ _ => [parameter.place]
  | _ => []

theorem declareLoopParameter_leads {scheme : LoopScheme Nat} {labels : List SymbolId}
    (h : Draft origin base parser moved yield) (hholes : yield.holes = [⟨node, base.position, labels, none⟩])
    (hpieces : yield.pieces = Piece.many .expression scheme.children)
    (hspans : ∀ place ∈ schemePlaces scheme, parser.Spans node place) (hsilent : yield.silent = false) :
    Leads calls origin (declareLoopParameter node scheme) parser fun _ later =>
      Draft origin base later moved
        { yield with holes := [⟨node, base.position, labels, scheme.range?⟩], silent := false } := by
  cases scheme with
  | forLoop parameter reverse range =>
    refine (h.declareParameter hholes rfl hpieces (hspans _ (by simp [schemePlaces]))).bind fun _ later h => ?_
    exact .pure h
  | _ =>
    have hsame : { yield with holes := [⟨node, base.position, labels, none⟩], silent := false } = yield := by
      rw [← hholes, ← hsilent]
    exact .pure (hsame.symm ▸ h)

theorem rejectSeparate_passes : Passes calls rejectSeparate false := by
  refine .intro fun parser h => ?_
  refine (isAt_reads _).bind fun isSeparate => ?_
  split
  · exact .reject h.fails
  · exact .pure h

theorem statementLabel_leads {labels : List SymbolId}
    (h : Draft origin base parser moved { holes := [⟨node, base.position, labels, none⟩], silent := false }) :
    Leads calls origin (statementLabel node) parser fun _ later => ∃ labels,
      Draft origin base later true { holes := [⟨node, base.position, labels, none⟩], silent := false } := by
  refine advance_passes.bind h fun _ later h => ?_
  refine definingIdentifier_builds.bind h fun label later h => ?_
  refine (expect_passes _).bind h fun _ later h => ?_
  have hspans : later.Spans node label.place := h.spans (List.mem_singleton_self _) (by simp)
  exact (h.declareLabel rfl hspans rfl).bind fun _ later h => .pure ⟨_, h.weaken (.clear _)⟩

theorem statementLabels_leads {labels : List SymbolId}
    (h : Draft origin base parser moved { holes := [⟨node, base.position, labels, none⟩], silent := false }) :
    Leads calls origin (whileAt .leftLabel (statementLabel node)) parser fun _ later => ∃ labels,
      Draft origin base later false { holes := [⟨node, base.position, labels, none⟩], silent := false } := by
  refine .loop (fun _ later => ∃ labels,
    Draft origin base later false { holes := [⟨node, base.position, labels, none⟩], silent := false })
    ⟨labels, h.forget⟩ (fun _ _ ⟨_, h⟩ => h.fails) fun items later ⟨labels, h⟩ => ?_
  refine (isAt_reads _).bind fun more => ?_
  split
  · exact (statementLabel_leads h).bind fun _ later ⟨labels, h⟩ => .pure ⟨labels, h.forget⟩
  · exact .pure ⟨labels, h⟩

variable [Sound calls]

theorem statements_builds : Builds calls statements false .statements :=
  .items (rule_builds .statement (by decide)) rfl

theorem exceptionHandler_builds : Builds calls exceptionHandler true .statement := by
  refine .intro fun parser h => .position ?_
  refine advance_passes.bind h fun _ later h => ?_
  refine (separated_builds exceptionChoice_builds).bind h fun choices later h => ?_
  refine (expect_passes _).bind h fun _ later h => ?_
  exact statements_builds.bind h fun statements later h => h.add (.statement []) rfl rfl

theorem exceptionPart_builds : Builds calls exceptionPart false .statements := by
  refine .intro fun parser h => ?_
  refine (accept_passes _).bind h fun hasHandlers later h => ?_
  split
  · exact (whileAt_builds exceptionHandler_builds).leads h
  · exact .pure (h.weaken .none)

theorem handledStatements_ensures :
    Ensures calls handledStatements fun base node parser =>
      Parser.MadeNext base parser (.statement node) := by
  intro parser hproper
  have h : Draft parser parser parser false .empty := .refl hproper
  refine .position ?_
  refine statements_builds.bind h fun statements later h => ?_
  refine exceptionPart_builds.bind h fun handlers later h => ?_
  exact (h.addNext (.statement []) rfl rfl).mono fun _ _ h => h.made

theorem handledStatements_leads (h : Draft origin base parser moved yield) :
    Leads calls origin handledStatements parser fun node later =>
      DraftNext origin base later (yield ++ .statement node) :=
  (handledStatements_ensures.leads h).mono fun _ _ hnext => ⟨.prepend h.made hnext, h.reverts⟩

theorem assignment_builds : Builds calls assignment true .statement := by
  refine .intro fun parser h => .position ?_
  refine name_builds.bind h fun target later h => ?_
  refine (expectChoice_passes _).bind h fun _ later h => ?_
  refine expression_builds.bind h fun value later h => ?_
  exact (expect_passes _).bind h fun _ later h => h.add (.statement []) rfl rfl

theorem procedureCall_builds : Builds calls procedureCall true .statement := by
  refine .intro fun parser h => .position ?_
  refine name_builds.bind h fun name later h => ?_
  exact (expect_passes _).bind h fun _ later h => h.add (.statement []) rfl rfl

theorem exitStatement_builds : Builds calls exitStatement true .statement := by
  refine .intro fun parser h => .position ?_
  refine advance_passes.bind h fun _ later h => ?_
  refine optionalExpandedName_builds.bind h fun target later h => ?_
  refine (after_builds expression_builds).bind h fun condition later h => ?_
  refine (expect_passes _).bind h fun _ later h => ?_
  have hadded : Leads calls parser (add parser.position (.stmt (.exit target condition))) later fun node last =>
      Draft parser parser (last.checkExit node target) true (.statement node) := ⟨h.exit ⟨by simp, rfl, rfl, by nofun⟩ rfl rfl⟩
  refine hadded.bind fun node later h => ?_
  have hchecked : Leads calls parser (checkExit node target) later fun _ last =>
      Draft parser parser last true (.statement node) := by
    refine ⟨?_⟩
    rw [checkExit_run]
    exact h
  exact hchecked.bind fun _ later h => .pure h

theorem returnValue_builds : Builds calls returnValue false fun found => .expressions found.toList := by
  refine .intro fun parser h => ?_
  refine (isAt_reads _).bind fun isEnd => ?_
  split
  · exact .pure (h.weaken .none)
  · exact expression_builds.bind h fun value later h => .pure h.forget

theorem returnStatement_builds : Builds calls returnStatement true .statement := by
  refine .intro fun parser h => .position ?_
  refine advance_passes.bind h fun _ later h => ?_
  refine returnValue_builds.bind h fun value later h => ?_
  exact (expect_passes _).bind h fun _ later h => h.add (.statement []) rfl rfl

theorem conditional_builds : Builds calls conditional true .statement := by
  refine .intro fun parser h => .position ?_
  refine advance_passes.bind h fun _ later h => ?_
  refine expression_builds.bind h fun condition later h => ?_
  refine (expect_passes _).bind h fun _ later h => ?_
  exact statements_builds.bind h fun statements later h => h.add (.statement []) rfl rfl

theorem ifStatement_builds : Builds calls ifStatement true .statement := by
  refine .intro fun parser h => .position ?_
  refine conditional_builds.bind h fun first later h => ?_
  refine (whileAt_builds conditional_builds).bind h fun rest later h => ?_
  refine (afterList_builds statements_builds).bind h fun elseStatements later h => ?_
  exact (expectAll_passes _ _).bind h fun _ later h => h.add (.statement []) rfl rfl

theorem caseAlternative_builds : Builds calls caseAlternative true .statement := by
  refine .intro fun parser h => .position ?_
  refine advance_passes.bind h fun _ later h => ?_
  refine choiceList_builds.bind h fun choices later h => ?_
  refine (expect_passes _).bind h fun _ later h => ?_
  exact statements_builds.bind h fun statements later h => h.add (.statement []) rfl rfl

theorem caseStatement_builds : Builds calls caseStatement true .statement := by
  refine .intro fun parser h => .position ?_
  refine advance_passes.bind h fun _ later h => ?_
  refine expression_builds.bind h fun selector later h => ?_
  refine (expect_passes _).bind h fun _ later h => ?_
  refine (whileAt_builds caseAlternative_builds).bind h fun alternatives later h => ?_
  exact (expectAll_passes _ _).bind h fun _ later h => h.add (.statement []) rfl rfl

theorem loopScheme_builds :
    Builds calls loopScheme false fun scheme =>
      { Yield.expressions scheme.children with places := schemePlaces scheme } := by
  refine .intro fun parser h => ?_
  refine (Reads.query rfl).bind fun kind => ?_
  split
  · refine advance_passes.bind h fun _ later h => ?_
    exact expression_builds.bind h fun condition later h => .pure h.forget
  · refine advance_passes.bind h fun _ later h => ?_
    refine definingIdentifier_builds.bind h fun parameter later h => ?_
    refine (expect_passes _).bind h fun _ later h => ?_
    refine (accept_passes _).bind h fun isReverse later h => ?_
    exact (discreteRange_builds true).bind h fun bounds later h => .pure h.forget
  · exact .pure (h.weaken (@Yield.Weakens.none .expression))

abbrev heldFor (base : Parser) (node : NodeId) (label : LabelSymbol) : Hole :=
  ⟨node, base.position, (label.map (·.2)).toList, none⟩

theorem loopStatement_leads (label : LabelSymbol)
    (h : Draft origin base parser moved { holes := [heldFor base node label], silent := false }) :
    Leads calls origin (loopStatement base.position node label) parser fun result later =>
      Draft origin base later true (.statement result) := by
  refine loopScheme_builds.bind h fun scheme later h => ?_
  refine (h.openLoop rfl rfl).bind fun _ later h => ?_
  have hspans : ∀ place ∈ schemePlaces scheme, later.Spans node place := fun place hplace =>
    h.spans (List.mem_singleton_self _) hplace
  refine (declareLoopParameter_leads h rfl (by simp) hspans rfl).bind fun _ later h => ?_
  refine (expect_passes _).bind h fun _ later h => ?_
  refine statements_builds.bind h fun statements later h => ?_
  refine (expectAll_passes _ _).bind h fun _ later h => ?_
  refine (labelEnd_passes label).bind h fun endName later h => ?_
  refine (expect_passes _).bind h fun _ later h => ?_
  refine (h.closeRegion (List.cons_ne_nil _ _)).bind fun _ later h => ?_
  exact (h.fill (.statement []) rfl (by simp) rfl ⟨rfl, rfl⟩).bind fun _ _ h => .pure h.1

theorem blockStatement_leads (label : LabelSymbol)
    (h : Draft origin base parser moved { holes := [heldFor base node label], silent := false }) :
    Leads calls origin (blockStatement base.position node label) parser fun result later =>
      Draft origin base later true (.statement result) := by
  refine (h.openRegion _ (by nofun)).bind fun _ later h => ?_
  refine (afterList_builds declarativePart_builds).bind h fun declarations later h => ?_
  refine (expect_passes _).bind h fun _ later h => ?_
  refine (handledStatements_leads h).bind fun body later h => ?_
  refine (expect_next h _).bind fun _ later h => ?_
  refine (labelEnd_passes label).bind h fun endName later h => ?_
  refine (expect_passes _).bind h fun _ later h => ?_
  refine (h.closeRegion (by nofun)).bind fun _ later h => ?_
  exact (h.fill (.statement []) rfl (by simp) rfl ⟨rfl, rfl⟩).bind fun _ later ⟨h, _⟩ => .pure h

theorem namedCompound_builds : Builds calls namedCompound true .statement := by
  refine .intro fun parser h => .position ?_
  refine definingIdentifier_builds.bind h fun label later h => ?_
  refine advance_passes.bind h fun _ later h => ?_
  refine h.reserve.bind fun node later h => ?_
  have hspans : later.Spans node label.place := h.spans (List.mem_singleton_self _) (by simp)
  refine (h.declareLabel rfl hspans rfl).bind fun symbol later h => ?_
  have h := h.weaken (.clear _)
  refine (Reads.query rfl).bind fun kind => ?_
  split
  · exact loopStatement_leads (some (label, symbol)) h
  · exact loopStatement_leads (some (label, symbol)) h
  · exact loopStatement_leads (some (label, symbol)) h
  · exact blockStatement_leads (some (label, symbol)) h
  · exact blockStatement_leads (some (label, symbol)) h
  · exact .reject h.fails

theorem unnamedLoop_builds : Builds calls unnamedLoop true .statement := by
  refine .intro fun parser h => .position ?_
  exact h.reserve.bind fun node later h => loopStatement_leads none h

theorem unnamedBlock_builds : Builds calls unnamedBlock true .statement := by
  refine .intro fun parser h => .position ?_
  exact h.reserve.bind fun node later h => blockStatement_leads none h

theorem nameStatement_builds : Builds calls nameStatement true .statement := by
  refine .intro fun parser h => ?_
  refine (Reads.query rfl).bind fun isLabel => ?_
  split
  · exact namedCompound_builds.leads h
  · exact (firstOf_builds _ (by decide)).leads h

theorem unlabeledStatement_builds : Builds calls unlabeledStatement true .statement := by
  refine .intro fun parser h => ?_
  refine (Reads.query rfl).bind fun kind => ?_
  split
  · exact nullStatement_builds.leads h
  · exact ifStatement_builds.leads h
  · exact caseStatement_builds.leads h
  · exact unnamedLoop_builds.leads h
  · exact unnamedLoop_builds.leads h
  · exact unnamedLoop_builds.leads h
  · exact unnamedBlock_builds.leads h
  · exact unnamedBlock_builds.leads h
  · exact exitStatement_builds.leads h
  · exact returnStatement_builds.leads h
  · exact raiseStatement_builds.leads h
  · exact gotoStatement_builds.leads h
  · exact (pragma_builds.serve .declaration).leads h
  · exact nameStatement_builds.leads h

theorem labeledStatement_builds : Builds calls labeledStatement true .statement := by
  refine .intro fun parser h => .position ?_
  refine h.reserve.bind fun node later h => ?_
  refine (statementLabels_leads h).bind fun names later ⟨labels, h⟩ => ?_
  refine unlabeledStatement_builds.bind h fun statement later h => ?_
  exact (h.fill (.statement []) rfl rfl rfl ⟨rfl, rfl⟩).bind fun _ later ⟨h, _⟩ => .pure h

theorem statement_builds : Builds calls statement true .statement := by
  refine .nested <| .intro fun parser h => ?_
  refine (isAt_reads _).bind fun isLabeled => ?_
  split
  · exact labeledStatement_builds.leads h
  · exact unlabeledStatement_builds.leads h

theorem subprogramBody_builds : Builds calls subprogramBody true .declaration := by
  refine .intro fun parser h => .position ?_
  refine h.reserve.bind fun node later h => ?_
  refine (subprogramSpecification_leads h (List.mem_singleton_self _) false).bind
    fun header later ⟨h, _⟩ => ?_
  refine (expectChoice_passes _).bind h fun _ later h => ?_
  refine rejectSeparate_passes.bind h fun _ later h => ?_
  refine declarativePart_builds.bind h fun declarations later h => ?_
  refine (expect_passes _).bind h fun _ later h => ?_
  refine (handledStatements_leads h).bind fun body later h => ?_
  refine (expect_next h _).bind fun _ later h => ?_
  refine (endName_passes _).bind h fun endName later h => ?_
  refine (expect_passes _).bind h fun _ later h => ?_
  refine (h.closeRegion (by nofun)).bind fun _ later h => ?_
  exact (h.fill .declaration rfl (by simp) rfl ⟨rfl, rfl⟩).bind fun _ later ⟨h, _⟩ => .pure h

end Grammar

end AdaSyntax
