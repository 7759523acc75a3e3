import AdaSyntax.Proofs.Discipline.Declaration

namespace AdaSyntax

namespace Grammar

open Program

variable {know : Knowledge} {stage : Stage} {node : NodeId} {start : Nat}

theorem exceptionChoice_supplies : exceptionChoice.Supplies 0 true Knowledge.shallow := by
  intro know stage _
  refine position_supplies.bind rfl fun start _ => ?_
  refine (accept_gives _).bind fun isOthers _ => ?_
  cases isOthers with
  | true => exact add_shallow rfl each_nil
  | false => exact expandedName_supplies.gives rfl

theorem exceptionHandler_supplies : exceptionHandler.Supplies 0 true Knowledge.shallow := by
  intro know stage _
  refine position_supplies.bind rfl fun start _ => ?_
  refine advance_supplies.bind rfl fun _ _ => ?_
  refine (separated_supplies exceptionChoice_supplies).bind rfl fun choices hchoices => ?_
  refine (expect_supplies _).bind rfl fun _ _ => ?_
  refine statements_supplies.bind rfl fun statements hstatements => ?_
  exact add_shallow rfl (each_append hchoices hstatements)

theorem exceptionPart_supplies :
    exceptionPart.Supplies 0 false fun know nodes => ∀ node ∈ nodes, know.shallow node := by
  intro know stage _
  refine (accept_supplies _).bind rfl fun isException _ => ?_
  cases isException with
  | true => exact (whileAt_supplies exceptionHandler_supplies).gives rfl
  | false => exact .pure (.refl _) each_nil

theorem handledStatements_supplies : handledStatements.Supplies 2 false Knowledge.shallow := by
  intro know stage hrank
  refine position_supplies.bind rfl fun start _ => ?_
  refine statements_supplies.bind hrank fun statements hstatements => ?_
  refine exceptionPart_supplies.bind rfl fun handlers hhandlers => ?_
  exact add_shallow rfl (each_append hstatements hhandlers)

theorem nullStatement_supplies : nullStatement.Supplies 0 true Knowledge.whole := by
  intro know stage _
  refine position_supplies.bind rfl fun start _ => ?_
  refine advance_supplies.bind rfl fun _ _ => ?_
  exact (expect_supplies _).bind rfl fun _ _ => add_whole rfl each_nil

theorem assignment_supplies : assignment.Supplies 0 true Knowledge.whole := by
  intro know stage _
  refine position_supplies.bind rfl fun start _ => ?_
  refine name_supplies.bind rfl fun target htarget => ?_
  refine (expectChoice_supplies _).bind rfl fun _ _ => ?_
  refine expression_supplies.bind rfl fun value hvalue => ?_
  refine (expect_supplies _).bind rfl fun _ _ => ?_
  exact add_whole rfl (each_two (know.whole_of_shallow htarget) (know.whole_of_shallow hvalue))

theorem procedureCall_supplies : procedureCall.Supplies 0 true Knowledge.whole := by
  intro know stage _
  refine position_supplies.bind rfl fun start _ => ?_
  refine name_supplies.bind rfl fun name hname => ?_
  exact (expect_supplies _).bind rfl fun _ _ => add_whole rfl (each_one (know.whole_of_shallow hname))

theorem optionalExpandedName_supplies :
    optionalExpandedName.Supplies 0 false fun know found => ∀ node ∈ found, know.whole node := by
  intro know stage _
  refine (isAt_supplies _).bind rfl fun isName _ => ?_
  cases isName with
  | false => exact .pure (.refl _) nofun
  | true =>
    exact expandedName_supplies.forget.bind rfl fun name hname =>
      .pure (.refl _) fun _ heq => Option.mem_some.mp heq ▸ know.whole_of_shallow hname

theorem enclosingLoop_gives {label : Option SymbolId} (h : ∀ id ∈ label, know.symbol id) :
    (Program.step (.enclosingLoop label)).Gives know stage (fun _ => stage) fun _ => True :=
  .step h (fun _ => rfl) fun _ _ => trivial

theorem namesEnclosingLoop_gives (h : know.made node) :
    (namesEnclosingLoop node).Gives know stage (fun _ => stage) fun _ => True := by
  refine (classify_gives h).bind fun named hnamed => ?_
  split
  · exact enclosingLoop_gives hnamed
  · exact .pure (.refl _) trivial

theorem checkExit_gives {target : Option NodeId} (h : know.made node) (htarget : ∀ id ∈ target, know.made id) :
    (checkExit node target).Gives know stage (fun _ => stage) fun _ => True := by
  refine (enclosingLoop_gives (by exact nofun)).bind fun inLoop _ => ?_
  cases inLoop with
  | false => exact find_gives (each_one h)
  | true =>
    cases target with
    | none => exact .pure (.refl _) trivial
    | some target =>
      refine (namesEnclosingLoop_gives (htarget target rfl)).bind fun encloses _ => ?_
      cases encloses with
      | true => exact .pure (.refl _) trivial
      | false => exact find_gives (each_one (htarget target rfl))

theorem exitStatement_supplies : exitStatement.Supplies 0 true Knowledge.whole := by
  intro know stage _
  refine position_supplies.bind rfl fun start _ => ?_
  refine advance_supplies.bind rfl fun _ _ => ?_
  refine optionalExpandedName_supplies.bind rfl fun target htarget => ?_
  refine (after_supplies expression_supplies.whole fun _ => rfl).bind rfl fun condition hcondition => ?_
  refine (expect_supplies _).bind rfl fun _ _ => ?_
  refine (add_whole rfl (by exact each_append (each_toList htarget) (each_toList hcondition))).bind fun node hnode => ?_
  exact (checkExit_gives (know.made_of_whole hnode) fun id hid => know.made_of_whole (htarget id hid)).bind
    fun _ _ => .pure (.refl _) hnode

theorem returnValue_supplies : returnValue.Supplies 2 false fun know found => ∀ node ∈ found, know.whole node := by
  intro know stage hrank
  refine (isAt_supplies _).bind rfl fun isEmpty _ => ?_
  cases isEmpty with
  | true => exact .pure (.refl _) nofun
  | false =>
    exact expression_supplies.forget.bind hrank fun value hvalue =>
      .pure (.refl _) fun _ heq => Option.mem_some.mp heq ▸ know.whole_of_shallow hvalue

theorem returnStatement_supplies : returnStatement.Supplies 0 true Knowledge.whole := by
  intro know stage _
  refine position_supplies.bind rfl fun start _ => ?_
  refine advance_supplies.bind rfl fun _ _ => ?_
  refine returnValue_supplies.bind rfl fun value hvalue => ?_
  exact (expect_supplies _).bind rfl fun _ _ => add_whole rfl (each_toList hvalue)

theorem raiseStatement_supplies : raiseStatement.Supplies 0 true Knowledge.whole := by
  intro know stage _
  refine position_supplies.bind rfl fun start _ => ?_
  refine advance_supplies.bind rfl fun _ _ => ?_
  refine optionalExpandedName_supplies.bind rfl fun exception hexception => ?_
  exact (expect_supplies _).bind rfl fun _ _ => add_whole rfl (each_toList hexception)

theorem gotoStatement_supplies : gotoStatement.Supplies 0 true Knowledge.whole := by
  intro know stage _
  refine position_supplies.bind rfl fun start _ => ?_
  refine advance_supplies.bind rfl fun _ _ => ?_
  refine expandedName_supplies.bind rfl fun target htarget => ?_
  exact (expect_supplies _).bind rfl fun _ _ => add_whole rfl (each_one (know.whole_of_shallow htarget))

theorem conditional_supplies : conditional.Supplies 0 true Knowledge.shallow := by
  intro know stage _
  refine position_supplies.bind rfl fun start _ => ?_
  refine advance_supplies.bind rfl fun _ _ => ?_
  refine expression_supplies.bind rfl fun condition hcondition => ?_
  refine (expect_supplies _).bind rfl fun _ _ => ?_
  refine statements_supplies.bind rfl fun statements hstatements => ?_
  exact add_shallow rfl (each_cons hcondition hstatements)

theorem ifStatement_supplies : ifStatement.Supplies 0 true Knowledge.whole := by
  intro know stage _
  refine position_supplies.bind rfl fun start _ => ?_
  refine conditional_supplies.bind rfl fun first hfirst => ?_
  refine (whileAt_supplies conditional_supplies).bind rfl fun rest hrest => ?_
  refine (after_supplies statements_supplies fun _ => rfl).bind rfl fun otherwise hotherwise => ?_
  refine (expectAll_supplies _ _).bind rfl fun _ _ => ?_
  exact add_compound rfl (each_append (each_cons hfirst hrest) (each_getD hotherwise))

theorem caseAlternative_supplies : caseAlternative.Supplies 0 true Knowledge.shallow := by
  intro know stage _
  refine position_supplies.bind rfl fun start _ => ?_
  refine advance_supplies.bind rfl fun _ _ => ?_
  refine choiceList_supplies.bind rfl fun choices hchoices => ?_
  refine (expect_supplies _).bind rfl fun _ _ => ?_
  refine statements_supplies.bind rfl fun statements hstatements => ?_
  exact add_shallow rfl (each_append hchoices hstatements)

theorem caseStatement_supplies : caseStatement.Supplies 0 true Knowledge.whole := by
  intro know stage _
  refine position_supplies.bind rfl fun start _ => ?_
  refine advance_supplies.bind rfl fun _ _ => ?_
  refine expression_supplies.bind rfl fun selector hselector => ?_
  refine (expect_supplies _).bind rfl fun _ _ => ?_
  refine (whileAt_supplies caseAlternative_supplies).bind rfl fun alternatives halternatives => ?_
  refine (expectAll_supplies _ _).bind rfl fun _ _ => ?_
  exact add_compound rfl (each_cons hselector halternatives)

theorem labelEnd_supplies (label : LabelSymbol) : (labelEnd label).Supplies 0 false fun _ _ => True := by
  cases label with
  | none => exact fun _ _ _ => .pure (.refl _) trivial
  | some label => exact endName_supplies _

theorem loopScheme_supplies :
    loopScheme.Supplies 0 false fun know scheme => ∀ node ∈ scheme.children, know.shallow node := by
  intro know stage _
  refine kind_supplies.bind rfl fun kind _ => ?_
  split
  · refine advance_supplies.bind rfl fun _ _ => ?_
    exact expression_supplies.bind rfl fun condition hcondition => .pure stage.advance_reaches (each_one hcondition)
  · refine advance_supplies.bind rfl fun _ _ => ?_
    refine definingIdentifier_supplies.bind rfl fun parameter _ => ?_
    refine (expect_supplies _).bind rfl fun _ _ => ?_
    refine (accept_supplies _).bind rfl fun reverse _ => ?_
    exact (discreteRange_supplies true).bind rfl fun range hrange => .pure stage.advance_reaches (each_one hrange)
  · exact .pure (.refl _) each_nil

theorem declareLoopParameter_gives (h : know.made node) (scheme : LoopScheme Nat) :
    (declareLoopParameter node scheme).Gives know stage (fun _ => stage) fun _ => True := by
  cases scheme with
  | forLoop parameter reverse range => exact declareAll_gives h
  | _ => exact .pure (.refl _) trivial

theorem label_symbol {label : LabelSymbol} (h : ∀ found ∈ label, know.symbol found.2) :
    ∀ id ∈ label.map (·.2), know.symbol id := by
  intro id hid
  obtain ⟨found, hfound, rfl⟩ := Option.map_eq_some_iff.mp hid
  exact h found hfound

theorem loopStatement_gives {label : LabelSymbol} (hmade : know.made node)
    (hlabel : ∀ found ∈ label, know.symbol found.2) :
    (loopStatement start node label).Gives know (stage.reserving node) (fun _ => stage.advance) know.whole := by
  refine loopScheme_supplies.bind rfl fun scheme hscheme => ?_
  refine (openRegion_gives (label_symbol hlabel)).bind fun _ _ => ?_
  refine (declareLoopParameter_gives hmade scheme).bind fun _ _ => ?_
  refine (expect_supplies _).bind rfl fun _ _ => ?_
  refine statements_supplies.bind rfl fun statements hstatements => ?_
  refine (expectAll_supplies _ _).bind rfl fun _ _ => ?_
  refine (labelEnd_supplies label).bind rfl fun endName _ => ?_
  refine (expect_supplies _).bind rfl fun _ _ => ?_
  refine closeRegion_supplies.bind rfl fun _ _ => ?_
  exact (fill_compound rfl rfl (by exact each_append hscheme hstatements)).bind fun _ hnode => .pure (.refl _) hnode

theorem blockStatement_gives {label : LabelSymbol} (hlabel : ∀ found ∈ label, know.symbol found.2) :
    (blockStatement start node label).Gives know (stage.reserving node) (fun _ => stage.advance) know.whole := by
  refine (openRegion_gives (label_symbol hlabel)).bind fun _ _ => ?_
  refine (after_supplies declarativePart_supplies fun _ => rfl).bind rfl fun declarations hdeclarations => ?_
  refine (expect_supplies _).bind rfl fun _ _ => ?_
  refine handledStatements_supplies.bind rfl fun body hbody => ?_
  refine (expect_supplies _).bind rfl fun _ _ => ?_
  refine (labelEnd_supplies label).bind rfl fun endName _ => ?_
  refine (expect_supplies _).bind rfl fun _ _ => ?_
  refine closeRegion_supplies.bind rfl fun _ _ => ?_
  exact (fill_compound rfl rfl (by exact each_append (each_getD hdeclarations) (each_one hbody))).bind
    fun _ hnode => .pure (.refl _) hnode

theorem namedCompound_supplies : namedCompound.Supplies 0 true Knowledge.whole := by
  intro know stage _
  refine position_supplies.bind rfl fun start _ => ?_
  refine definingIdentifier_supplies.bind rfl fun label _ => ?_
  refine advance_supplies.bind rfl fun _ _ => ?_
  refine reserve_gives.bind fun node hmade => ?_
  refine (declare_gives hmade).bind fun symbol hsymbol => ?_
  refine kind_supplies.bind rfl fun kind _ => ?_
  have hlabel : ∀ found ∈ (some (label, symbol) : LabelSymbol), know.symbol found.2 :=
    fun found hfound => Option.mem_some.mp hfound ▸ hsymbol
  split
  · exact loopStatement_gives hmade hlabel
  · exact loopStatement_gives hmade hlabel
  · exact loopStatement_gives hmade hlabel
  · exact blockStatement_gives hlabel
  · exact blockStatement_gives hlabel
  · exact .reject

theorem unnamedLoop_supplies : unnamedLoop.Supplies 0 true Knowledge.whole := by
  intro know stage _
  refine position_supplies.bind rfl fun start _ => ?_
  exact reserve_gives.bind fun node hmade => loopStatement_gives hmade nofun

theorem unnamedBlock_supplies : unnamedBlock.Supplies 0 true Knowledge.whole := by
  intro know stage _
  refine position_supplies.bind rfl fun start _ => ?_
  exact reserve_gives.bind fun node _ => blockStatement_gives nofun

theorem nameStatement_supplies : nameStatement.Supplies 1 true Knowledge.whole := by
  intro know stage hrank
  refine (followedBy_supplies _ _).bind rfl fun isNamed _ => ?_
  cases isNamed with
  | true => exact namedCompound_supplies.gives rfl
  | false => exact (firstOf_supplies (by decide)).whole.gives hrank

theorem unlabeledStatement_supplies : unlabeledStatement.Supplies 1 true Knowledge.whole := by
  intro know stage hrank
  refine kind_supplies.bind rfl fun kind _ => ?_
  split
  · exact nullStatement_supplies.gives rfl
  · exact ifStatement_supplies.gives rfl
  · exact caseStatement_supplies.gives rfl
  · exact unnamedLoop_supplies.gives rfl
  · exact unnamedLoop_supplies.gives rfl
  · exact unnamedLoop_supplies.gives rfl
  · exact unnamedBlock_supplies.gives rfl
  · exact unnamedBlock_supplies.gives rfl
  · exact exitStatement_supplies.gives rfl
  · exact returnStatement_supplies.gives rfl
  · exact raiseStatement_supplies.gives rfl
  · exact gotoStatement_supplies.gives rfl
  · exact pragma_supplies.gives rfl
  · exact nameStatement_supplies.gives hrank

theorem statementLabel_gives (h : know.made node) :
    (statementLabel node).Gives know stage (fun _ => stage.advance) fun _ => True := by
  refine advance_supplies.bind rfl fun _ _ => ?_
  refine definingIdentifier_supplies.bind rfl fun label _ => ?_
  refine (expect_supplies _).bind rfl fun _ _ => ?_
  exact (declare_gives h).bind fun _ _ => .pure (.refl _) trivial

theorem labeledStatement_supplies : labeledStatement.Supplies 1 true Knowledge.whole := by
  intro know stage hrank
  refine position_supplies.bind rfl fun start _ => ?_
  refine reserve_gives.bind fun node hmade => ?_
  refine (whileAt_gives fun _ => statementLabel_gives hmade).bind fun labels _ => ?_
  refine unlabeledStatement_supplies.bind hrank fun statement hstatement => ?_
  exact (fill_whole rfl rfl (by exact each_one hstatement)).bind fun _ hnode => .pure (.refl _) hnode

theorem statement_supplies : statement.Supplies 1 true Knowledge.shallow := by
  refine nested_supplies fun know stage hrank => ?_
  refine (isAt_supplies _).bind rfl fun isLabeled _ => ?_
  cases isLabeled with
  | true => exact labeledStatement_supplies.gives hrank
  | false => exact unlabeledStatement_supplies.gives hrank

theorem rejectSeparate_supplies : rejectSeparate.Supplies 0 false fun _ _ => True := by
  intro know stage _
  refine (isAt_supplies _).bind rfl fun isSeparate _ => ?_
  cases isSeparate with
  | true => exact .reject
  | false => exact .pure (.refl _) trivial

theorem subprogramBody_supplies : subprogramBody.Supplies 0 true Knowledge.whole := by
  intro know stage _
  refine position_supplies.bind rfl fun start _ => ?_
  refine reserve_gives.bind fun node hmade => ?_
  refine (subprogramSpecification_gives hmade false).bind fun header hheader => ?_
  refine (expectChoice_supplies _).bind rfl fun _ _ => ?_
  refine rejectSeparate_supplies.bind rfl fun _ _ => ?_
  refine declarativePart_supplies.bind rfl fun declarations hdeclarations => ?_
  refine (expect_supplies _).bind rfl fun _ _ => ?_
  refine handledStatements_supplies.bind rfl fun body hbody => ?_
  refine (expect_supplies _).bind rfl fun _ _ => ?_
  refine (endName_supplies _).bind rfl fun endName _ => ?_
  refine (expect_supplies _).bind rfl fun _ _ => ?_
  refine closeRegion_supplies.bind rfl fun _ _ => ?_
  refine (fill_compound rfl rfl ?_).bind fun _ hnode => .pure (.refl _) hnode
  exact each_append (each_cons hheader.1 hdeclarations) (each_one hbody)

end Grammar

end AdaSyntax
