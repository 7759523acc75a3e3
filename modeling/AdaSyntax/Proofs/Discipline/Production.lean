import AdaSyntax.Proofs.Discipline.Statement

namespace AdaSyntax

namespace Grammar

open Program

variable {know : Knowledge} {stage : Stage} {node : NodeId} {start : Nat}

theorem markPrivate_supplies : (Program.step .markPrivate).Supplies 0 false fun _ _ => True :=
  query (fun _ _ => trivial) fun _ _ => rfl

theorem privatePart_supplies :
    privatePart.Supplies 0 false fun know found => ∀ nodes ∈ found, ∀ node ∈ nodes, know.shallow node := by
  have hbody : Program.Supplies 1 false
      (do
        .step .markPrivate
        declarativeItems .packageSpecification) fun know nodes => ∀ node ∈ nodes, know.shallow node :=
    fun know stage hrank => markPrivate_supplies.bind rfl fun _ _ => (declarativeItems_supplies _).gives hrank
  exact after_supplies hbody fun _ => rfl

theorem publish_gives {owner : SymbolId} {members : Members} (h : know.symbol owner)
    (hmembers : ∀ id ∈ members.all, know.symbol id) :
    (Program.step (.publish owner members)).Gives know stage (fun _ => stage) fun _ => True :=
  .step ⟨h, hmembers⟩ (fun _ => rfl) fun _ _ => trivial

theorem packageSpecification_gives {owner : Option NodeId} (howner : ∀ id ∈ owner, know.made id) (kind : SymbolKind) :
    (packageSpecification owner kind).Gives know stage (fun _ => stage.advance)
      fun found => know.whole found.1 ∧ know.symbol found.2 := by
  refine position_supplies.bind rfl fun start _ => ?_
  refine (expect_supplies _).bind rfl fun _ _ => ?_
  refine definingIdentifier_supplies.bind rfl fun name _ => ?_
  refine (expectChoice_supplies _).bind rfl fun _ _ => ?_
  refine (isAt_supplies _).bind rfl fun isInstance _ => ?_
  cases isInstance with
  | true => exact .reject_bind
  | false =>
    refine reserve_gives.bind fun node hmade => ?_
    have howned : know.made (owner.getD node) := by
      cases owner with
      | none => exact hmade
      | some owner => exact howner owner rfl
    refine (declare_gives howned).bind fun symbol hsymbol => ?_
    refine (openRegion_gives (by exact fun _ heq => Option.mem_some.mp heq ▸ hsymbol)).bind fun _ _ => ?_
    refine (declarativeItems_supplies _).bind rfl fun visible hvisible => ?_
    refine privatePart_supplies.bind rfl fun hidden hhidden => ?_
    refine (expect_supplies _).bind rfl fun _ _ => ?_
    refine (endName_supplies _).bind rfl fun endName _ => ?_
    refine closeRegion_supplies.bind rfl fun members hmembers => ?_
    refine (publish_gives hsymbol hmembers).bind fun _ _ => ?_
    refine (fill_compound rfl rfl ?_).bind fun _ hnode => .pure (.refl _) ⟨hnode, hsymbol⟩
    exact each_append hvisible (each_getD hhidden)

theorem packageDeclaration_supplies : packageDeclaration.Supplies 0 true Knowledge.whole := by
  intro know stage _
  refine (packageSpecification_gives (by exact nofun) _).bind fun found hfound => ?_
  exact (expect_supplies _).bind rfl fun _ _ => .pure (.refl _) hfound.1

theorem bodyOwner_supplies (name : Name) :
    (bodyOwner name).Supplies 0 false fun know owner => ∀ id ∈ owner, know.symbol id := by
  intro know stage _
  refine (resolve_supplies _).bind rfl fun resolution hresolution => ?_
  split
  · exact .pure (.refl _) hresolution
  · exact .pure (.refl _) hresolution
  · exact .pure (.refl _) nofun

theorem openBody_gives {owner : Option SymbolId} (h : ∀ id ∈ owner, know.symbol id) :
    (openBody owner).Gives know stage (fun _ => stage) fun _ => True := by
  refine (openRegion_gives h).bind fun _ _ => ?_
  cases owner with
  | none => exact .pure (.refl _) trivial
  | some owner => exact addImport_gives (h owner rfl)

theorem packageBody_supplies : packageBody.Supplies 0 true Knowledge.whole := by
  intro know stage _
  refine position_supplies.bind rfl fun start _ => ?_
  refine (expect_supplies _).bind rfl fun _ _ => ?_
  refine (expectChoice_supplies _).bind rfl fun _ _ => ?_
  refine definingIdentifier_supplies.bind rfl fun name _ => ?_
  refine (expect_supplies _).bind rfl fun _ _ => ?_
  refine rejectSeparate_supplies.bind rfl fun _ _ => ?_
  refine (bodyOwner_supplies _).bind rfl fun owner howner => ?_
  refine (openBody_gives howner).bind fun _ _ => ?_
  refine declarativePart_supplies.bind rfl fun declarations hdeclarations => ?_
  refine (after_supplies handledStatements_supplies fun _ => rfl).bind rfl fun body hbody => ?_
  refine (expect_supplies _).bind rfl fun _ _ => ?_
  refine (endName_supplies _).bind rfl fun endName _ => ?_
  refine (expect_supplies _).bind rfl fun _ _ => ?_
  refine closeRegion_supplies.bind rfl fun _ _ => ?_
  exact add_compound rfl (each_append hdeclarations (each_toList hbody))

theorem formalObject_supplies : formalObject.Supplies 0 true Knowledge.whole := by
  intro know stage _
  refine position_supplies.bind rfl fun start _ => ?_
  refine identifierList_supplies.bind rfl fun names _ => ?_
  refine (expect_supplies _).bind rfl fun _ _ => ?_
  refine mode_supplies.bind rfl fun mode _ => ?_
  refine typeMark_supplies.bind rfl fun mark hmark => ?_
  refine initialValue_supplies.bind rfl fun initial hinitial => ?_
  refine (expect_supplies _).bind rfl fun _ _ => ?_
  refine (add_shallow rfl (by exact each_cons hmark.1 (each_toList hinitial))).bind fun node hnode => ?_
  exact (declareAll_gives (know.made_of_shallow hnode)).bind fun _ _ => .pure (.refl _) (know.whole_of_shallow hnode)

theorem formalTypeDefinition_gives (discriminated : Bool) :
    (formalTypeDefinition discriminated).Gives know stage.advance (fun _ => stage.advance)
      fun found => ∀ node ∈ found.1.children, know.shallow node := by
  refine kind_supplies.bind rfl fun kind _ => ?_
  split
  · refine (accept_supplies _).bind rfl fun isLimited _ => ?_
    exact (expect_supplies _).bind rfl fun _ _ => .pure (.refl _) each_nil
  · refine (accept_supplies _).bind rfl fun isLimited _ => ?_
    exact (expect_supplies _).bind rfl fun _ _ => .pure (.refl _) each_nil
  · refine advance_supplies.bind rfl fun _ _ => ?_
    exact (expectAll_supplies _ _).bind rfl fun _ _ => .pure (.refl _) each_nil
  · refine advance_supplies.bind rfl fun _ _ => ?_
    exact (expect_supplies _).bind rfl fun _ _ => .pure (.refl _) each_nil
  · refine advance_supplies.bind rfl fun _ _ => ?_
    exact (expect_supplies _).bind rfl fun _ _ => .pure (.refl _) each_nil
  · refine advance_supplies.bind rfl fun _ _ => ?_
    exact (expect_supplies _).bind rfl fun _ _ => .pure (.refl _) each_nil
  · exact arrayDefinition_supplies.bind rfl fun found hfound => .pure (.refl _) (each_one hfound)
  · exact accessDefinition_supplies.bind rfl fun found hfound => .pure (.refl _) (each_one hfound)
  · exact .reject

theorem formalType_supplies : formalType.Supplies 0 true Knowledge.whole := by
  intro know stage _
  refine position_supplies.bind rfl fun start _ => ?_
  refine (expect_supplies _).bind rfl fun _ _ => ?_
  refine definingIdentifier_supplies.bind rfl fun name _ => ?_
  refine (isAt_supplies _).bind rfl fun discriminated _ => ?_
  refine (openRegion_none _).bind fun _ _ => ?_
  refine (optionalDiscriminants_supplies _).bind rfl fun discriminants hdiscriminants => ?_
  refine (expect_supplies _).bind rfl fun _ _ => ?_
  refine (formalTypeDefinition_gives _).bind fun found hfound => ?_
  refine (expect_supplies _).bind rfl fun _ _ => ?_
  refine closeRegion_supplies.bind rfl fun _ _ => ?_
  refine (add_shallow rfl (by exact each_append hdiscriminants hfound)).bind fun node hnode => ?_
  exact (declareType_gives (know.made_of_shallow hnode)).bind fun _ _ => .pure (.refl _) (know.whole_of_shallow hnode)

theorem formalDefault_supplies :
    formalDefault.Supplies 0 false fun know default => ∀ node ∈ default.children, know.shallow node := by
  intro know stage _
  refine (accept_supplies _).bind rfl fun isGiven _ => ?_
  cases isGiven with
  | false => exact .pure (.refl _) each_nil
  | true =>
    refine (accept_supplies _).bind rfl fun isBox _ => ?_
    cases isBox with
    | true => exact .pure (.refl _) each_nil
    | false => exact name_supplies.forget.bind rfl fun name hname => .pure (.refl _) (each_one hname)

theorem formalSubprogram_supplies : formalSubprogram.Supplies 0 true Knowledge.whole := by
  intro know stage _
  refine position_supplies.bind rfl fun start _ => ?_
  refine (expect_supplies _).bind rfl fun _ _ => ?_
  refine reserve_gives.bind fun node hmade => ?_
  refine (subprogramSpecification_gives hmade false).bind fun header hheader => ?_
  refine closeRegion_supplies.bind rfl fun _ _ => ?_
  refine formalDefault_supplies.bind rfl fun default hdefault => ?_
  refine (expect_supplies _).bind rfl fun _ _ => ?_
  exact (fill_shallow rfl rfl (by exact each_cons hheader.1 hdefault)).bind fun _ hnode =>
    .pure (.refl _) (know.whole_of_shallow hnode)

theorem genericUnit_gives (h : know.made node) :
    (genericUnit node).Gives know stage (fun _ => stage.advance)
      fun found => know.whole found.1 ∧ know.symbol found.2 := by
  refine (isAt_supplies _).bind rfl fun isPackage _ => ?_
  cases isPackage with
  | true => exact packageSpecification_gives (fun _ heq => Option.mem_some.mp heq ▸ h) _
  | false =>
    refine (subprogramSpecification_gives h true).bind fun header hheader => ?_
    exact closeRegion_supplies.bind rfl fun _ _ => .pure (.refl _) ⟨know.whole_of_shallow hheader.1, hheader.2⟩

theorem mem_all_withoutVisible {members : Members} {id other : SymbolId} (h : other ∈ (members.withoutVisible id).all) :
    other ∈ members.all := by
  simp only [Members.all, Members.withoutVisible, List.mem_append, List.mem_filter] at h ⊢
  exact h.imp_left And.left

theorem genericDeclaration_supplies : genericDeclaration.Supplies 0 true Knowledge.whole := by
  intro know stage _
  refine position_supplies.bind rfl fun start _ => ?_
  refine (expect_supplies _).bind rfl fun _ _ => ?_
  refine reserve_gives.bind fun node hmade => ?_
  refine (openRegion_none _).bind fun _ _ => ?_
  refine (items_supplies (firstOf_supplies (by decide)).whole).bind rfl fun formals hformals => ?_
  refine (genericUnit_gives hmade).bind fun found hfound => ?_
  refine (expect_supplies _).bind rfl fun _ _ => ?_
  refine closeRegion_supplies.bind rfl fun members hmembers => ?_
  refine (publish_gives hfound.2 fun id hid => hmembers id (mem_all_withoutVisible hid)).bind fun _ _ => ?_
  refine (bind_gives hfound.2).bind fun _ _ => ?_
  refine (fill_whole rfl rfl ?_).bind fun _ hnode => .pure (.refl _) hnode
  exact each_append (fun id hid => know.whole_of_shallow (hformals id hid)) (each_one hfound.1)

theorem genericKind_supplies : genericKind.Supplies 0 true fun _ _ => True := by
  intro know stage _
  refine kind_supplies.bind rfl fun kind _ => ?_
  split
  · exact advance_supplies.bind rfl fun _ _ => .pure (.refl _) trivial
  · exact advance_supplies.bind rfl fun _ _ => .pure (.refl _) trivial
  · exact advance_supplies.bind rfl fun _ _ => .pure (.refl _) trivial
  · exact .reject

theorem instanceDesignator_supplies (kind : GenericKind) : (instanceDesignator kind).Supplies 0 true fun _ _ => True := by
  cases kind with
  | function => exact functionDesignator_supplies
  | package | procedure => exact definingIdentifier_supplies

theorem packageTemplate_gives (h : know.made node) :
    (packageTemplate node).Gives know stage (fun _ => stage) fun target => ∀ id ∈ target, know.symbol id := by
  refine (classify_gives h).bind fun named hnamed => ?_
  split
  · exact .pure (.refl _) hnamed
  · exact .pure (.refl _) nofun

theorem genericInstantiation_supplies : genericInstantiation.Supplies 0 true Knowledge.whole := by
  intro know stage _
  refine position_supplies.bind rfl fun start _ => ?_
  refine genericKind_supplies.bind rfl fun kind _ => ?_
  refine (instanceDesignator_supplies _).bind rfl fun name _ => ?_
  refine (expectChoice_supplies _).bind rfl fun _ _ => ?_
  refine (expectChoice_supplies _).bind rfl fun _ _ => ?_
  refine expandedName_supplies.bind rfl fun template htemplate => ?_
  refine optionalActualParameters_supplies.bind rfl fun actuals hactuals => ?_
  refine (expect_supplies _).bind rfl fun _ _ => ?_
  refine (add_shallow rfl (by exact each_cons htemplate hactuals)).bind fun node hnode => ?_
  refine (declare_gives (know.made_of_shallow hnode)).bind fun symbol hsymbol => ?_
  refine (packageTemplate_gives (know.made_of_shallow htemplate)).bind fun target htarget => ?_
  exact (publishAs_gives hsymbol htarget).bind fun _ _ => .pure (.refl _) (know.whole_of_shallow hnode)

theorem withUnits_gives (h : know.made node) (units : List (DefiningName Nat)) :
    (withUnits node units).Gives know stage (fun _ => stage) fun _ => True := by
  induction units with
  | nil => exact .pure (.refl _) trivial
  | cons unit units ih =>
    have hunit : (withUnit node unit).Gives know stage (fun _ => stage) fun _ => True := by
      refine Supplies.bind (query (fun _ _ => trivial) fun _ _ => rfl) rfl fun found hfound => ?_
      split
      · exact bind_gives (hfound _ rfl)
      · exact declareAll_gives h
    exact hunit.bind fun _ _ => ih

theorem withClause_supplies : withClause.Supplies 0 true Knowledge.whole := by
  intro know stage _
  refine position_supplies.bind rfl fun start _ => ?_
  refine advance_supplies.bind rfl fun _ _ => ?_
  refine identifierList_supplies.bind rfl fun units _ => ?_
  refine (expect_supplies _).bind rfl fun _ _ => ?_
  refine (add_shallow rfl (by exact each_nil)).bind fun node hnode => ?_
  exact (withUnits_gives (know.made_of_shallow hnode) units).bind fun _ _ =>
    .pure (.refl _) (know.whole_of_shallow hnode)

theorem contextItem_supplies {kind : TokenKind} {item : Program NodeId} (h : contextItem? kind = some item) :
    item.Supplies 0 true Knowledge.whole := by
  unfold contextItem? at h
  split at h
  · cases h
    exact withClause_supplies
  · cases h
    exact useClause_supplies
  · cases h
    exact pragma_supplies
  · cases h

theorem contextItems_supplies :
    contextItems.Supplies 0 false fun know nodes => ∀ node ∈ nodes, know.whole node := by
  intro know stage _
  refine .loop false (fun items => ∀ node ∈ items, know.whole node) each_nil fun items hitems => ?_
  refine kind_supplies.bind rfl fun kind _ => ?_
  split
  · rename_i item hitem
    exact (contextItem_supplies hitem).bind rfl fun node hnode => .pure (.refl _) (each_cons hnode hitems)
  · exact .pure (.refl _) fun node hnode => hitems node (List.mem_reverse.mp hnode)

theorem importParent_gives (h : know.made node) :
    (importParent node).Gives know stage (fun _ => stage) fun _ => True := by
  refine (classify_gives h).bind fun named hnamed => ?_
  split
  · exact addImport_gives (hnamed _ rfl)
  · exact addImport_gives (hnamed _ rfl)
  · exact .pure (.refl _) trivial

theorem subunit_supplies : subunit.Supplies 0 true Knowledge.whole := by
  intro know stage _
  refine position_supplies.bind rfl fun start _ => ?_
  refine advance_supplies.bind rfl fun _ _ => ?_
  refine (parenthesized_supplies expandedName_supplies fun _ => rfl).bind rfl fun parent hparent => ?_
  refine (importParent_gives (know.made_of_shallow hparent)).bind fun _ _ => ?_
  refine (firstOf_supplies (by decide)).bind rfl fun body hbody => ?_
  exact add_whole rfl (each_two (know.whole_of_shallow hparent) (know.whole_of_shallow hbody))

theorem moveToLibrary_gives {ids : List SymbolId} (h : ∀ id ∈ ids, know.symbol id) :
    (moveToLibrary ids).Gives know stage (fun _ => stage) fun _ => True := by
  induction ids with
  | nil => exact .pure (.refl _) trivial
  | cons id ids ih =>
    obtain ⟨hid, hids⟩ := List.forall_mem_cons.mp h
    refine Gives.bind (.step hid (fun _ => rfl) fun _ _ => trivial) fun kind _ => ?_
    refine Gives.bind (.step hid (fun _ => rfl) fun _ _ => trivial) fun known _ => ?_
    split
    · exact (bind_gives hid).bind fun _ _ => ih hids
    · exact ih hids

theorem compilationUnit_supplies : compilationUnit.Supplies 1 true Knowledge.whole := by
  intro know stage hrank
  refine position_supplies.bind rfl fun start _ => ?_
  refine (openRegion_none _).bind fun _ _ => ?_
  refine contextItems_supplies.bind rfl fun context hcontext => ?_
  refine (isAt_supplies _).bind rfl fun isSubunit _ => ?_
  cases isSubunit with
  | true =>
    refine subunit_supplies.bind rfl fun unit hunit => ?_
    refine closeRegion_supplies.bind rfl fun members hmembers => ?_
    exact add_whole rfl (each_append hcontext (each_one hunit))
  | false =>
    refine (firstOf_supplies (by decide)).whole.bind hrank fun unit hunit => ?_
    refine closeRegion_supplies.bind rfl fun members hmembers => ?_
    refine (moveToLibrary_gives hmembers).bind fun _ _ => ?_
    exact add_whole rfl (each_append hcontext (each_one hunit))

theorem compilationUnits_supplies :
    compilationUnits.Supplies 2 false fun know found => ∀ node ∈ found.1, know.shallow node := by
  intro know stage hrank
  refine .loop false (fun units => ∀ node ∈ units, know.shallow node) each_nil fun units hunits => ?_
  refine (isAt_supplies _).bind rfl fun atEnd _ => ?_
  cases atEnd with
  | true => exact .pure (.refl _) fun node hnode => hunits node (List.mem_reverse.mp hnode)
  | false =>
    refine (attempt_gives (rule_supplies .compilationUnit) (by exact hrank)).bind fun unit hunit => ?_
    cases unit with
    | some unit => exact .pure (.refl _) (each_cons (hunit unit rfl) hunits)
    | none => exact .pure (.refl _) fun node hnode => hunits node (List.mem_reverse.mp hnode)

theorem ofRule_supplies (rule : Rule) :
    (ofRule rule).Supplies (Production.rule rule).rank true fun know node => (Production.rule rule).Grants know node := by
  cases rule with
  | objectDeclaration => exact objectDeclaration_supplies
  | numberDeclaration => exact numberDeclaration_supplies
  | renamingDeclaration => exact renamingDeclaration_supplies
  | exceptionDeclaration => exact exceptionDeclaration_supplies
  | typeDeclaration => exact typeDeclaration_supplies
  | subtypeDeclaration => exact subtypeDeclaration_supplies
  | genericInstantiation => exact genericInstantiation_supplies
  | bodyStub => exact bodyStub_supplies
  | subprogramDeclaration => exact subprogramDeclaration_supplies
  | subprogramBody => exact subprogramBody_supplies
  | packageBody => exact packageBody_supplies
  | packageDeclaration => exact packageDeclaration_supplies
  | genericDeclaration => exact genericDeclaration_supplies
  | useClause => exact useClause_supplies
  | pragma => exact pragma_supplies
  | componentDeclaration => exact componentDeclaration_supplies
  | unconstrainedArray => exact unconstrainedArray_supplies.whole
  | constrainedArray => exact constrainedArray_supplies.whole
  | indexConstraint => exact indexConstraint_supplies.whole
  | discriminantConstraint => exact discriminantConstraint_supplies.whole
  | formalObject => exact formalObject_supplies
  | formalType => exact formalType_supplies
  | formalSubprogram => exact formalSubprogram_supplies
  | statement => exact statement_supplies
  | assignment => exact assignment_supplies
  | procedureCall => exact procedureCall_supplies
  | name => exact name_supplies
  | expression => exact expression_supplies
  | subtypeIndication => exact subtypeIndication_supplies.whole
  | discreteRange => exact discreteRange_supplies true
  | range => exact range_supplies
  | compilationUnit => exact compilationUnit_supplies

theorem ofProduction_supplies {α : Type} (production : Production α) :
    (ofProduction production).Supplies production.rank production.consumes fun know => production.Grants know := by
  cases production with
  | rule rule => exact ofRule_supplies rule
  | simpleExpression => exact simpleExpression_supplies
  | componentList => exact componentList_supplies

end Grammar

end AdaSyntax
