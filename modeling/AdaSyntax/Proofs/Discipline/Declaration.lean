import AdaSyntax.Grammar.Statement
import AdaSyntax.Proofs.Discipline.Type

namespace AdaSyntax

namespace Grammar

open Program

variable {know : Knowledge} {stage : Stage} {node : NodeId} {start : Nat}

theorem mode_supplies : mode.Supplies 0 false fun _ _ => True := by
  intro know stage _
  refine (accept_supplies _).bind rfl fun isIn _ => ?_
  cases isIn with
  | true =>
    refine (accept_supplies _).bind rfl fun isOut _ => ?_
    cases isOut <;> exact .pure (.refl _) trivial
  | false =>
    refine (accept_supplies _).bind rfl fun isOut _ => ?_
    cases isOut <;> exact .pure (.refl _) trivial

theorem parameterSpecification_supplies : parameterSpecification.Supplies 0 true Knowledge.shallow := by
  intro know stage _
  refine position_supplies.bind rfl fun start _ => ?_
  refine identifierList_supplies.bind rfl fun names _ => ?_
  refine (expect_supplies _).bind rfl fun _ _ => ?_
  refine mode_supplies.bind rfl fun mode _ => ?_
  refine typeMark_supplies.bind rfl fun mark hmark => ?_
  refine initialValue_supplies.bind rfl fun initial hinitial => ?_
  refine (add_shallow rfl (by exact each_cons hmark.1 (each_toList hinitial))).bind fun node hnode => ?_
  exact (declareAll_gives (know.made_of_shallow hnode)).bind fun _ _ => .pure (.refl _) hnode

theorem formalPart_supplies : formalPart.Supplies 0 false fun know nodes => ∀ node ∈ nodes, know.shallow node := by
  intro know stage _
  refine (isAt_supplies _).bind rfl fun isOpen _ => ?_
  cases isOpen with
  | false => exact .pure (.refl _) each_nil
  | true =>
    exact (parenthesized_supplies (separated_supplies parameterSpecification_supplies) fun _ => rfl).forget.gives rfl

theorem subprogramKind_supplies : subprogramKind.Supplies 0 true fun _ _ => True := by
  intro know stage _
  refine kind_supplies.bind rfl fun kind _ => ?_
  split
  · exact advance_supplies.bind rfl fun _ _ => .pure (.refl _) trivial
  · exact advance_supplies.bind rfl fun _ _ => .pure (.refl _) trivial
  · exact .reject

theorem subprogramDesignator_supplies (kind : SubprogramKind) :
    (subprogramDesignator kind).Supplies 0 true fun _ _ => True := by
  cases kind with
  | procedure => exact definingIdentifier_supplies
  | function => exact functionDesignator_supplies

theorem resultMark_supplies (kind : SubprogramKind) :
    (resultMark kind).Supplies 0 false fun know result => ∀ node ∈ result, know.shallow node := by
  intro know stage _
  cases kind with
  | procedure => exact .pure (.refl _) nofun
  | function =>
    refine (expect_supplies _).forget.bind rfl fun _ _ => ?_
    exact typeMark_supplies.forget.bind rfl fun mark hmark =>
      .pure (.refl _) fun _ heq => Option.mem_some.mp heq ▸ hmark.1

theorem importFormals_gives {earlier : Resolution} (kind : SymbolKind) (h : ∀ id ∈ earlier.symbol, know.symbol id) :
    (importFormals kind earlier).Gives know stage (fun _ => stage) fun _ => True := by
  unfold importFormals
  split
  · rename_i template htemplate
    split
    · exact addImport_gives (h template htemplate)
    · exact .pure (.refl _) trivial
  · exact .pure (.refl _) trivial

theorem subprogramSpecification_gives (h : know.made node) (isGeneric : Bool) :
    (subprogramSpecification node isGeneric).Gives know stage (fun _ => stage.advance)
      fun header => know.shallow header.spec ∧ know.symbol header.symbol := by
  refine position_supplies.bind rfl fun start _ => ?_
  refine subprogramKind_supplies.bind rfl fun kind _ => ?_
  refine (subprogramDesignator_supplies kind).bind rfl fun name _ => ?_
  refine (resolve_supplies _).bind rfl fun earlier hearlier => ?_
  refine (declare_gives h).bind fun symbol hsymbol => ?_
  refine (openRegion_gives (by exact fun _ heq => Option.mem_some.mp heq ▸ hsymbol)).bind fun _ _ => ?_
  refine (importFormals_gives _ hearlier).bind fun _ _ => ?_
  refine formalPart_supplies.bind rfl fun parameters hparameters => ?_
  refine (resultMark_supplies kind).bind rfl fun result hresult => ?_
  refine (add_shallow rfl (by exact each_append hparameters (each_toList hresult))).bind fun spec hspec => ?_
  exact .pure (.refl _) ⟨hspec, hsymbol⟩

theorem subprogramDeclaration_supplies : subprogramDeclaration.Supplies 0 true Knowledge.whole := by
  intro know stage _
  refine position_supplies.bind rfl fun start _ => ?_
  refine reserve_gives.bind fun node hmade => ?_
  refine (subprogramSpecification_gives hmade false).bind fun header hheader => ?_
  refine (expect_supplies _).bind rfl fun _ _ => ?_
  refine closeRegion_supplies.bind rfl fun _ _ => ?_
  exact (fill_shallow rfl rfl (by exact each_one hheader.1)).bind fun _ hnode =>
    .pure (.refl _) (know.whole_of_shallow hnode)

theorem objectSubtype_supplies (isConstant : Bool) : (objectSubtype isConstant).Supplies 0 true Knowledge.shallow := by
  intro know stage _
  refine (isAt_supplies _).bind rfl fun isNumber _ => ?_
  split
  · exact .reject
  · refine (isAt_supplies _).bind rfl fun isArray _ => ?_
    split
    · exact constrainedArray_supplies.gives rfl
    · exact subtypeIndication_supplies.gives rfl

theorem objectDeclaration_supplies : objectDeclaration.Supplies 0 true Knowledge.whole := by
  intro know stage _
  refine position_supplies.bind rfl fun start _ => ?_
  refine identifierList_supplies.bind rfl fun names _ => ?_
  refine (expect_supplies _).bind rfl fun _ _ => ?_
  refine (accept_supplies _).bind rfl fun isConstant _ => ?_
  refine (objectSubtype_supplies _).bind rfl fun indication hindication => ?_
  refine initialValue_supplies.bind rfl fun initial hinitial => ?_
  refine (expect_supplies _).bind rfl fun _ _ => ?_
  refine (add_shallow rfl (by exact each_cons hindication (each_toList hinitial))).bind fun node hnode => ?_
  exact (declareAll_gives (know.made_of_shallow hnode)).bind fun _ _ => .pure (.refl _) (know.whole_of_shallow hnode)

theorem numberDeclaration_supplies : numberDeclaration.Supplies 0 true Knowledge.whole := by
  intro know stage _
  refine position_supplies.bind rfl fun start _ => ?_
  refine identifierList_supplies.bind rfl fun names _ => ?_
  refine (expectAll_supplies _ _).bind rfl fun _ _ => ?_
  refine expression_supplies.bind rfl fun value hvalue => ?_
  refine (expect_supplies _).bind rfl fun _ _ => ?_
  refine (add_shallow rfl (by exact each_one hvalue)).bind fun node hnode => ?_
  exact (declareAll_gives (know.made_of_shallow hnode)).bind fun _ _ => .pure (.refl _) (know.whole_of_shallow hnode)

theorem exceptionDeclaration_supplies : exceptionDeclaration.Supplies 0 true Knowledge.whole := by
  intro know stage _
  refine position_supplies.bind rfl fun start _ => ?_
  refine identifierList_supplies.bind rfl fun names _ => ?_
  refine (expectAll_supplies _ _).bind rfl fun _ _ => ?_
  refine (add_shallow rfl (by exact each_nil)).bind fun node hnode => ?_
  exact (declareAll_gives (know.made_of_shallow hnode)).bind fun _ _ => .pure (.refl _) (know.whole_of_shallow hnode)

theorem subtypeDeclaration_supplies : subtypeDeclaration.Supplies 0 true Knowledge.whole := by
  intro know stage _
  refine position_supplies.bind rfl fun start _ => ?_
  refine (expect_supplies _).bind rfl fun _ _ => ?_
  refine definingIdentifier_supplies.bind rfl fun name _ => ?_
  refine (expect_supplies _).bind rfl fun _ _ => ?_
  refine subtypeIndication_supplies.bind rfl fun indication hindication => ?_
  refine (expect_supplies _).bind rfl fun _ _ => ?_
  refine (indicationShape_gives (know.made_of_shallow hindication)).bind fun shape _ => ?_
  refine (add_shallow rfl (by exact each_one hindication)).bind fun node hnode => ?_
  exact (declareType_gives (know.made_of_shallow hnode)).bind fun _ _ => .pure (.refl _) (know.whole_of_shallow hnode)

theorem renamedEntity_supplies : renamedEntity.Supplies 0 true Knowledge.shallow := by
  intro know stage _
  refine (expectChoice_supplies _).bind rfl fun _ _ => ?_
  refine name_supplies.bind rfl fun renamed hrenamed => ?_
  exact (expect_supplies _).bind rfl fun _ _ => .pure (.refl _) hrenamed

theorem objectRenamingKind_supplies :
    objectRenamingKind.Supplies 0 false fun know found => ∀ node ∈ found.1.children, know.shallow node := by
  intro know stage _
  refine (accept_supplies _).bind rfl fun isException _ => ?_
  cases isException with
  | true => exact .pure (.refl _) each_nil
  | false => exact typeMark_supplies.forget.bind rfl fun mark hmark => .pure (.refl _) (each_one hmark.1)

theorem objectRenaming_supplies : objectRenaming.Supplies 0 true Knowledge.whole := by
  intro know stage _
  refine position_supplies.bind rfl fun start _ => ?_
  refine definingIdentifier_supplies.bind rfl fun name _ => ?_
  refine (expect_supplies _).bind rfl fun _ _ => ?_
  refine objectRenamingKind_supplies.bind rfl fun found hfound => ?_
  refine renamedEntity_supplies.bind rfl fun renamed hrenamed => ?_
  refine (add_shallow rfl (by exact each_append hfound (each_one hrenamed))).bind fun node hnode => ?_
  exact (declare_gives (know.made_of_shallow hnode)).bind fun _ _ => .pure (.refl _) (know.whole_of_shallow hnode)

theorem publishAs_gives {synonym : SymbolId} {target : Option SymbolId} (h : know.symbol synonym)
    (htarget : ∀ id ∈ target, know.symbol id) :
    (publishAs synonym target).Gives know stage (fun _ => stage) fun _ => True := by
  cases target with
  | none => exact .pure (.refl _) trivial
  | some target => exact .step ⟨h, htarget target rfl⟩ (fun _ => rfl) fun _ _ => trivial

theorem packageRenaming_supplies : packageRenaming.Supplies 0 true Knowledge.whole := by
  intro know stage _
  refine position_supplies.bind rfl fun start _ => ?_
  refine advance_supplies.bind rfl fun _ _ => ?_
  refine definingIdentifier_supplies.bind rfl fun name _ => ?_
  refine renamedEntity_supplies.bind rfl fun renamed hrenamed => ?_
  refine (add_shallow rfl (by exact each_one hrenamed)).bind fun node hnode => ?_
  refine (declare_gives (know.made_of_shallow hnode)).bind fun synonym hsynonym => ?_
  refine (classify_gives (know.made_of_shallow hrenamed)).bind fun named hnamed => ?_
  exact (publishAs_gives hsynonym hnamed).bind fun _ _ => .pure (.refl _) (know.whole_of_shallow hnode)

theorem subprogramRenaming_supplies : subprogramRenaming.Supplies 0 true Knowledge.whole := by
  intro know stage _
  refine position_supplies.bind rfl fun start _ => ?_
  refine reserve_gives.bind fun node hmade => ?_
  refine (subprogramSpecification_gives hmade false).bind fun header hheader => ?_
  refine renamedEntity_supplies.bind rfl fun renamed hrenamed => ?_
  refine closeRegion_supplies.bind rfl fun _ _ => ?_
  exact (fill_shallow rfl rfl (by exact each_two hheader.1 hrenamed)).bind fun _ hnode =>
    .pure (.refl _) (know.whole_of_shallow hnode)

theorem renamingDeclaration_supplies : renamingDeclaration.Supplies 0 true Knowledge.whole := by
  intro know stage _
  refine kind_supplies.bind rfl fun kind _ => ?_
  split
  · exact objectRenaming_supplies.gives rfl
  · exact packageRenaming_supplies.gives rfl
  · exact subprogramRenaming_supplies.gives rfl
  · exact subprogramRenaming_supplies.gives rfl
  · exact .reject

theorem separateTail_supplies : separateTail.Supplies 0 true fun _ _ => True := by
  intro know stage _
  refine (expect_supplies _).bind rfl fun _ _ => ?_
  refine (expectChoice_supplies _).bind rfl fun _ _ => ?_
  exact (expect_supplies _).gives rfl

theorem packageStub_supplies : packageStub.Supplies 0 true Knowledge.whole := by
  intro know stage _
  refine position_supplies.bind rfl fun start _ => ?_
  refine advance_supplies.bind rfl fun _ _ => ?_
  refine (expect_supplies _).bind rfl fun _ _ => ?_
  refine definingIdentifier_supplies.bind rfl fun name _ => ?_
  exact separateTail_supplies.bind rfl fun _ _ => add_whole rfl each_nil

theorem subprogramStub_supplies : subprogramStub.Supplies 0 true Knowledge.whole := by
  intro know stage _
  refine position_supplies.bind rfl fun start _ => ?_
  refine reserve_gives.bind fun node hmade => ?_
  refine (subprogramSpecification_gives hmade false).bind fun header hheader => ?_
  refine separateTail_supplies.bind rfl fun _ _ => ?_
  refine closeRegion_supplies.bind rfl fun _ _ => ?_
  exact (fill_shallow rfl rfl (by exact each_one hheader.1)).bind fun _ hnode =>
    .pure (.refl _) (know.whole_of_shallow hnode)

theorem bodyStub_supplies : bodyStub.Supplies 0 true Knowledge.whole := by
  intro know stage _
  refine kind_supplies.bind rfl fun kind _ => ?_
  split
  · exact packageStub_supplies.gives rfl
  · exact subprogramStub_supplies.gives rfl
  · exact subprogramStub_supplies.gives rfl
  · exact .reject

theorem usePackage_gives (h : know.made node) :
    (usePackage node).Gives know stage (fun _ => stage) fun _ => True := by
  refine (classify_gives h).bind fun named hnamed => ?_
  split
  · exact addImport_gives (hnamed _ rfl)
  · exact addImport_gives (hnamed _ rfl)
  · exact find_gives (by exact each_one h)

theorem usePackages_gives {packages : List NodeId} (h : ∀ node ∈ packages, know.made node) :
    (usePackages packages).Gives know stage (fun _ => stage) fun _ => True := by
  induction packages with
  | nil => exact .pure (.refl _) trivial
  | cons package packages ih =>
    obtain ⟨hpackage, hpackages⟩ := List.forall_mem_cons.mp h
    exact (usePackage_gives hpackage).bind fun _ _ => ih hpackages

theorem useClause_supplies : useClause.Supplies 0 true Knowledge.whole := by
  intro know stage _
  refine position_supplies.bind rfl fun start _ => ?_
  refine (expect_supplies _).bind rfl fun _ _ => ?_
  refine (separated_supplies name_supplies).bind rfl fun packages hpackages => ?_
  refine (expect_supplies _).bind rfl fun _ _ => ?_
  refine (usePackages_gives fun node hnode => know.made_of_shallow (hpackages node hnode)).bind fun _ _ => ?_
  exact add_whole rfl fun node hnode => know.whole_of_shallow (hpackages node hnode)

theorem pragma_supplies : pragma.Supplies 0 true Knowledge.whole := by
  intro know stage _
  refine position_supplies.bind rfl fun start _ => ?_
  refine (expect_supplies _).bind rfl fun _ _ => ?_
  refine definingIdentifier_supplies.bind rfl fun name _ => ?_
  refine optionalActualParameters_supplies.bind rfl fun arguments harguments => ?_
  refine (expect_supplies _).bind rfl fun _ _ => ?_
  exact add_whole rfl fun node hnode => know.whole_of_shallow (harguments node hnode)

theorem declarativeItems_supplies (context : Context) :
    (declarativeItems context).Supplies 1 false fun know nodes => ∀ node ∈ nodes, know.shallow node :=
  items_supplies (firstOf_supplies (by decide)).whole

theorem declarativePart_supplies :
    declarativePart.Supplies 1 false fun know nodes => ∀ node ∈ nodes, know.shallow node :=
  declarativeItems_supplies _

theorem statements_supplies : statements.Supplies 2 false fun know nodes => ∀ node ∈ nodes, know.shallow node :=
  items_supplies (rule_supplies .statement)

end Grammar

end AdaSyntax
