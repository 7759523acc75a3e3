import AdaSyntax.Proofs.Grammar.Unit
import AdaSyntax.Proofs.Moment.Declaration

namespace AdaSyntax

open SymbolTable (orderly Orderly)

namespace Grammar

open Program

variable {inv : SymbolTable.Invariant} {budget : Nat} {parser : Parser} {owner : SymbolId} {kind : SymbolKind}

theorem declared_finds (name : DefiningName Nat) (kind : SymbolKind) (node : NodeId) :
    Finds budget (declare name kind node) parser fun id later => ∃ declaration : Declaration,
      declaration.name = name.name ∧ declaration.kind = kind ∧ declaration.node = some node ∧
      id = (parser.symbols.declare declaration).1 ∧ later.symbols = (parser.symbols.declare declaration).2.2 ∧
      later.tree = parser.tree := by
  refine .step fun id later hperform => ?_
  obtain ⟨hid, hlater⟩ := Prod.mk.inj hperform
  let declaration : Declaration :=
    { name := name.name, kind, node := some node, range := parser.place name.place, shape := none }
  replace hlater : (parser.declare declaration).2 = later := hlater
  subst hlater
  exact ⟨declaration, rfl, rfl, rfl, (Reply.matched.inj hid).symm, Parser.reportDeclared_symbols ..,
    (Parser.reportDeclared_reports ..).tree_eq⟩

theorem declare_tends (hcalls : Grammar.Tend orderly budget) (name : DefiningName Nat) (kind : SymbolKind)
    (node : NodeId) :
    Tends orderly budget (declare name kind node) parser fun id later => later.symbols.Unpublished id kind := by
  refine .reached fun h => (Tends.of_finds hcalls (declared_finds name kind node)).mono ?_
  rintro id later - ⟨declaration, -, rfl, -, rfl, hsymbols, -⟩
  exact hsymbols ▸ h.holds.unpublished_declare declaration

theorem openRegion_finds (region : RegionKind) (scope : Option SymbolId) :
    Finds budget (openRegion region scope) parser fun _ later =>
      later.symbols = parser.symbols.openRegion region scope := by
  refine .step fun _ later hperform => ?_
  obtain ⟨-, rfl⟩ := Prod.mk.inj hperform
  rfl

theorem closeRegion_finds :
    Finds budget closeRegion parser fun _ later => later.symbols = parser.symbols.change .closeRegion := by
  refine .step fun _ later hperform => ?_
  simp only [Parser.perform] at hperform
  simp only [SymbolTable.change]
  split at hperform <;> obtain ⟨-, rfl⟩ := Prod.mk.inj hperform
  · simp only [*]
  · simp only [*]

theorem take_symbols_finds : Finds budget take parser fun _ later => later.symbols = parser.symbols := by
  refine .step fun _ later hperform => ?_
  obtain ⟨-, rfl⟩ := Prod.mk.inj hperform
  exact parser.take_symbols

theorem expectToken_symbols_finds (token : TokenKind) :
    Finds budget (.step (.expect token)) parser fun _ later => later.symbols = parser.symbols := by
  refine .step fun _ later hperform => ?_
  obtain ⟨-, rfl⟩ := Prod.mk.inj hperform
  exact parser.expect_symbols token

theorem expect_symbols_finds (token : TokenKind) :
    Finds budget (expect token) parser fun _ later => later.symbols = parser.symbols :=
  .bind (expectToken_symbols_finds token) fun _ _ hsymbols => .pure hsymbols

theorem addImport_tends (h : parser.symbols.innermost.kind.importsByUse = false) (package : SymbolId)
    (kind : ImportKind) :
    Tends orderly budget (.step (.addImport package kind)) parser fun _ later =>
      later.symbols = parser.symbols.addImport package kind := by
  refine .reached fun hparser => .step (hparser.holds.addImport package (by simp [h])) fun _ later hperform => ?_
  obtain ⟨-, rfl⟩ := Prod.mk.inj hperform
  rfl

theorem publish_tends (h : parser.symbols.MayPublish owner) (members : Members) :
    Tends orderly budget (.step (.publish owner members)) parser fun _ later =>
      later.symbols = parser.symbols.publish owner members := by
  refine .reached fun hparser => .step (hparser.holds.publish h members) fun _ later hperform => ?_
  obtain ⟨-, rfl⟩ := Prod.mk.inj hperform
  rfl

theorem publishAs_tends (h : parser.symbols.Unpublished owner kind) (target : Option SymbolId) :
    Tends orderly budget (publishAs owner target) parser fun _ _ => True := by
  cases target with
  | none => exact .pure trivial
  | some target =>
    refine .reached fun hparser => .step ?_ fun _ _ _ => trivial
    exact hparser.holds.publishAlias (hparser.holds.mayPublish h) target

instance : Maintains inv mode := by unfold mode; infer_instance

instance : Maintains inv parameterSpecification := by unfold parameterSpecification; infer_instance

instance : Maintains inv formalPart := by unfold formalPart; infer_instance

instance : Maintains inv subprogramKind := .skip fun kind => by split <;> infer_instance

instance (kind : SubprogramKind) : Maintains inv (subprogramDesignator kind) := by
  cases kind <;> unfold subprogramDesignator <;> infer_instance

instance (kind : SubprogramKind) : Maintains inv (resultMark kind) := by
  cases kind <;> unfold resultMark <;> infer_instance

theorem importFormals_tends (h : parser.symbols.innermost.kind.importsByUse = false) (symbolKind : SymbolKind)
    (earlier : Resolution) (howner : parser.symbols.Unpublished owner kind) :
    Tends orderly budget (importFormals symbolKind earlier) parser fun _ later =>
      later.symbols.Unpublished owner kind := by
  unfold importFormals
  split
  · split
    · exact (addImport_tends h _ _).mono fun _ _ _ hsymbols => hsymbols ▸ howner.grown (.addImport ..)
    · exact .pure howner
  · exact .pure howner

theorem subprogramSpecification_tends (hcalls : Grammar.Tend orderly budget) (node : NodeId) (isGeneric : Bool) :
    Tends orderly budget (subprogramSpecification node isGeneric) parser fun header later =>
      ∃ kind, later.symbols.Unpublished header.symbol kind := by
  refine .skip hcalls fun start _ => .skip hcalls fun kind _ => .skip hcalls fun name _ => ?_
  refine .skip hcalls fun earlier _ => ?_
  refine .bind (declare_tends hcalls name _ node) fun symbol declared howner => ?_
  refine .bind (.of_finds hcalls (openRegion_finds .subprogram (some symbol))) fun _ opened hsymbols => ?_
  have hkind : opened.symbols.innermost.kind.importsByUse = false := hsymbols ▸ rfl
  replace howner := howner.grown (.openRegion declared.symbols .subprogram (some symbol))
  rw [← hsymbols] at howner
  refine .bind (importFormals_tends hkind _ earlier howner) fun _ later howner => ?_
  refine .builds hcalls formalPart_builds fun parameters later hmade => ?_
  replace howner := howner.grown hmade.grown
  refine .builds hcalls (resultMark_builds kind) fun result later hmade => ?_
  replace howner := howner.grown hmade.grown
  refine .bind (.of_finds hcalls (add_finds _ _)) fun spec later ⟨hsymbols, _⟩ => .pure ?_
  exact ⟨_, hsymbols ▸ howner⟩

instance (node : NodeId) (isGeneric : Bool) : Maintains orderly (subprogramSpecification node isGeneric) :=
  ⟨fun hcalls _ => (subprogramSpecification_tends hcalls node isGeneric).mono fun _ _ _ _ => trivial⟩

instance : Maintains orderly subprogramDeclaration := by unfold subprogramDeclaration; infer_instance

instance : Maintains orderly subprogramRenaming := by unfold subprogramRenaming; infer_instance

instance : Maintains orderly subprogramStub := by unfold subprogramStub; infer_instance

instance : Maintains orderly bodyStub := .skip fun kind => by split <;> infer_instance

instance : Maintains orderly statements := by unfold statements; infer_instance

instance : Maintains orderly exceptionChoice := by unfold exceptionChoice; infer_instance

instance : Maintains orderly exceptionHandler := by unfold exceptionHandler; infer_instance

instance : Maintains orderly exceptionPart := by unfold exceptionPart; infer_instance

instance : Maintains orderly handledStatements := by unfold handledStatements; infer_instance

instance : Maintains orderly nullStatement := by unfold nullStatement; infer_instance

instance : Maintains orderly assignment := by unfold assignment; infer_instance

instance : Maintains orderly procedureCall := by unfold procedureCall; infer_instance

instance : Maintains orderly optionalExpandedName := by unfold optionalExpandedName; infer_instance

instance (target : NodeId) : Maintains orderly (namesEnclosingLoop target) := .skip fun named => by
  split <;> infer_instance

instance (statement : NodeId) (target : Option NodeId) : Maintains orderly (checkExit statement target) :=
  .skip fun isInside => by
    split
    · cases target <;> infer_instance
    · infer_instance

instance : Maintains orderly exitStatement := by unfold exitStatement; infer_instance

instance : Maintains orderly returnValue := by unfold returnValue; infer_instance

instance : Maintains orderly returnStatement := by unfold returnStatement; infer_instance

instance : Maintains orderly raiseStatement := by unfold raiseStatement; infer_instance

instance : Maintains orderly gotoStatement := by unfold gotoStatement; infer_instance

instance : Maintains orderly conditional := by unfold conditional; infer_instance

instance : Maintains orderly ifStatement := by unfold ifStatement; infer_instance

instance : Maintains orderly caseAlternative := by unfold caseAlternative; infer_instance

instance : Maintains orderly caseStatement := by unfold caseStatement; infer_instance

instance (label : LabelSymbol) : Maintains orderly (labelEnd label) := by
  unfold labelEnd
  split <;> infer_instance

instance : Maintains orderly loopScheme := .skip fun kind => by split <;> infer_instance

instance (node : NodeId) (scheme : LoopScheme Nat) : Maintains orderly (declareLoopParameter node scheme) := by
  unfold declareLoopParameter
  split <;> infer_instance

instance (start : Nat) (node : NodeId) (label : LabelSymbol) : Maintains orderly (loopStatement start node label) :=
  .skip fun scheme => .skip fun _ => .skip fun _ => by infer_instance

instance (start : Nat) (node : NodeId) (label : LabelSymbol) : Maintains orderly (blockStatement start node label) :=
  .skip fun _ => .skip fun declarations => .skip fun _ => by infer_instance

instance : Maintains orderly namedCompound :=
  .skip fun start => .skip fun label => .skip fun _ => .skip fun node => .skip fun symbol => .skip fun kind => by
    split <;> infer_instance

instance : Maintains orderly unnamedLoop := by unfold unnamedLoop; infer_instance

instance : Maintains orderly unnamedBlock := by unfold unnamedBlock; infer_instance

instance : Maintains orderly nameStatement := by unfold nameStatement; infer_instance

instance : Maintains orderly unlabeledStatement := .skip fun kind => by split <;> infer_instance

instance (node : NodeId) : Maintains orderly (statementLabel node) := by unfold statementLabel; infer_instance

instance : Maintains orderly labeledStatement := by unfold labeledStatement; infer_instance

instance : Maintains orderly statement := by unfold statement; infer_instance

instance : Maintains orderly rejectSeparate := by unfold rejectSeparate; infer_instance

instance : Maintains orderly subprogramBody :=
  .skip fun start => .skip fun node => .skip fun header => .skip fun _ => .skip fun _ => .skip fun declarations => by
    infer_instance

theorem packageRenaming_tends (hcalls : Grammar.Tend orderly budget) :
    Tends orderly budget packageRenaming parser fun _ _ => True := by
  refine .skip hcalls fun start _ => .skip hcalls fun _ _ => .skip hcalls fun name _ => ?_
  refine .skip hcalls fun renamed _ => .skip hcalls fun node _ => ?_
  refine .bind (declare_tends hcalls name .package node) fun synonym declared howner => ?_
  refine .reads hcalls (classify_reads renamed) fun named => ?_
  exact .bind (publishAs_tends howner named.1) fun _ _ _ => .pure trivial

instance : Maintains orderly packageRenaming := ⟨fun hcalls _ => packageRenaming_tends hcalls⟩

instance : Maintains orderly renamingDeclaration := .skip fun kind => by split <;> infer_instance

instance : Maintains orderly privatePart := by unfold privatePart; infer_instance

theorem packageSpecification_tends (hcalls : Grammar.Tend orderly budget) (declaring : Option NodeId)
    (kind : SymbolKind) :
    Tends orderly budget (packageSpecification declaring kind) parser fun value later =>
      kind = .genericPackage → later.symbols.MayPublish value.2 := by
  refine .skip hcalls fun start _ => .skip hcalls fun _ _ => .skip hcalls fun name _ => ?_
  refine .skip hcalls fun _ _ => .skip hcalls fun isInstance _ => ?_
  dsimp only
  split
  · exact .rejected
  · refine .skip hcalls fun node _ => ?_
    refine .bind (declare_tends hcalls name kind _) fun symbol declared howner => .reached fun hdeclared => ?_
    have hfiled : declared.symbols.Filed := hdeclared.holds.wellFormed.filed
    refine .bind (.of_finds hcalls (opening_finds .package (some symbol) hfiled)) fun _ later hwithin => ?_
    refine .builds hcalls (declarativeItems_builds _) fun visible later hmade => ?_
    replace hwithin := hwithin.made hmade rfl rfl
    refine .bind (.of_finds hcalls (privatePart_finds hwithin)) fun hidden later hwithin => ?_
    replace howner := howner.grown hwithin.grown
    refine .builds hcalls (expect_passes _) fun _ later hmade => ?_
    replace howner := howner.grown hmade.grown
    refine .builds hcalls (endName_passes _) fun endName inside hmade => ?_
    replace howner := howner.grown hmade.grown
    refine .bind (.of_finds hcalls closeRegion_finds) fun members closed hsymbols => .reached fun hclosed => ?_
    replace howner : closed.symbols.Unpublished symbol kind := hsymbols ▸ howner.closeRegion
    refine .bind (publish_tends (hclosed.holds.mayPublish howner) members) fun _ later hpublished => ?_
    refine .bind (.of_finds hcalls (fill_finds _ _ _)) fun _ later ⟨hsame, _⟩ => .pure fun hgeneric => ?_
    subst hgeneric
    rw [hsame, hpublished]
    exact hclosed.holds.mayPublish_publish howner members

instance (declaring : Option NodeId) (kind : SymbolKind) : Maintains orderly (packageSpecification declaring kind) :=
  ⟨fun hcalls _ => (packageSpecification_tends hcalls declaring kind).mono fun _ _ _ _ => trivial⟩

instance : Maintains orderly packageDeclaration := by unfold packageDeclaration; infer_instance

instance (name : Name) : Maintains orderly (bodyOwner name) := .skip fun resolution => by split <;> infer_instance

theorem openBody_tends (hcalls : Grammar.Tend orderly budget) (scope : Option SymbolId) :
    Tends orderly budget (openBody scope) parser fun _ _ => True := by
  refine .bind (.of_finds hcalls (openRegion_finds .packageBody scope)) fun _ opened hsymbols => ?_
  cases scope with
  | none => exact .pure trivial
  | some owner => exact (addImport_tends (hsymbols ▸ rfl) owner .body).mono fun _ _ _ _ => trivial

instance (scope : Option SymbolId) : Maintains orderly (openBody scope) := ⟨fun hcalls _ => openBody_tends hcalls scope⟩

instance : Maintains orderly packageBody :=
  .skip fun start => .skip fun _ => .skip fun _ => .skip fun name => .skip fun _ => .skip fun _ => by infer_instance

instance : Maintains orderly formalObject := by unfold formalObject; infer_instance

instance (discriminated : Bool) : Maintains orderly (formalTypeDefinition discriminated) := .skip fun kind => by
  split <;> infer_instance

instance : Maintains orderly formalType :=
  .skip fun start => .skip fun _ => .skip fun name => .skip fun discriminated => .skip fun _ => by infer_instance

instance : Maintains orderly formalDefault := by unfold formalDefault; infer_instance

instance : Maintains orderly formalSubprogram := by unfold formalSubprogram; infer_instance

theorem genericSubprogram_tends (hcalls : Grammar.Tend orderly budget) (node : NodeId) :
    Tends orderly budget (genericSubprogram node) parser fun value later => later.symbols.MayPublish value.2 := by
  refine .bind (subprogramSpecification_tends hcalls node true) fun header inside ⟨_, howner⟩ => ?_
  refine .bind (.of_finds hcalls closeRegion_finds) fun _ closed hsymbols => .reached fun hclosed => .pure ?_
  exact hclosed.holds.mayPublish (hsymbols ▸ howner.closeRegion)

theorem genericUnit_tends (hcalls : Grammar.Tend orderly budget) (node : NodeId) :
    Tends orderly budget (genericUnit node) parser fun value later => later.symbols.MayPublish value.2 := by
  refine .skip hcalls fun isPackage _ => ?_
  split
  · exact (packageSpecification_tends hcalls (some node) .genericPackage).mono fun _ _ _ h => h rfl
  · exact genericSubprogram_tends hcalls node

theorem genericDeclaration_tends (hcalls : Grammar.Tend orderly budget) :
    Tends orderly budget genericDeclaration parser fun _ _ => True := by
  refine .skip hcalls fun start _ => .skip hcalls fun _ _ => .skip hcalls fun node _ => ?_
  refine .skip hcalls fun _ _ => .skip hcalls fun formals _ => ?_
  refine .bind (genericUnit_tends hcalls node) fun unit later howner => ?_
  refine .bind (.of_finds hcalls (expect_symbols_finds .semicolon)) fun _ inside hsymbols => ?_
  rw [← hsymbols] at howner
  refine .bind (.of_finds hcalls closeRegion_finds) fun members closed hsymbols => ?_
  replace howner : closed.symbols.MayPublish unit.2 := hsymbols ▸ howner.closeRegion
  refine .bind (publish_tends howner _) fun _ _ _ => .skip hcalls fun _ _ => .skip hcalls fun _ _ => .pure trivial

instance : Maintains orderly genericDeclaration := ⟨fun hcalls _ => genericDeclaration_tends hcalls⟩

instance : Maintains orderly genericKind := .skip fun kind => by split <;> infer_instance

instance (kind : GenericKind) : Maintains orderly (instanceDesignator kind) := by
  cases kind <;> unfold instanceDesignator <;> infer_instance

instance (template : NodeId) : Maintains orderly (packageTemplate template) := .skip fun named => by
  split <;> infer_instance

theorem genericInstantiation_tends (hcalls : Grammar.Tend orderly budget) :
    Tends orderly budget genericInstantiation parser fun _ _ => True := by
  refine .skip hcalls fun start _ => .skip hcalls fun kind _ => .skip hcalls fun name _ => ?_
  refine .skip hcalls fun _ _ => .skip hcalls fun _ _ => .skip hcalls fun template _ => ?_
  refine .skip hcalls fun actuals _ => .skip hcalls fun _ _ => .skip hcalls fun node _ => ?_
  refine .bind (declare_tends hcalls name kind.2 node) fun symbol declared howner => ?_
  refine .reads hcalls (packageTemplate_reads template) fun target => ?_
  exact .bind (publishAs_tends howner target) fun _ _ _ => .pure trivial

instance : Maintains orderly genericInstantiation := ⟨fun hcalls _ => genericInstantiation_tends hcalls⟩

end Grammar

end AdaSyntax
