import AdaSyntax.Compilation
import AdaSyntax.Proofs.Copied.Expression

namespace AdaSyntax

variable {tokens : Array Token} {α : Type}

namespace Grammar

open Program

instance : Textual Definition := ⟨fun tokens definition => Textual.isCopy tokens definition.literals⟩

instance : Textual TypeView := ⟨fun tokens view => Textual.isCopy tokens view.decl.texts⟩

instance : Textual Header := ⟨fun tokens header => Textual.isCopy tokens header.name⟩

instance (node : NodeId) (shape : TypeShape) (literals : List (DefiningName Nat)) [h : Copy tokens literals] :
    Copy tokens (Definition.mk node shape literals) :=
  ⟨h.isCopy⟩

instance (decl : Decl Nat) (kind : SymbolKind) (shape : TypeShape) (literals : List (DefiningName Nat))
    [h : Copy tokens decl.texts] : Copy tokens (TypeView.mk decl kind shape literals) :=
  ⟨h.isCopy⟩

instance (view : TypeView) [h : Copy tokens view] : Copy tokens view.decl.texts := ⟨h.isCopy⟩

instance (spec : NodeId) (symbol : SymbolId) (name : DefiningName Nat) [h : Copy tokens name] :
    Copy tokens (Header.mk spec symbol name) :=
  ⟨h.isCopy⟩

instance (header : Header) [h : Copy tokens header] : Copy tokens header.name := ⟨h.isCopy⟩

instance : Copies tokens discriminantSpecification := by unfold discriminantSpecification; infer_instance

instance : Copies tokens discriminantPart := by
  unfold discriminantPart
  repeat refine .skip fun _ _ => ?_
  infer_instance

instance (present : Bool) : Copies tokens (optionalDiscriminants present) := by
  unfold optionalDiscriminants; infer_instance

instance : Copies tokens componentDeclaration := by
  unfold componentDeclaration
  repeat refine .skip fun _ _ => ?_
  infer_instance

instance : Copies tokens variant := by
  unfold variant
  repeat refine .skip fun _ _ => ?_
  infer_instance

instance : Copies tokens variantPart := by unfold variantPart; infer_instance

instance : Copies tokens componentList := by
  unfold componentList
  repeat refine .skip fun _ _ => ?_
  infer_instance

instance (start : Nat) : Copies tokens (nullRecord start) := by unfold nullRecord; infer_instance

instance : Copies tokens recordDefinition := by
  unfold recordDefinition
  repeat refine .skip fun _ _ => ?_
  infer_instance

instance : Copies tokens enumerationLiteral := .skip fun kind _ => by split <;> infer_instance

instance : Copies tokens enumerationDefinition := by unfold enumerationDefinition; infer_instance

instance : Copies tokens integerDefinition := by unfold integerDefinition; infer_instance

instance : Copies tokens floatDefinition := by unfold floatDefinition; infer_instance

instance : Copies tokens fixedDefinition := by unfold fixedDefinition; infer_instance

instance : Copies tokens derivedDefinition := by unfold derivedDefinition; infer_instance

instance (discriminated : Bool) : Copies tokens (typeDefinition discriminated) := .skip fun kind _ => by
  split <;> infer_instance

instance (name : DefiningName Nat) [Copy tokens name] (discriminants : List NodeId) (discriminated : Bool) :
    Copies tokens (privateView name discriminants discriminated) := by
  unfold privateView; infer_instance

instance (name : DefiningName Nat) [Copy tokens name] (discriminants : List NodeId) (discriminated : Bool) :
    Copies tokens (fullView name discriminants discriminated) := by
  unfold fullView; infer_instance

instance (name : DefiningName Nat) [Copy tokens name] (discriminants : List NodeId) (discriminated : Bool) :
    Copies tokens (typeView name discriminants discriminated) := by
  unfold typeView; infer_instance

instance : Copies tokens typeDeclaration := by
  unfold typeDeclaration
  repeat refine .skip fun _ _ => ?_
  infer_instance

instance : Copies tokens mode := by unfold mode; infer_instance

instance : Copies tokens parameterSpecification := by unfold parameterSpecification; infer_instance

instance : Copies tokens formalPart := by unfold formalPart; infer_instance

instance : Copies tokens subprogramKind := .skip fun kind _ => by split <;> infer_instance

instance (kind : SubprogramKind) : Copies tokens (subprogramDesignator kind) := by
  cases kind <;> unfold subprogramDesignator <;> infer_instance

instance (kind : SubprogramKind) : Copies tokens (resultMark kind) := by
  cases kind <;> unfold resultMark <;> infer_instance

instance (kind : SymbolKind) (earlier : Resolution) : Copies tokens (importFormals kind earlier) := by
  unfold importFormals
  split <;> infer_instance

instance (node : NodeId) (isGeneric : Bool) : Copies tokens (subprogramSpecification node isGeneric) := by
  unfold subprogramSpecification
  repeat refine .skip fun _ _ => ?_
  infer_instance

instance : Copies tokens subprogramDeclaration := by unfold subprogramDeclaration; infer_instance

instance (context : Context) : Copies tokens (declarativeItems context) := by unfold declarativeItems; infer_instance

instance : Copies tokens declarativePart := by unfold declarativePart; infer_instance

instance (isConstant : Bool) : Copies tokens (objectSubtype isConstant) := by unfold objectSubtype; infer_instance

instance : Copies tokens objectDeclaration := by
  unfold objectDeclaration
  repeat refine .skip fun _ _ => ?_
  infer_instance

instance : Copies tokens numberDeclaration := by unfold numberDeclaration; infer_instance

instance : Copies tokens exceptionDeclaration := by unfold exceptionDeclaration; infer_instance

instance : Copies tokens subtypeDeclaration := by
  unfold subtypeDeclaration
  repeat refine .skip fun _ _ => ?_
  infer_instance

instance : Copies tokens renamedEntity := by unfold renamedEntity; infer_instance

instance : Copies tokens objectRenamingKind := by unfold objectRenamingKind; infer_instance

instance : Copies tokens objectRenaming := by unfold objectRenaming; infer_instance

instance (synonym : SymbolId) (target : Option SymbolId) : Copies tokens (publishAs synonym target) := by
  unfold publishAs
  split <;> infer_instance

instance : Copies tokens packageRenaming := by
  unfold packageRenaming
  repeat refine .skip fun _ _ => ?_
  infer_instance

instance : Copies tokens subprogramRenaming := by unfold subprogramRenaming; infer_instance

instance : Copies tokens renamingDeclaration := .skip fun kind _ => by split <;> infer_instance

instance : Copies tokens separateTail := by unfold separateTail; infer_instance

instance : Copies tokens packageStub := by
  unfold packageStub
  repeat refine .skip fun _ _ => ?_
  infer_instance

instance : Copies tokens subprogramStub := by unfold subprogramStub; infer_instance

instance : Copies tokens bodyStub := .skip fun kind _ => by split <;> infer_instance

instance (package : NodeId) : Copies tokens (usePackage package) := .skip fun named _ => by split <;> infer_instance

instance (packages : List NodeId) : Copies tokens (usePackages packages) := by
  induction packages with
  | nil => unfold usePackages; infer_instance
  | cons package packages ih => unfold usePackages; infer_instance

instance : Copies tokens useClause := by unfold useClause; infer_instance

instance : Copies tokens pragma := by unfold pragma; infer_instance

instance : Copies tokens statements := by unfold statements; infer_instance

instance : Copies tokens exceptionChoice := by unfold exceptionChoice; infer_instance

instance : Copies tokens exceptionHandler := by unfold exceptionHandler; infer_instance

instance : Copies tokens exceptionPart := by unfold exceptionPart; infer_instance

instance : Copies tokens handledStatements := by unfold handledStatements; infer_instance

instance : Copies tokens nullStatement := by unfold nullStatement; infer_instance

instance : Copies tokens assignment := by unfold assignment; infer_instance

instance : Copies tokens procedureCall := by unfold procedureCall; infer_instance

instance : Copies tokens optionalExpandedName := by unfold optionalExpandedName; infer_instance

instance (target : NodeId) : Copies tokens (namesEnclosingLoop target) := .skip fun named _ => by
  split <;> infer_instance

instance (statement : NodeId) (target : Option NodeId) : Copies tokens (checkExit statement target) :=
  .skip fun inLoop _ => by
    split
    · split <;> infer_instance
    · infer_instance

instance : Copies tokens exitStatement := by unfold exitStatement; infer_instance

instance : Copies tokens returnValue := by unfold returnValue; infer_instance

instance : Copies tokens returnStatement := by unfold returnStatement; infer_instance

instance : Copies tokens raiseStatement := by unfold raiseStatement; infer_instance

instance : Copies tokens gotoStatement := by unfold gotoStatement; infer_instance

instance : Copies tokens conditional := by unfold conditional; infer_instance

instance : Copies tokens ifStatement := by unfold ifStatement; infer_instance

instance : Copies tokens caseAlternative := by unfold caseAlternative; infer_instance

instance : Copies tokens caseStatement := by unfold caseStatement; infer_instance

instance (label : LabelSymbol) : Copies tokens (labelEnd label) := by
  unfold labelEnd
  split <;> infer_instance

instance : Copies tokens loopScheme := .skip fun kind _ => by split <;> infer_instance

instance (node : NodeId) (scheme : LoopScheme Nat) : Copies tokens (declareLoopParameter node scheme) := by
  unfold declareLoopParameter
  split <;> infer_instance

instance (start : Nat) (node : NodeId) (label : LabelSymbol) [Copy tokens label] :
    Copies tokens (loopStatement start node label) := by
  unfold loopStatement
  repeat refine .skip fun _ _ => ?_
  infer_instance

instance (start : Nat) (node : NodeId) (label : LabelSymbol) [Copy tokens label] :
    Copies tokens (blockStatement start node label) := by
  unfold blockStatement
  repeat refine .skip fun _ _ => ?_
  infer_instance

instance : Copies tokens namedCompound :=
  .skip fun start _ => .skip fun label _ => .skip fun _ _ => .skip fun node _ => .skip fun symbol _ =>
    .skip fun kind _ => by
    split <;> infer_instance

instance : Copies tokens unnamedLoop := by unfold unnamedLoop; infer_instance

instance : Copies tokens unnamedBlock := by unfold unnamedBlock; infer_instance

instance : Copies tokens nameStatement := by unfold nameStatement; infer_instance

instance : Copies tokens unlabeledStatement := .skip fun kind _ => by split <;> infer_instance

instance (node : NodeId) : Copies tokens (statementLabel node) := by unfold statementLabel; infer_instance

instance : Copies tokens labeledStatement := by unfold labeledStatement; infer_instance

instance : Copies tokens statement := by unfold statement; infer_instance

instance : Copies tokens rejectSeparate := by unfold rejectSeparate; infer_instance

instance : Copies tokens subprogramBody := by
  unfold subprogramBody
  repeat refine .skip fun _ _ => ?_
  infer_instance

instance : Copies tokens privatePart := by unfold privatePart; infer_instance

instance (owner : Option NodeId) (kind : SymbolKind) : Copies tokens (packageSpecification owner kind) := by
  unfold packageSpecification
  repeat refine .skip fun _ _ => ?_
  dsimp only
  split
  all_goals
    repeat refine .skip fun _ _ => ?_
    infer_instance

instance : Copies tokens packageDeclaration := by unfold packageDeclaration; infer_instance

instance (name : Name) : Copies tokens (bodyOwner name) := .skip fun resolution _ => by split <;> infer_instance

instance (owner : Option SymbolId) : Copies tokens (openBody owner) := .skip fun _ _ => by split <;> infer_instance

instance : Copies tokens packageBody := by
  unfold packageBody
  repeat refine .skip fun _ _ => ?_
  infer_instance

instance : Copies tokens formalObject := by
  unfold formalObject
  repeat refine .skip fun _ _ => ?_
  infer_instance

instance (discriminated : Bool) : Copies tokens (formalTypeDefinition discriminated) := .skip fun kind _ => by
  split <;> infer_instance

instance : Copies tokens formalType := by
  unfold formalType
  repeat refine .skip fun _ _ => ?_
  infer_instance

instance : Copies tokens formalDefault := by unfold formalDefault; infer_instance

instance : Copies tokens formalSubprogram := by
  unfold formalSubprogram
  repeat refine .skip fun _ _ => ?_
  infer_instance

instance (node : NodeId) : Copies tokens (genericSubprogram node) := by unfold genericSubprogram; infer_instance

instance (node : NodeId) : Copies tokens (genericUnit node) := by unfold genericUnit; infer_instance

instance : Copies tokens genericDeclaration := by
  unfold genericDeclaration
  repeat refine .skip fun _ _ => ?_
  infer_instance

instance : Copies tokens genericKind := .skip fun kind _ => by split <;> infer_instance

instance (kind : GenericKind) : Copies tokens (instanceDesignator kind) := by
  cases kind <;> unfold instanceDesignator <;> infer_instance

instance (template : NodeId) : Copies tokens (packageTemplate template) := .skip fun named _ => by
  split <;> infer_instance

instance : Copies tokens genericInstantiation := by
  unfold genericInstantiation
  repeat refine .skip fun _ _ => ?_
  infer_instance

instance (clause : NodeId) (unit : DefiningName Nat) : Copies tokens (withUnit clause unit) := .skip fun found _ => by
  split <;> infer_instance

instance (clause : NodeId) (units : List (DefiningName Nat)) : Copies tokens (withUnits clause units) := by
  induction units with
  | nil => unfold withUnits; infer_instance
  | cons unit units ih => unfold withUnits; infer_instance

instance : Copies tokens withClause := by unfold withClause; infer_instance

theorem contextItem_copies {kind : TokenKind} {item : Program NodeId} (h : contextItem? kind = some item) :
    item.Copies tokens := by
  unfold contextItem? at h
  split at h <;> cases h <;> infer_instance

instance : Copies tokens contextItems := .loop fun items _ => .skip fun kind _ => by
  split
  · rename_i item hitem
    have hcopies : item.Copies tokens := contextItem_copies hitem
    infer_instance
  · infer_instance

instance (parent : NodeId) : Copies tokens (importParent parent) := .skip fun named _ => by split <;> infer_instance

instance : Copies tokens subunit := by unfold subunit; infer_instance

instance (ids : List SymbolId) : Copies tokens (moveToLibrary ids) := by
  induction ids with
  | nil => unfold moveToLibrary; infer_instance
  | cons id ids ih => unfold moveToLibrary; infer_instance

instance : Copies tokens compilationUnit := by
  unfold compilationUnit
  repeat refine .skip fun _ _ => ?_
  infer_instance

instance : Copies tokens compilationUnits := .loop fun units _ => .skip fun isEnd _ => by
  split
  · infer_instance
  · refine .skip fun found _ => ?_
    split <;> infer_instance

theorem ofRule_copies (rule : Rule) : (ofRule rule).Copies tokens := by
  cases rule <;> unfold ofRule <;> infer_instance

theorem ofProduction_writes (production : Production α) : (ofProduction production).Writes tokens fun _ => True := by
  cases production with
  | rule rule => exact (ofRule_copies rule).writes.mono fun _ _ => trivial
  | simpleExpression =>
    have hcopies : Copies tokens simpleExpression := inferInstance
    exact hcopies.writes.mono fun _ _ => trivial
  | componentList =>
    have hcopies : Copies tokens componentList := inferInstance
    exact hcopies.writes.mono fun _ _ => trivial

theorem call_copies (budget : Nat) (production : Production α) (parser : Parser) (h : parser.Copied tokens) :
    Parser.Copies tokens (fun _ => True) (call budget production parser) := by
  induction budget generalizing α parser with
  | zero => exact h
  | succ budget ih => exact (ofProduction_writes production).run ih _ parser h

end Grammar

theorem Parser.compile_copied {cursor : Cursor} {options : Options} {lexical : List Diagnostic}
    {compilation : Compilation} (h : (Parser.new cursor options).compile lexical = .ok compilation) :
    ∀ node ∈ compilation.tree.nodes.toList, ∀ text ∈ node.payload.texts, AdaSyntax.Copied cursor.tokens text := by
  have hunits : Program.Copies cursor.tokens Grammar.compilationUnits := inferInstance
  have hrun : Copies cursor.tokens _ (Grammar.compilationUnits.execute (new cursor options)) :=
    hunits.writes.run (Grammar.call_copies _) _ _ (Copied.new cursor options)
  unfold compile at h
  split at h
  · rename_i units later hexecute
    rw [hexecute] at hrun
    obtain rfl := Except.ok.inj h
    exact (hrun.2.push (List.forall_mem_nil _)).texts
  all_goals cases h

end AdaSyntax
