import AdaSyntax.Proofs.Sight.Declaration

namespace AdaSyntax

namespace Grammar

open Program

variable {seen : Nat → Prop} {start : Nat}

instance : Heedful statements := items_heedful (by decide)

instance : Heedful exceptionChoice := ⟨fun _ => by
  refine position_minds.bind fun start hstart => .skip fun isOthers => ?_
  split
  · exact add_minds hstart
  · exact .of_heedful _⟩

instance : Heedful exceptionHandler :=
  ⟨fun _ => position_minds.bind fun _ hstart => .skip fun _ => .skip fun _ => .skip fun _ => .skip fun _ =>
    add_minds hstart⟩

instance : Heedful exceptionPart := ⟨fun _ => .skip fun _ => .of_heedful _⟩

instance : Heedful handledStatements :=
  ⟨fun _ => position_minds.bind fun _ hstart => .skip fun _ => .skip fun _ => add_minds hstart⟩

instance : Heedful nullStatement :=
  ⟨fun _ => position_minds.bind fun _ hstart => .skip fun _ => .skip fun _ => add_minds hstart⟩

instance : Heedful assignment :=
  ⟨fun _ => position_minds.bind fun _ hstart => .skip fun _ => .skip fun _ => .skip fun _ => .skip fun _ =>
    add_minds hstart⟩

instance : Heedful procedureCall :=
  ⟨fun _ => position_minds.bind fun _ hstart => .skip fun _ => .skip fun _ => add_minds hstart⟩

instance : Heedful optionalExpandedName := ⟨fun _ => by
  refine .skip fun isName => ?_
  split
  · exact .skip fun name => .done trivial
  · exact .done trivial⟩

instance (target : NodeId) : Heedful (namesEnclosingLoop target) := ⟨fun _ => by
  refine .skip fun named => ?_
  split
  · exact .of_heedful (.step (.enclosingLoop _))
  · exact .done trivial⟩

instance (statement : NodeId) (target : Option NodeId) : Heedful (checkExit statement target) := ⟨fun _ => by
  refine .skip fun isInside => ?_
  split
  · split
    · refine .skip fun isEnclosing => ?_
      split
      · exact .done trivial
      · exact find_minds _ nofun
    · exact .done trivial
  · exact find_minds _ nofun⟩

instance : Heedful exitStatement :=
  ⟨fun _ => position_minds.bind fun _ hstart => .skip fun _ => .skip fun _ => .skip fun _ => .skip fun _ =>
    .add hstart (unnamed rfl) fun _ => .skip fun _ => .done trivial⟩

instance : Heedful returnValue := ⟨fun _ => by
  refine .skip fun isEmpty => ?_
  split
  · exact .done trivial
  · exact .skip fun value => .done trivial⟩

instance : Heedful returnStatement :=
  ⟨fun _ => position_minds.bind fun _ hstart => .skip fun _ => .skip fun _ => .skip fun _ => add_minds hstart⟩

instance : Heedful raiseStatement :=
  ⟨fun _ => position_minds.bind fun _ hstart => .skip fun _ => .skip fun _ => .skip fun _ => add_minds hstart⟩

instance : Heedful gotoStatement :=
  ⟨fun _ => position_minds.bind fun _ hstart => .skip fun _ => .skip fun _ => .skip fun _ => add_minds hstart⟩

instance : Heedful conditional :=
  ⟨fun _ => position_minds.bind fun _ hstart => .skip fun _ => .skip fun _ => .skip fun _ => .skip fun _ =>
    add_minds hstart⟩

instance : Heedful ifStatement :=
  ⟨fun _ => position_minds.bind fun _ hstart => .skip fun _ => .skip fun _ => .skip fun _ => .skip fun _ =>
    add_minds hstart⟩

instance : Heedful caseAlternative :=
  ⟨fun _ => position_minds.bind fun _ hstart => .skip fun _ => .skip fun _ => .skip fun _ => .skip fun _ =>
    add_minds hstart⟩

instance : Heedful caseStatement :=
  ⟨fun _ => position_minds.bind fun _ hstart => .skip fun _ => .skip fun _ => .skip fun _ => .skip fun _ =>
    .skip fun _ => add_minds hstart⟩

def LabelSymbol.SeenIn (seen : Nat → Prop) (label : LabelSymbol) : Prop :=
  ∀ name ∈ (label.map (·.1)).toList, seen name.place

instance (label : LabelSymbol) : Heedful (labelEnd label) := by
  unfold labelEnd
  split <;> infer_instance

theorem loopScheme_minds : loopScheme.Minds seen fun scheme => ∀ name ∈ scheme.names, seen name.place := by
  refine .skip fun kind => ?_
  split
  · exact .skip fun _ => .skip fun condition => .done nofun
  · refine .skip fun _ => definingIdentifier_minds.bind fun parameter hparameter => ?_
    exact .skip fun _ => .skip fun reverse => .skip fun range => .done (one_name hparameter)
  · exact .done nofun

theorem declareLoopParameter_minds (node : NodeId) {scheme : LoopScheme Nat}
    (hscheme : ∀ name ∈ scheme.names, seen name.place) : (declareLoopParameter node scheme).Minds seen fun _ => True := by
  cases scheme with
  | forLoop parameter reverse range => exact declareAll_minds hscheme _ _
  | _ => exact .done trivial

theorem loopStatement_minds (hstart : seen start) (node : NodeId) {label : LabelSymbol} (hlabel : label.SeenIn seen) :
    (loopStatement start node label).Minds seen fun _ => True := by
  refine loopScheme_minds.bind fun scheme hscheme => .skip fun _ => ?_
  refine (declareLoopParameter_minds node hscheme).bind fun _ _ => .skip fun _ => .skip fun statements => ?_
  refine .skip fun _ => .skip fun endName => .skip fun _ => .skip fun _ => ?_
  exact .fill hstart (List.forall_mem_append.mpr ⟨hlabel, hscheme⟩) fun _ => .done trivial

theorem blockStatement_minds (hstart : seen start) (node : NodeId) {label : LabelSymbol} (hlabel : label.SeenIn seen) :
    (blockStatement start node label).Minds seen fun _ => True := by
  refine .skip fun _ => .skip fun declarations => .skip fun _ => .skip fun body => .skip fun _ => ?_
  exact .skip fun endName => .skip fun _ => .skip fun _ => .fill hstart hlabel fun _ => .done trivial

instance : Heedful namedCompound := ⟨fun _ => by
  refine position_minds.bind fun start hstart => definingIdentifier_minds.bind fun label hlabel => .skip fun _ => ?_
  refine (reserve_minds hstart).bind fun node _ => (declare_minds hlabel _ _).bind fun symbol _ => ?_
  refine .skip fun kind => ?_
  split
  · exact loopStatement_minds hstart node (one_name hlabel)
  · exact loopStatement_minds hstart node (one_name hlabel)
  · exact loopStatement_minds hstart node (one_name hlabel)
  · exact blockStatement_minds hstart node (one_name hlabel)
  · exact blockStatement_minds hstart node (one_name hlabel)
  · exact .reject⟩

instance : Heedful unnamedLoop :=
  ⟨fun _ => position_minds.bind fun _ hstart => (reserve_minds hstart).bind fun node _ =>
    loopStatement_minds hstart node nofun⟩

instance : Heedful unnamedBlock :=
  ⟨fun _ => position_minds.bind fun _ hstart => (reserve_minds hstart).bind fun node _ =>
    blockStatement_minds hstart node nofun⟩

instance : Heedful nameStatement := ⟨fun _ => by
  have : Heedful (followedBy .identifier .colon) := followedBy_heedful (by decide)
  have : Heedful (firstOf [.assignment, .procedureCall]) := firstOf_heedful (by decide)
  exact .skip fun _ => .of_heedful _⟩

instance : Heedful unlabeledStatement := ⟨fun _ => by
  refine .skip fun kind => ?_
  split <;> exact .of_heedful _⟩

theorem statementLabel_minds (node : NodeId) : (statementLabel node).Minds seen fun label => seen label.place :=
  .skip fun _ => definingIdentifier_minds.bind fun _ hlabel => .skip fun _ =>
    (declare_minds hlabel _ _).bind fun _ _ => .done hlabel

instance : Heedful labeledStatement := ⟨fun _ => by
  refine position_minds.bind fun start hstart => (reserve_minds hstart).bind fun node _ => ?_
  refine (whileAt_minds (statementLabel_minds node)).bind fun labels hlabels => .skip fun statement => ?_
  exact .fill hstart hlabels fun _ => .done trivial⟩

instance : Heedful statement := ⟨fun _ => .nested <| .skip fun _ => .of_heedful _⟩

instance : Heedful rejectSeparate := ⟨fun _ => by
  refine .skip fun isSeparate => ?_
  split
  · exact .reject
  · exact .done trivial⟩

instance : Heedful subprogramBody := ⟨fun _ => by
  refine position_minds.bind fun start hstart => (reserve_minds hstart).bind fun node _ => ?_
  refine (subprogramSpecification_minds node false).bind fun header hname => .skip fun _ => .skip fun _ => ?_
  refine .skip fun declarations => .skip fun _ => .skip fun body => .skip fun _ => .skip fun endName => ?_
  exact .skip fun _ => .skip fun _ => .fill hstart (unnamed rfl) fun _ => .done trivial⟩

instance : Heedful privatePart := by
  unfold privatePart
  have : Heedful (do .step .markPrivate; declarativeItems .packageSpecification : Program (List NodeId)) :=
    ⟨fun _ => .skip fun _ => .of_heedful _⟩
  infer_instance

instance (owner : Option NodeId) (kind : SymbolKind) : Heedful (packageSpecification owner kind) := ⟨fun _ => by
  refine position_minds.bind fun start hstart => .skip fun _ => definingIdentifier_minds.bind fun name hname => ?_
  refine .skip fun _ => .skip fun isInstance => ?_
  dsimp only
  split
  · exact True.intro
  · refine (reserve_minds hstart).bind fun node _ => (declare_minds hname _ _).bind fun symbol _ => ?_
    refine .skip fun _ => .skip fun visible => .skip fun hidden => .skip fun _ => .skip fun endName => ?_
    exact .skip fun members => .skip fun _ => .fill hstart (one_name hname) fun _ => .done trivial⟩

instance : Heedful packageDeclaration := ⟨fun _ => .skip fun _ => .skip fun _ => .done trivial⟩

instance (name : Name) : Heedful (bodyOwner name) := ⟨fun _ => by
  refine .skip (p := .step (.resolve name)) fun resolution => ?_
  split <;> exact .done trivial⟩

instance (owner : Option SymbolId) : Heedful (openBody owner) := ⟨fun _ => by
  refine .skip fun _ => ?_
  split
  · exact .of_heedful _
  · exact .done trivial⟩

instance : Heedful packageBody := ⟨fun _ => by
  refine position_minds.bind fun start hstart => .skip fun _ => .skip fun _ => ?_
  refine definingIdentifier_minds.bind fun name hname => .skip fun _ => .skip fun _ => .skip fun owner => ?_
  refine .skip fun _ => .skip fun declarations => .skip fun body => .skip fun _ => .skip fun endName => ?_
  exact .skip fun _ => .skip fun _ => add_minds hstart (one_name hname)⟩

instance : Heedful formalObject := ⟨fun _ => by
  refine position_minds.bind fun start hstart => identifierList_minds.bind fun names hnames => .skip fun _ => ?_
  refine .skip fun mode => .skip fun mark => .skip fun initial => .skip fun _ => ?_
  exact .add hstart hnames fun node => (declareAll_minds hnames _ _).bind fun _ _ => .done trivial⟩

instance (discriminated : Bool) : Heedful (formalTypeDefinition discriminated) := ⟨fun _ => by
  refine .skip fun kind => ?_
  split
  · exact .skip fun _ => .skip fun _ => .done trivial
  · exact .skip fun _ => .skip fun _ => .done trivial
  · exact .skip fun _ => .skip fun _ => .done trivial
  · exact .skip fun _ => .skip fun _ => .done trivial
  · exact .skip fun _ => .skip fun _ => .done trivial
  · exact .skip fun _ => .skip fun _ => .done trivial
  · exact .skip fun _ => .done trivial
  · exact .skip fun _ => .done trivial
  · exact .reject⟩

instance : Heedful formalType := ⟨fun _ => by
  refine position_minds.bind fun start hstart => .skip fun _ => definingIdentifier_minds.bind fun name hname => ?_
  refine .skip fun discriminated => .skip fun _ => .skip fun discriminants => .skip fun _ => ?_
  refine .skip fun definition => .skip fun _ => .skip fun _ => .add hstart (one_name hname) fun node => ?_
  exact (declareType_minds hname _ _ _).bind fun _ _ => .done trivial⟩

instance : Heedful formalDefault := ⟨fun _ => by
  refine .skip fun isGiven => ?_
  split
  · refine .skip fun isBox => ?_
    split
    · exact .done trivial
    · exact .skip fun name => .done trivial
  · exact .done trivial⟩

instance : Heedful formalSubprogram := ⟨fun _ => by
  refine position_minds.bind fun start hstart => .skip fun _ => (reserve_minds hstart).bind fun node _ => ?_
  refine (subprogramSpecification_minds node false).bind fun header _ => .skip fun _ => .skip fun default => ?_
  exact .skip fun _ => .fill hstart (unnamed rfl) fun _ => .done trivial⟩

instance (node : NodeId) : Heedful (genericSubprogram node) :=
  ⟨fun _ => (subprogramSpecification_minds node true).bind fun _ _ => .skip fun _ => .done trivial⟩

instance (node : NodeId) : Heedful (genericUnit node) := ⟨fun _ => .skip fun _ => .of_heedful _⟩

instance : Heedful genericDeclaration := ⟨fun _ => by
  have : Heedful (firstOf Rule.genericFormals) := firstOf_heedful (by decide)
  have : Heedful (.items .genericFormalPart .unrecognizedDeclaration (firstOf Rule.genericFormals)) := items_heedful (by decide)
  refine position_minds.bind fun start hstart => .skip fun _ => (reserve_minds hstart).bind fun node _ => ?_
  refine .skip fun _ => .skip fun formals => .skip fun unit => .skip fun _ => .skip fun members => ?_
  exact .skip (p := .step (.publish _ _)) fun _ => .skip (p := .step (.bind _)) fun _ =>
    .fill hstart (unnamed rfl) fun _ => .done trivial⟩

instance : Heedful genericKind := ⟨fun _ => by
  refine .skip fun kind => ?_
  split
  · exact .skip fun _ => .done trivial
  · exact .skip fun _ => .done trivial
  · exact .skip fun _ => .done trivial
  · exact .reject⟩

theorem instanceDesignator_minds (kind : GenericKind) :
    (instanceDesignator kind).Minds seen fun name => seen name.place := by
  cases kind with
  | function => exact functionDesignator_minds
  | _ => exact definingIdentifier_minds

instance (template : NodeId) : Heedful (packageTemplate template) := ⟨fun _ => by
  refine .skip fun named => ?_
  split <;> exact .done trivial⟩

instance : Heedful genericInstantiation := ⟨fun _ => by
  refine position_minds.bind fun start hstart => .skip fun kind => ?_
  refine (instanceDesignator_minds _).bind fun name hname => .skip fun _ => .skip fun _ => .skip fun template => ?_
  refine .skip fun actuals => .skip fun _ => .add hstart (one_name hname) fun node => ?_
  exact (declare_minds hname _ _).bind fun symbol _ => .skip fun target => .skip fun _ => .done trivial⟩

theorem withUnit_minds (clause : NodeId) {unit : DefiningName Nat} (hunit : seen unit.place) :
    (withUnit clause unit).Minds seen fun _ => True := by
  refine .skip (p := .step (.libraryUnit _)) fun found => ?_
  split
  · exact .of_heedful _
  · exact declareAll_minds (one_name hunit) _ _

theorem withUnits_minds (clause : NodeId) {units : List (DefiningName Nat)}
    (hunits : ∀ unit ∈ units, seen unit.place) : (withUnits clause units).Minds seen fun _ => True := by
  induction units with
  | nil => exact .done trivial
  | cons unit units ih =>
    obtain ⟨hunit, hunits⟩ := List.forall_mem_cons.mp hunits
    exact (withUnit_minds clause hunit).bind fun _ _ => ih hunits

instance : Heedful withClause := ⟨fun _ => by
  refine position_minds.bind fun start hstart => .skip fun _ => identifierList_minds.bind fun units hunits => ?_
  exact .skip fun _ => .add hstart hunits fun node => (withUnits_minds node hunits).bind fun _ _ => .done trivial⟩

instance : Heedful contextItems := ⟨fun _ => by
  refine .loop (fun _ => True) trivial fun items _ => .skip fun kind => ?_
  split
  case h_1 item hitem =>
    have : Heedful item := by
      unfold contextItem? at hitem
      split at hitem <;> cases hitem <;> infer_instance
    exact .skip fun node => .done trivial
  case h_2 => exact .done trivial⟩

instance (parent : NodeId) : Heedful (importParent parent) := ⟨fun _ => by
  refine .skip fun named => ?_
  split
  · exact .of_heedful (.step (.addImport _ _))
  · exact .of_heedful (.step (.addImport _ _))
  · exact .done trivial⟩

instance : Heedful subunit := ⟨fun _ => by
  have : Heedful (firstOf [.subprogramBody, .packageBody]) := firstOf_heedful (by decide)
  exact position_minds.bind fun start hstart => .skip fun _ => .skip fun parent => .skip fun _ =>
    .skip fun body => add_minds hstart⟩

instance (ids : List SymbolId) : Heedful (moveToLibrary ids) := ⟨fun seen => by
  induction ids with
  | nil => exact .done trivial
  | cons id ids ih =>
    refine .skip (p := .step (.kindOf id)) fun kind => .skip (p := .step (.declaredHere id)) fun known => ?_
    dsimp only
    split
    · exact .skip (p := .step (.bind id)) fun _ => ih
    · exact ih⟩

instance : Heedful compilationUnit := ⟨fun _ => by
  have : Heedful (firstOf Rule.libraryUnits) := firstOf_heedful (by decide)
  refine position_minds.bind fun start hstart => .skip fun _ => .skip fun context => .skip fun isSubunit => ?_
  dsimp only
  split
  · refine .skip fun unit => .skip fun members => ?_
    split
    · exact .skip fun _ => add_minds hstart
    · exact add_minds hstart
  · refine .skip fun unit => .skip fun members => ?_
    split
    · exact .skip fun _ => add_minds hstart
    · exact add_minds hstart⟩

instance : Heedful compilationUnits := ⟨fun _ => by
  refine .loop (fun _ => True) trivial fun units _ => .skip fun isEnd => ?_
  split
  · exact .done trivial
  · refine .skip fun found => ?_
    split <;> exact .done trivial⟩

instance (rule : Rule) : Heedful (ofRule rule) := by
  cases rule <;> simp only [ofRule] <;> infer_instance

instance {α : Type} (production : Production α) : Heedful (ofProduction production) := by
  cases production with
  | rule rule => exact inferInstanceAs (Heedful (ofRule rule))
  | simpleExpression => exact inferInstanceAs (Heedful simpleExpression)
  | componentList => exact inferInstanceAs (Heedful componentList)

end Grammar

end AdaSyntax
