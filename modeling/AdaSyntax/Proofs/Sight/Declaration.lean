import AdaSyntax.Grammar.Generic
import AdaSyntax.Proofs.Sight.Expression

namespace AdaSyntax

namespace Grammar

open Program

variable {seen : Nat → Prop} {start : Nat}

instance : Heedful mode := ⟨fun _ => by
  refine .skip fun isIn => ?_
  split
  · refine .skip fun isOut => ?_
    split <;> exact .done trivial
  · refine .skip fun isOut => ?_
    split <;> exact .done trivial⟩

theorem one_name {name : DefiningName Nat} (h : seen name.place) : ∀ other ∈ [name], seen other.place :=
  List.forall_mem_singleton.mpr h

instance : Heedful parameterSpecification := ⟨fun _ => by
  refine position_minds.bind fun start hstart => identifierList_minds.bind fun names hnames => ?_
  refine .skip fun _ => .skip fun mode => .skip fun mark => .skip fun initial => ?_
  exact .add hstart hnames fun node => (declareAll_minds hnames _ _).bind fun _ _ => .done trivial⟩

instance : Heedful formalPart := ⟨fun _ => .skip fun _ => .of_heedful _⟩

instance : Heedful subprogramKind := ⟨fun _ => by
  refine .skip fun kind => ?_
  split
  · exact .skip fun _ => .done trivial
  · exact .skip fun _ => .done trivial
  · exact .reject⟩

theorem subprogramDesignator_minds (kind : SubprogramKind) :
    (subprogramDesignator kind).Minds seen fun name => seen name.place := by
  cases kind with
  | procedure => exact definingIdentifier_minds
  | function => exact functionDesignator_minds

instance (kind : SubprogramKind) : Heedful (resultMark kind) := by
  cases kind with
  | procedure => exact inferInstanceAs (Heedful (Program.pure none))
  | function => exact ⟨fun _ => .skip fun _ => .skip fun mark => .done trivial⟩

instance (kind : SymbolKind) (earlier : Resolution) : Heedful (importFormals kind earlier) := by
  unfold importFormals
  split <;> infer_instance

theorem subprogramSpecification_minds (node : NodeId) (isGeneric : Bool) :
    (subprogramSpecification node isGeneric).Minds seen fun header => seen header.name.place := by
  refine position_minds.bind fun start hstart => .skip fun kind => ?_
  refine (subprogramDesignator_minds kind).bind fun name hname => .skip (p := .step (.resolve _)) fun earlier => ?_
  refine (declare_minds hname _ _).bind fun symbol _ => .skip fun _ => .skip fun _ => ?_
  refine .skip fun parameters => .skip fun result => ?_
  exact .add hstart (one_name hname) fun spec => .done hname

instance : Heedful subprogramDeclaration := ⟨fun _ => by
  refine position_minds.bind fun start hstart => (reserve_minds hstart).bind fun node _ => ?_
  refine (subprogramSpecification_minds node false).bind fun header _ => .skip fun _ => .skip fun _ => ?_
  exact (fill_minds hstart).bind fun _ _ => .done trivial⟩

instance : Heedful discriminantSpecification := ⟨fun _ => by
  refine position_minds.bind fun start hstart => identifierList_minds.bind fun names hnames => ?_
  refine .skip fun _ => .skip fun mark => .skip fun initial => ?_
  exact .add hstart hnames fun node => (declareAll_minds hnames _ _).bind fun _ _ => .done trivial⟩

instance : Heedful discriminantPart :=
  ⟨fun _ => .skip fun _ => .skip fun _ => .skip fun _ => .skip fun _ => .skip fun _ =>
    .skip fun _ => .done trivial⟩

instance (present : Bool) : Heedful (optionalDiscriminants present) := by
  unfold optionalDiscriminants
  infer_instance

instance : Heedful componentDeclaration := ⟨fun _ => by
  refine position_minds.bind fun start hstart => identifierList_minds.bind fun names hnames => ?_
  refine .skip fun _ => .skip fun indication => .skip fun initial => .skip fun _ => ?_
  exact .add hstart hnames fun node => (declareAll_minds hnames _ _).bind fun _ _ => .done trivial⟩

instance : Heedful variant := ⟨fun _ => by
  refine position_minds.bind fun start hstart => .skip fun _ => .skip fun choices => .skip fun _ => ?_
  exact .skip (p := .call .componentList) fun parts => add_minds hstart⟩

instance : Heedful variantPart :=
  ⟨fun _ => position_minds.bind fun start hstart => .skip fun _ => .skip fun discriminant => .skip fun _ =>
    .skip fun variants => .skip fun _ => add_minds hstart⟩

instance : Heedful componentList := ⟨fun _ => by
  have : Heedful (followedBy .kwNull .semicolon) := followedBy_heedful (by decide)
  have : Heedful (firstOf [.componentDeclaration, .pragma]) := firstOf_heedful (by decide)
  have : Heedful (.items .componentList .unrecognizedComponent (firstOf [.componentDeclaration, .pragma])) := items_heedful (by decide)
  refine .skip fun isNull => ?_
  split
  · exact .skip fun _ => .skip fun _ => .done trivial
  · refine .skip fun components => .skip fun hasTail => ?_
    split
    · exact .skip fun tail => .done trivial
    · exact .done trivial⟩

theorem nullRecord_minds (hstart : seen start) : (nullRecord start).Minds seen fun _ => True :=
  .skip fun _ => add_minds hstart

instance : Heedful recordDefinition := ⟨fun _ => by
  refine position_minds.bind fun start hstart => .skip fun isNull => ?_
  split
  · exact nullRecord_minds hstart
  · exact .skip fun _ => .skip fun _ => .skip fun parts => .skip fun _ => .skip fun _ => add_minds hstart⟩

theorem enumerationLiteral_minds : enumerationLiteral.Minds seen fun name => seen name.place := by
  refine .skip fun kind => ?_
  split
  · exact take_minds.bind fun token htoken => .done htoken
  · exact take_minds.bind fun token htoken => .done htoken
  · exact .reject

def Definition.SeenIn (seen : Nat → Prop) (definition : Definition) : Prop :=
  ∀ literal ∈ definition.literals, seen literal.place

theorem enumerationDefinition_minds : enumerationDefinition.Minds seen (Definition.SeenIn seen) := by
  refine position_minds.bind fun start hstart => .skip fun _ => ?_
  refine (separated_minds enumerationLiteral_minds).bind fun literals hliterals => .skip fun _ => ?_
  exact .add hstart hliterals fun node => .done hliterals

theorem integerDefinition_minds : integerDefinition.Minds seen (Definition.SeenIn seen) :=
  position_minds.bind fun _ hstart => .skip fun _ => .skip fun _ => (add_minds hstart).bind fun _ _ => .done nofun

theorem floatDefinition_minds : floatDefinition.Minds seen (Definition.SeenIn seen) :=
  position_minds.bind fun _ hstart => .skip fun _ => (add_minds hstart).bind fun _ _ => .done nofun

theorem fixedDefinition_minds : fixedDefinition.Minds seen (Definition.SeenIn seen) :=
  position_minds.bind fun _ hstart => .skip fun _ => (add_minds hstart).bind fun _ _ => .done nofun

theorem derivedDefinition_minds : derivedDefinition.Minds seen (Definition.SeenIn seen) :=
  position_minds.bind fun _ hstart => .skip fun _ => .skip fun _ => .skip fun _ =>
    (add_minds hstart).bind fun _ _ => .done nofun

theorem typeDefinition_minds (discriminated : Bool) :
    (typeDefinition discriminated).Minds seen (Definition.SeenIn seen) := by
  refine .skip fun kind => ?_
  split
  · exact enumerationDefinition_minds
  · exact integerDefinition_minds
  · exact floatDefinition_minds
  · exact fixedDefinition_minds
  · exact .skip fun array => .done nofun
  · exact .skip fun record => .done nofun
  · exact .skip fun record => .done nofun
  · exact .skip fun access => .done nofun
  · exact derivedDefinition_minds
  · exact .reject

structure TypeView.SeenIn (seen : Nat → Prop) (view : TypeView) : Prop where
  decl : ∀ name ∈ view.decl.names, seen name.place
  literals : ∀ literal ∈ view.literals, seen literal.place

theorem typeView_minds {name : DefiningName Nat} (hname : seen name.place) (discriminants : List NodeId)
    (discriminated : Bool) : (typeView name discriminants discriminated).Minds seen (TypeView.SeenIn seen) := by
  refine .skip fun isIncomplete => ?_
  split
  · exact .done ⟨one_name hname, nofun⟩
  · refine .skip fun _ => .skip fun isPrivate => ?_
    split
    · exact .skip fun isLimited => .skip fun _ => .done ⟨one_name hname, nofun⟩
    · exact (typeDefinition_minds _).bind fun definition hdefinition => .skip fun _ =>
        .done ⟨one_name hname, hdefinition⟩

instance : Heedful typeDeclaration := ⟨fun _ => by
  refine position_minds.bind fun start hstart => .skip fun _ => definingIdentifier_minds.bind fun name hname => ?_
  refine (reserve_minds hstart).bind fun node _ => .skip fun discriminated => .skip fun _ => ?_
  refine (declareType_minds hname _ _ _).bind fun _ _ => .skip fun discriminants => ?_
  refine (typeView_minds hname _ _).bind fun view hview => .skip fun _ => ?_
  refine .fill hstart hview.decl fun _ => (declareType_minds hname _ _ _).bind fun _ _ => ?_
  exact (declareAll_minds hview.literals _ _).bind fun _ _ => .done trivial⟩

instance (context : Context) : Heedful (declarativeItems context) := by
  have : Heedful (firstOf Rule.declarativeItems) := firstOf_heedful (by decide)
  exact items_heedful (by decide)

instance : Heedful declarativePart := inferInstanceAs (Heedful (declarativeItems .declarativePart))

instance (isConstant : Bool) : Heedful (objectSubtype isConstant) := ⟨fun _ => by
  refine .skip fun isNumber => ?_
  split
  · exact .reject
  · exact .skip fun _ => .of_heedful _⟩

instance : Heedful objectDeclaration := ⟨fun _ => by
  refine position_minds.bind fun start hstart => identifierList_minds.bind fun names hnames => .skip fun _ => ?_
  refine .skip fun isConstant => .skip fun indication => .skip fun initial => .skip fun _ => ?_
  exact .add hstart hnames fun node => (declareAll_minds hnames _ _).bind fun _ _ => .done trivial⟩

instance : Heedful numberDeclaration := ⟨fun _ => by
  refine position_minds.bind fun start hstart => identifierList_minds.bind fun names hnames => ?_
  refine .skip fun _ => .skip fun value => .skip fun _ => ?_
  exact .add hstart hnames fun node => (declareAll_minds hnames _ _).bind fun _ _ => .done trivial⟩

instance : Heedful exceptionDeclaration := ⟨fun _ => by
  refine position_minds.bind fun start hstart => identifierList_minds.bind fun names hnames => .skip fun _ => ?_
  exact .add hstart hnames fun node => (declareAll_minds hnames _ _).bind fun _ _ => .done trivial⟩

instance : Heedful subtypeDeclaration := ⟨fun _ => by
  refine position_minds.bind fun start hstart => .skip fun _ => definingIdentifier_minds.bind fun name hname => ?_
  refine .skip fun _ => .skip fun indication => .skip fun _ => .skip fun shape => ?_
  refine .add hstart (one_name hname) fun node => ?_
  exact (declareType_minds hname _ _ _).bind fun _ _ => .done trivial⟩

instance : Heedful renamedEntity :=
  ⟨fun _ => .skip fun _ => .skip fun _ => .skip fun _ => .done trivial⟩

instance : Heedful objectRenamingKind := ⟨fun _ => by
  refine .skip fun isException => ?_
  split
  · exact .done trivial
  · exact .skip fun mark => .done trivial⟩

instance : Heedful objectRenaming := ⟨fun _ => by
  refine position_minds.bind fun start hstart => definingIdentifier_minds.bind fun name hname => .skip fun _ => ?_
  refine .skip fun kind => .skip fun renamed => .add hstart (one_name hname) fun node => ?_
  exact (declare_minds hname _ _).bind fun _ _ => .done trivial⟩

instance (synonym : SymbolId) (target : Option SymbolId) : Heedful (publishAs synonym target) := by
  unfold publishAs
  split <;> infer_instance

instance : Heedful packageRenaming := ⟨fun _ => by
  refine position_minds.bind fun start hstart => .skip fun _ => definingIdentifier_minds.bind fun name hname => ?_
  refine .skip fun renamed => .add hstart (one_name hname) fun node => ?_
  exact (declare_minds hname _ _).bind fun synonym _ => .skip fun named => .skip fun _ => .done trivial⟩

instance : Heedful subprogramRenaming := ⟨fun _ => by
  refine position_minds.bind fun start hstart => (reserve_minds hstart).bind fun node _ => ?_
  refine (subprogramSpecification_minds node false).bind fun header hname => .skip fun renamed => .skip fun _ => ?_
  exact .fill hstart (one_name hname) fun _ => .done trivial⟩

instance : Heedful renamingDeclaration := ⟨fun _ => by
  refine .skip fun kind => ?_
  split <;> exact .of_heedful _⟩

instance : Heedful separateTail := ⟨fun _ => .skip fun _ => .skip fun _ => .of_heedful _⟩

instance : Heedful packageStub :=
  ⟨fun _ => position_minds.bind fun _ hstart => .skip fun _ => .skip fun _ =>
    definingIdentifier_minds.bind fun _ hname => .skip fun _ => add_minds hstart (one_name hname)⟩

instance : Heedful subprogramStub := ⟨fun _ => by
  refine position_minds.bind fun start hstart => (reserve_minds hstart).bind fun node _ => ?_
  refine (subprogramSpecification_minds node false).bind fun header _ => .skip fun _ => .skip fun _ => ?_
  exact (fill_minds hstart).bind fun _ _ => .done trivial⟩

instance : Heedful bodyStub := ⟨fun _ => by
  refine .skip fun kind => ?_
  split <;> exact .of_heedful _⟩

instance (package : NodeId) : Heedful (usePackage package) := ⟨fun _ => by
  refine .skip fun named => ?_
  split
  · exact .of_heedful _
  · exact .of_heedful _
  · exact find_minds _ nofun⟩

instance (packages : List NodeId) : Heedful (usePackages packages) := ⟨fun _ => by
  induction packages with
  | nil => exact .done trivial
  | cons package packages ih => exact .skip (p := usePackage package) fun _ => ih⟩

instance : Heedful useClause :=
  ⟨fun _ => position_minds.bind fun start hstart => .skip fun _ => .skip fun packages => .skip fun _ =>
    .skip fun _ => add_minds hstart⟩

instance : Heedful pragma :=
  ⟨fun _ => position_minds.bind fun _ hstart => .skip fun _ =>
    definingIdentifier_minds.bind fun _ hname => .skip fun _ => .skip fun _ =>
      add_minds hstart (one_name hname)⟩

end Grammar

end AdaSyntax
