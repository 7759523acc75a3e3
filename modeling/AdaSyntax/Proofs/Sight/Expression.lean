import AdaSyntax.Grammar.Subtype
import AdaSyntax.Proofs.Sight.Vocabulary

namespace AdaSyntax

namespace Grammar

open Program

variable {seen : Nat → Prop} {α : Type} {start : Nat}

instance (body : Program α) [body.Heedful] : Heedful (parenthesized body) :=
  ⟨fun _ => .skip fun _ => .skip fun _ => .skip fun _ => .done trivial⟩

instance (node : NodeId) : Heedful (isRangeAttribute node) := ⟨fun _ => by
  refine .skip fun payload => ?_
  split <;> exact .done trivial⟩

theorem rangeFrom_minds (hstart : seen start) (low : NodeId) : (rangeFrom start low).Minds seen fun _ => True := by
  refine .skip fun isRange => .skip fun isAttribute => ?_
  split
  · exact .done trivial
  · exact .skip fun _ => .skip fun high => add_minds hstart

instance : Heedful range :=
  ⟨fun _ => position_minds.bind fun _ hstart => .skip fun low => rangeFrom_minds hstart low⟩

instance : Heedful rangeConstraint :=
  ⟨fun _ => position_minds.bind fun start hstart => .skip fun _ => .skip fun bounds => add_minds hstart⟩

instance : Heedful discreteSubtypeIndication := ⟨fun _ => by
  refine position_minds.bind fun start hstart => .skip fun mark => .skip fun hasRange => .skip fun constraint =>
    .skip fun goesOn => ?_
  split
  · exact .reject
  · exact add_minds hstart⟩

instance (allowed : Bool) (kind : SymbolKind) : Heedful (unresolvedDiscreteRange allowed kind) :=
  ⟨fun _ => .skip fun _ => .of_heedful _⟩

instance (allowUnresolved : Bool) : Heedful (discreteRange allowUnresolved) := ⟨fun _ => by
  refine .skip fun kind => .skip fun found => ?_
  split
  · exact .done trivial
  · refine .skip fun found => ?_
    split
    · exact .done trivial
    · exact .of_heedful _⟩

instance (kind : LiteralKind) : Heedful (literal kind) :=
  ⟨fun _ => position_minds.bind fun start hstart => .skip fun token => add_minds hstart⟩

instance : Heedful logicalOperator := ⟨fun _ => by
  have : Heedful (followedBy .kwAnd .kwThen) := followedBy_heedful (by decide)
  have : Heedful (followedBy .kwOr .kwElse) := followedBy_heedful (by decide)
  refine .skip fun isAndThen => ?_
  split
  · exact .skip fun _ => .skip fun _ => .done trivial
  refine .skip fun isOrElse => ?_
  split
  · exact .skip fun _ => .skip fun _ => .done trivial
  refine .skip fun isAnd => ?_
  split
  · exact .done trivial
  refine .skip fun isOr => ?_
  split
  · exact .done trivial
  refine .skip fun isXor => ?_
  split <;> exact .done trivial⟩

theorem leftAssociative_minds (operator? : TokenKind → Option BinaryOp) (operand : Program NodeId)
    [operand.Heedful] (hstart : seen start) (left : NodeId) :
    (leftAssociative operator? operand start left).Minds seen fun _ => True := by
  refine .loop (fun _ => True) trivial fun left _ => .skip fun kind => ?_
  split
  · exact .skip fun _ => .skip fun right => (add_minds hstart).bind fun _ _ => .done trivial
  · exact .done trivial

instance : Heedful membershipTarget := ⟨fun _ => by
  refine .skip fun found => ?_
  split
  · exact .done trivial
  · exact .skip fun mark => .done trivial⟩

theorem membership_minds (hstart : seen start) (operand : NodeId) :
    (membership start operand).Minds seen fun _ => True :=
  .skip fun negated => .skip fun _ => .skip fun target => add_minds hstart

theorem relationFrom_minds (hstart : seen start) (left : NodeId) :
    (relationFrom start left).Minds seen fun _ => True := by
  refine .skip fun kind => ?_
  split
  · exact .skip fun _ => .skip fun right => add_minds hstart
  · have : Heedful (followedBy .kwNot .kwIn) := followedBy_heedful (by decide)
    refine .skip fun isMember => .skip fun isNoMember => ?_
    split
    · exact membership_minds hstart left
    · exact .done trivial

instance : Heedful relation :=
  ⟨fun _ => position_minds.bind fun _ hstart => .skip fun left => relationFrom_minds hstart left⟩

theorem noteOperator_minds (chain : Chain) (op : BinaryOp) {place : Nat} (hplace : seen place) :
    (noteOperator chain op place).Minds seen fun _ => True := by
  unfold noteOperator
  split
  · exact .done trivial
  · split
    · have hmixed : ∀ position ∈ [place], seen position := List.forall_mem_singleton.mpr hplace
      exact (find_minds (.mixedOperators place _ _) hmixed).bind fun _ _ => .done trivial
    · exact .done trivial

theorem chainFrom_minds (hstart : seen start) (left : NodeId) : (chainFrom start left).Minds seen fun _ => True := by
  refine .loop (fun _ => True) trivial fun chain _ => position_minds.bind fun place hplace => .skip fun found => ?_
  split
  · refine (noteOperator_minds _ _ hplace).bind fun chain _ => .skip fun right => ?_
    exact (add_minds hstart).bind fun _ _ => .done trivial
  · exact .done trivial

instance : Heedful expression :=
  ⟨fun _ => .nested <| position_minds.bind fun _ hstart => .skip fun left => chainFrom_minds hstart left⟩

theorem valueChoice_minds (hstart : seen start) : (valueChoice start).Minds seen fun _ => True := by
  refine .skip fun operand => .skip fun isRange => ?_
  split
  · exact rangeFrom_minds hstart operand
  · exact (relationFrom_minds hstart operand).bind fun left _ => chainFrom_minds hstart left

instance : Heedful choice := ⟨fun _ => .nested <| by
  refine position_minds.bind fun start hstart => .skip fun isOthers => ?_
  split
  · exact add_minds hstart
  · refine .skip (p := .step .lookaheadClass) fun kind => .skip fun found => ?_
    split
    · exact .done trivial
    · exact valueChoice_minds hstart⟩

instance : Heedful choiceList := inferInstanceAs (Heedful (separated .bar choice))

instance : Heedful namedAssociation :=
  ⟨fun _ => position_minds.bind fun start hstart => .skip fun choices => .skip fun _ => .skip fun value =>
    add_minds hstart⟩

instance : Heedful association := ⟨fun _ => by
  refine .skip fun isNamed => .skip fun found => ?_
  split
  · exact .done trivial
  · exact .of_heedful _⟩

instance : Heedful actualParameters := inferInstanceAs (Heedful (parenthesized (separated .comma association)))

instance : Heedful optionalActualParameters := ⟨fun _ => .skip fun _ => .of_heedful _⟩

instance : Heedful expressionList :=
  inferInstanceAs (Heedful (parenthesized (separated .comma (rule .expression))))

instance : Heedful aggregate := ⟨fun _ => by
  refine position_minds.bind fun start hstart => .skip fun components => ?_
  split
  · refine .skip fun payload => ?_
    split <;> exact add_minds hstart
  · exact add_minds hstart⟩

instance : Heedful nameOrQualified := ⟨fun _ => by
  have : Heedful (followedBy .tick .leftParen) := followedBy_heedful (by decide)
  refine position_minds.bind fun start hstart => .skip fun mark => .skip fun isQualified => ?_
  split
  · exact .skip fun _ => .skip fun operand => add_minds hstart
  · exact .done trivial⟩

instance : Heedful qualifiedExpression := ⟨fun _ => by
  refine position_minds.bind fun start hstart => .skip fun mark => .skip fun _ => .skip fun isOpen => ?_
  split
  · exact .skip fun operand => add_minds hstart
  · exact .reject⟩

instance : Heedful allocator := ⟨fun _ => by
  refine position_minds.bind fun start hstart => .skip fun _ => .skip fun found => ?_
  split
  · exact add_minds hstart
  · exact .skip fun operand => add_minds hstart⟩

instance : Heedful primary := ⟨fun _ => by
  have : Heedful (followedBy .stringLiteral .leftParen) := followedBy_heedful (by decide)
  refine .skip fun kind => ?_
  split
  case h_5 => exact .skip fun isCall => .of_heedful _
  all_goals exact .of_heedful _⟩

instance (op : UnaryOp) : Heedful (unary op) :=
  ⟨fun _ => position_minds.bind fun start hstart => .skip fun _ => .skip fun operand => add_minds hstart⟩

instance : Heedful factor := ⟨fun _ => by
  refine .skip fun kind => ?_
  split
  · exact .of_heedful _
  · exact .of_heedful _
  · refine position_minds.bind fun start hstart => .skip fun left => .skip fun isPower => ?_
    split
    · exact .skip fun right => add_minds hstart
    · exact .done trivial⟩

instance : Heedful term :=
  ⟨fun _ => position_minds.bind fun _ hstart => .skip fun left => leftAssociative_minds _ _ hstart left⟩

theorem signed_minds (op : UnaryOp) (hstart : seen start) : (signed op start).Minds seen fun _ => True :=
  .skip fun _ => .skip fun operand => add_minds hstart

instance : Heedful simpleExpression := ⟨fun _ => by
  refine position_minds.bind fun start hstart => .skip fun kind => ?_
  split
  · exact (signed_minds _ hstart).bind fun left _ => leftAssociative_minds _ _ hstart left
  · exact .skip fun left => leftAssociative_minds _ _ hstart left⟩

instance : Heedful selectorName := ⟨fun _ => by
  refine .skip fun kind => ?_
  split
  · exact .skip fun token => .done trivial
  · exact .skip fun token => .done trivial
  · exact .skip fun token => .done trivial
  · exact .reject⟩

theorem selectedSuffix_minds (hstart : seen start) (base : NodeId) :
    (selectedSuffix start base).Minds seen fun _ => True := by
  refine .skip fun _ => .skip fun isAll => ?_
  split
  · exact add_minds hstart
  · exact .skip fun selector => select_minds hstart base selector

instance : Heedful sliceRange := inferInstanceAs (Heedful (parenthesized (discreteRange false)))

theorem argumentsSuffix_minds (hstart : seen start) (base : NodeId) (kind : SymbolKind) :
    (argumentsSuffix start base kind).Minds seen fun _ => True :=
  .skip fun arguments => add_minds hstart

theorem applySuffix_minds (hstart : seen start) (base : NodeId) :
    (applySuffix start base).Minds seen fun _ => True := by
  refine .skip fun named => .skip fun hasRange => ?_
  split
  · refine .skip fun found => ?_
    split
    · exact add_minds hstart
    · exact argumentsSuffix_minds hstart base _
  · exact argumentsSuffix_minds hstart base _

instance : Heedful attributeArguments := ⟨fun _ => by
  refine .skip fun isOpen => ?_
  split
  · exact .skip fun found => .done trivial
  · exact .done trivial⟩

theorem attributeSuffix_minds (hstart : seen start) (base : NodeId) :
    (attributeSuffix start base).Minds seen fun _ => True := by
  refine .skip fun _ => .skip fun isDesignator => ?_
  split
  · exact .skip fun token => .skip fun arguments => add_minds hstart
  · exact .reject

theorem suffix_minds (hstart : seen start) (base : NodeId) : (suffix start base).Minds seen fun _ => True := by
  refine .skip fun kind => ?_
  split
  · exact (selectedSuffix_minds hstart base).bind fun _ _ => .done trivial
  · exact (applySuffix_minds hstart base).bind fun _ _ => .done trivial
  · have : Heedful (followedBy .tick .leftParen) := followedBy_heedful (by decide)
    refine .skip fun isQualified => ?_
    split
    · exact .done trivial
    · exact (attributeSuffix_minds hstart base).bind fun _ _ => .done trivial
  · exact .done trivial

instance : Heedful name := ⟨fun _ => .nested <| by
  refine position_minds.bind fun start hstart => .skip fun base => ?_
  refine .loop (fun _ => True) trivial fun base _ => (suffix_minds hstart base).bind fun longer _ => ?_
  split <;> exact .done trivial⟩

instance (symbol : Option SymbolId) : Heedful (shapeOfSymbol symbol) := by
  unfold shapeOfSymbol
  split <;> infer_instance

instance : Heedful accuracy := ⟨fun _ => .skip fun _ => .skip fun _ => .skip fun _ => .done trivial⟩

instance : Heedful floatingConstraint :=
  ⟨fun _ => position_minds.bind fun start hstart => .skip fun accuracy => add_minds hstart⟩

instance : Heedful fixedConstraint :=
  ⟨fun _ => position_minds.bind fun start hstart => .skip fun accuracy => add_minds hstart⟩

instance : Heedful indexConstraint :=
  ⟨fun _ => position_minds.bind fun start hstart => .skip fun ranges => add_minds hstart⟩

instance : Heedful discriminantConstraint :=
  ⟨fun _ => position_minds.bind fun start hstart => .skip fun associations => add_minds hstart⟩

instance (rules : List Rule) : Heedful (tryRules rules) :=
  ⟨fun _ => (tryRules_heeds rules false).mono (Bool.le_refl _) fun _ _ _ _ _ => trivial⟩

instance (shape : TypeShape) : Heedful (parenthesizedConstraint shape) := by
  unfold parenthesizedConstraint
  infer_instance

instance (shape : TypeShape) : Heedful (constraint shape) := ⟨fun _ => by
  refine .skip fun kind => ?_
  split <;> exact .of_heedful _⟩

instance : Heedful subtypeIndication := ⟨fun _ => by
  refine position_minds.bind fun start hstart => .skip fun isName => ?_
  split
  · exact .skip fun mark => .skip fun shape => .skip fun constraint => add_minds hstart
  · exact .reject⟩

instance (indication : NodeId) : Heedful (indicationShape indication) := ⟨fun _ => by
  refine .skip fun payload => ?_
  split
  · refine .skip fun named => .skip fun shape => ?_
    split <;> exact .done trivial
  · exact .done trivial⟩

instance : Heedful indexSubtype :=
  ⟨fun _ => position_minds.bind fun start hstart => .skip fun mark => .skip fun _ => .skip fun _ =>
    add_minds hstart⟩

instance (indexes : Program NodeId) [indexes.Heedful] : Heedful (arrayOf indexes) :=
  ⟨fun _ => .skip fun _ => .skip fun _ => .skip fun _ => .skip fun _ => .done trivial⟩

instance : Heedful unconstrainedArray :=
  ⟨fun _ => position_minds.bind fun start hstart => .skip fun parts => add_minds hstart⟩

instance : Heedful constrainedArray :=
  ⟨fun _ => position_minds.bind fun start hstart => .skip fun parts => add_minds hstart⟩

instance : Heedful arrayDefinition := ⟨fun _ => by
  have : Heedful (firstOf [.unconstrainedArray, .constrainedArray]) := firstOf_heedful (by decide)
  refine .skip fun definition => .skip fun payload => ?_
  split <;> exact .done trivial⟩

instance : Heedful accessDefinition := ⟨fun _ => by
  refine position_minds.bind fun start hstart => .skip fun _ => .skip fun designated => .skip fun shape => ?_
  exact (add_minds hstart).bind fun _ _ => .done trivial⟩

end Grammar

end AdaSyntax
