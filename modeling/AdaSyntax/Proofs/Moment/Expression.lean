import AdaSyntax.Grammar.Subtype
import AdaSyntax.Proofs.Moment.Vocabulary

namespace AdaSyntax

namespace Grammar

open Program

variable {inv : SymbolTable.Invariant} {α : Type}

theorem expression_maintains {production : Production α} (h : production.isExpression = true) :
    Maintains inv (.call production) :=
  call_maintains (by simp [SymbolTable.Invariant.allows, h])

instance : Maintains inv (.call .simpleExpression) := expression_maintains rfl

instance : Maintains inv (rule .expression) := expression_maintains rfl

instance : Maintains inv (rule .name) := expression_maintains rfl

instance : Maintains inv (rule .subtypeIndication) := expression_maintains rfl

instance : Maintains inv initialValue := by unfold initialValue; infer_instance

instance : Maintains inv identifierList := by unfold identifierList; infer_instance

instance : Maintains inv functionDesignator := by unfold functionDesignator; infer_instance

instance : Maintains inv directName := by unfold directName; infer_instance

instance (base : Option SymbolId × SymbolKind) (selector : Name) : Maintains inv (resolveSelector base selector) := by
  unfold resolveSelector
  split <;> infer_instance

instance (start : Nat) (base : NodeId) (selector : Name) : Maintains inv (select start base selector) := by
  unfold select; infer_instance

instance : Maintains inv expandedName := .skip fun start => .skip fun isName => by
  split
  · refine .skip fun node => ?_
    infer_instance
  · infer_instance

instance (mark : NodeId) (kind : SymbolKind) : Maintains inv (checkTypeMark mark kind) := by
  unfold checkTypeMark; infer_instance

instance : Maintains inv typeMark := by unfold typeMark; infer_instance

instance (body : Program α) [body.Maintains inv] : Maintains inv (parenthesized body) := by
  unfold parenthesized; infer_instance

instance (node : NodeId) : Maintains inv (isRangeAttribute node) := .skip fun payload => by
  split <;> infer_instance

instance (start : Nat) (low : NodeId) : Maintains inv (rangeFrom start low) := by unfold rangeFrom; infer_instance

instance : Maintains inv range := by unfold range; infer_instance

instance : Maintains inv rangeConstraint := by unfold rangeConstraint; infer_instance

instance : Maintains inv discreteSubtypeIndication := by unfold discreteSubtypeIndication; infer_instance

instance (allowed : Bool) (kind : SymbolKind) : Maintains inv (unresolvedDiscreteRange allowed kind) := by
  unfold unresolvedDiscreteRange; infer_instance

instance (allowUnresolved : Bool) : Maintains inv (discreteRange allowUnresolved) :=
  .skip fun kind => .skip fun indication => by
    split
    · infer_instance
    · refine .skip fun found => ?_
      split <;> infer_instance

instance (kind : LiteralKind) : Maintains inv (literal kind) := by unfold literal; infer_instance

instance : Maintains inv logicalOperator := .skip fun isAndThen => by
  split
  · infer_instance
  · refine .skip fun isOrElse => ?_
    split <;> infer_instance

instance (operator? : TokenKind → Option BinaryOp) (operand : Program NodeId) [operand.Maintains inv] (start : Nat)
    (left : NodeId) : Maintains inv (leftAssociative operator? operand start left) :=
  loop_maintains fun left => .skip fun kind => by split <;> infer_instance

instance : Maintains inv membershipTarget := .skip fun found => by split <;> infer_instance

instance (start : Nat) (operand : NodeId) : Maintains inv (membership start operand) := by
  unfold membership; infer_instance

instance (start : Nat) (left : NodeId) : Maintains inv (relationFrom start left) := .skip fun kind => by
  split <;> infer_instance

instance : Maintains inv relation := by unfold relation; infer_instance

instance (chain : Chain) (op : BinaryOp) (place : Nat) : Maintains inv (noteOperator chain op place) := by
  unfold noteOperator
  split <;> infer_instance

instance (start : Nat) (left : NodeId) : Maintains inv (chainFrom start left) :=
  loop_maintains fun chain => .skip fun place => .skip fun operator => by split <;> infer_instance

instance : Maintains inv expression := by unfold expression; infer_instance

instance (start : Nat) : Maintains inv (valueChoice start) := by unfold valueChoice; infer_instance

instance : Maintains inv choice := by
  have hindication : ∀ start, Maintains inv (do
      let kind ← .step .lookaheadClass
      match ← attemptIf kind.isTypeMark discreteSubtypeIndication with
      | some indication => return indication
      | none => valueChoice start) := fun start => .skip fun kind => .skip fun indication => by
    split <;> infer_instance
  unfold choice
  infer_instance

instance : Maintains inv choiceList := by unfold choiceList; infer_instance

instance : Maintains inv namedAssociation := by unfold namedAssociation; infer_instance

instance : Maintains inv association := .skip fun isNamed => .skip fun found => by split <;> infer_instance

instance : Maintains inv actualParameters := by unfold actualParameters; infer_instance

instance : Maintains inv optionalActualParameters := by unfold optionalActualParameters; infer_instance

instance : Maintains inv expressionList := by unfold expressionList; infer_instance

instance : Maintains inv aggregate := .skip fun start => .skip fun components => by
  split
  · refine .skip fun payload => ?_
    split <;> infer_instance
  · infer_instance

instance : Maintains inv nameOrQualified := by unfold nameOrQualified; infer_instance

instance : Maintains inv qualifiedExpression := by unfold qualifiedExpression; infer_instance

instance : Maintains inv allocator := .skip fun start => .skip fun _ => .skip fun qualified => by
  split <;> infer_instance

instance : Maintains inv primary := .skip fun kind => by split <;> infer_instance

instance (op : UnaryOp) : Maintains inv (unary op) := by unfold unary; infer_instance

instance : Maintains inv factor := .skip fun kind => by split <;> infer_instance

instance : Maintains inv term := by unfold term; infer_instance

instance (op : UnaryOp) (start : Nat) : Maintains inv (signed op start) := by unfold signed; infer_instance

instance : Maintains inv simpleExpression := .skip fun start => .skip fun kind => by
  split <;> infer_instance

instance : Maintains inv selectorName := .skip fun kind => by split <;> infer_instance

instance (start : Nat) (base : NodeId) : Maintains inv (selectedSuffix start base) := by
  unfold selectedSuffix; infer_instance

instance : Maintains inv sliceRange := by unfold sliceRange; infer_instance

instance (start : Nat) (base : NodeId) (kind : SymbolKind) : Maintains inv (argumentsSuffix start base kind) := by
  unfold argumentsSuffix; infer_instance

instance (start : Nat) (base : NodeId) : Maintains inv (applySuffix start base) :=
  .skip fun named => .skip fun hasRange => by
    split
    · refine .skip fun found => ?_
      split <;> infer_instance
    · infer_instance

instance : Maintains inv attributeArguments := by unfold attributeArguments; infer_instance

instance (start : Nat) (base : NodeId) : Maintains inv (attributeSuffix start base) := by
  unfold attributeSuffix; infer_instance

instance (start : Nat) (base : NodeId) : Maintains inv (suffix start base) := .skip fun kind => by
  split <;> infer_instance

instance : Maintains inv name := by
  have hround : ∀ start, Maintains inv (do
      loop
        (fun base => do
          match ← suffix start base with
          | some longer => return .inl longer
          | none => return .inr base)
        (← directName)) := fun start => .skip fun base => loop_maintains fun base => .skip fun found => by
    split <;> infer_instance
  unfold name
  infer_instance

instance (symbol : Option SymbolId) : Maintains inv (shapeOfSymbol symbol) := by
  unfold shapeOfSymbol
  split <;> infer_instance

instance : Maintains inv accuracy := by unfold accuracy; infer_instance

instance : Maintains inv floatingConstraint := by unfold floatingConstraint; infer_instance

instance : Maintains inv fixedConstraint := by unfold fixedConstraint; infer_instance

instance : Maintains inv indexConstraint := by unfold indexConstraint; infer_instance

instance : Maintains inv discriminantConstraint := by unfold discriminantConstraint; infer_instance

instance (shape : TypeShape) : Maintains inv (parenthesizedConstraint shape) := by
  have : Maintains inv (tryRules [.indexConstraint, .discriminantConstraint]) :=
    tryRules_maintains (by simp [SymbolTable.Invariant.allows, Production.isExpression])
  unfold parenthesizedConstraint
  infer_instance

instance (shape : TypeShape) : Maintains inv (constraint shape) := .skip fun kind => by split <;> infer_instance

instance : Maintains inv subtypeIndication := by unfold subtypeIndication; infer_instance

instance (indication : NodeId) : Maintains inv (indicationShape indication) := .skip fun payload => by
  split
  · refine .skip fun named => .skip fun shape => ?_
    split <;> infer_instance
  · infer_instance

theorem ofProduction_maintains {production : Production α} (h : production.isExpression = true) :
    (ofProduction production).Maintains inv := by
  cases production with
  | simpleExpression => exact inferInstanceAs (Maintains inv simpleExpression)
  | componentList => cases h
  | rule rule =>
    cases rule with
    | name => exact inferInstanceAs (Maintains inv name)
    | expression => exact inferInstanceAs (Maintains inv expression)
    | subtypeIndication => exact inferInstanceAs (Maintains inv subtypeIndication)
    | indexConstraint => exact inferInstanceAs (Maintains inv indexConstraint)
    | discriminantConstraint => exact inferInstanceAs (Maintains inv discriminantConstraint)
    | discreteRange => exact inferInstanceAs (Maintains inv (discreteRange true))
    | range => exact inferInstanceAs (Maintains inv range)
    | _ => cases h

end Grammar

end AdaSyntax
