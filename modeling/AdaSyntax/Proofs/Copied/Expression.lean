import AdaSyntax.Grammar.Subtype
import AdaSyntax.Proofs.Copied.Run

namespace AdaSyntax

variable {tokens : Array Token} {α : Type}

namespace Program

instance : Copies tokens kind := by unfold kind; infer_instance

instance : Copies tokens position := by unfold position; infer_instance

instance (token : TokenKind) : Copies tokens (isAt token) := by unfold isAt; infer_instance

instance (kinds : List TokenKind) : Copies tokens (isAtAny kinds) := by unfold isAtAny; infer_instance

instance (first second : TokenKind) : Copies tokens (followedBy first second) := by unfold followedBy; infer_instance

instance : Copies tokens take := by unfold take; infer_instance

instance : Copies tokens advance := by unfold advance; infer_instance

instance (token : TokenKind) : Copies tokens (accept token) := by unfold accept; infer_instance

instance (token : TokenKind) : Copies tokens (expect token) := by unfold expect; infer_instance

instance (token : TokenKind) : Copies tokens (expectChoice token) := by unfold expectChoice; infer_instance

instance (kinds : List TokenKind) : Copies tokens (expectAll kinds) := by
  induction kinds with
  | nil => unfold expectAll; infer_instance
  | cons kind kinds ih => unfold expectAll; infer_instance

instance (start : Nat) (payload : Payload Nat) [Copy tokens payload.texts] : Copies tokens (add start payload) := by
  unfold add; infer_instance

instance (start : Nat) : Copies tokens (reserve start) := by unfold reserve; infer_instance

instance (id : NodeId) (start : Nat) (payload : Payload Nat) [Copy tokens payload.texts] :
    Copies tokens (fill id start payload) := by
  unfold fill; infer_instance

instance (id : NodeId) : Copies tokens (inspect id) := by unfold inspect; infer_instance

instance (id : NodeId) : Copies tokens (classify id) := by unfold classify; infer_instance

instance (finding : Finding) : Copies tokens (find finding) := by unfold find; infer_instance

instance (name : DefiningName Nat) (kind : SymbolKind) (node : NodeId) : Copies tokens (declare name kind node) := by
  unfold declare; infer_instance

instance (name : DefiningName Nat) (kind : SymbolKind) (node : NodeId) (shape : TypeShape) :
    Copies tokens (declareType name kind node shape) := by
  unfold declareType; infer_instance

instance (names : List (DefiningName Nat)) (kind : SymbolKind) (node : NodeId) :
    Copies tokens (declareAll names kind node) := by
  induction names with
  | nil => unfold declareAll; infer_instance
  | cons name names ih => unfold declareAll; infer_instance

instance (ids : List SymbolId) : Copies tokens (bindAll ids) := by
  induction ids with
  | nil => unfold bindAll; infer_instance
  | cons id ids ih => unfold bindAll; infer_instance

instance (kind : RegionKind) (owner : Option SymbolId) : Copies tokens (openRegion kind owner) := by
  unfold openRegion; infer_instance

instance : Copies tokens closeRegion := by unfold closeRegion; infer_instance

instance [Textual α] (condition : Bool) (body : Program α) [body.Copies tokens] :
    Copies tokens (attemptIf condition body) := by
  unfold attemptIf; infer_instance

instance (called : Rule) : Copies tokens (rule called) := by unfold rule; infer_instance

instance (rules : List Rule) : Copies tokens (tryRules rules) := by
  induction rules with
  | nil => unfold tryRules; infer_instance
  | cons first rest ih => exact .skip fun found _ => by split <;> infer_instance

instance (rules : List Rule) : Copies tokens (firstOf rules) := .skip fun found _ => by split <;> infer_instance

instance [Textual α] (separator : TokenKind) (item : Program α) [item.Copies tokens] :
    Copies tokens (separated separator item) := by
  unfold separated; infer_instance

instance [Textual α] (kind : TokenKind) (item : Program α) [item.Copies tokens] :
    Copies tokens (whileAt kind item) := by
  unfold whileAt; infer_instance

instance [Textual α] (kind : TokenKind) (body : Program α) [body.Copies tokens] : Copies tokens (after kind body) := by
  unfold after; infer_instance

instance : Copies tokens initialValue := by unfold initialValue; infer_instance

instance : Copies tokens definingIdentifier := by unfold definingIdentifier; infer_instance

instance (expected : Name) : Copies tokens (endName expected) := by unfold endName; infer_instance

end Program

namespace Grammar

open Program

instance : Copies tokens identifierList := by unfold identifierList; infer_instance

instance : Copies tokens functionDesignator := by unfold functionDesignator; infer_instance

instance : Copies tokens directName := by unfold directName; infer_instance

instance (base : Option SymbolId × SymbolKind) (selector : Name) : Copies tokens (resolveSelector base selector) := by
  unfold resolveSelector
  split <;> infer_instance

instance (start : Nat) (base : NodeId) (selector : Name) [Copy tokens selector] :
    Copies tokens (select start base selector) := by
  unfold select; infer_instance

instance : Copies tokens expandedName := .skip fun start _ => .skip fun isName _ => by
  split
  · refine .skip fun node _ => ?_
    infer_instance
  · infer_instance

instance (mark : NodeId) (kind : SymbolKind) : Copies tokens (checkTypeMark mark kind) := by
  unfold checkTypeMark; infer_instance

instance : Copies tokens typeMark := by unfold typeMark; infer_instance

instance (node : NodeId) : Copies tokens (isRangeAttribute node) := .skip fun payload _ => by split <;> infer_instance

instance [Textual α] (body : Program α) [body.Copies tokens] : Copies tokens (parenthesized body) := by
  unfold parenthesized; infer_instance

instance (start : Nat) (low : NodeId) : Copies tokens (rangeFrom start low) := by unfold rangeFrom; infer_instance

instance : Copies tokens range := by unfold range; infer_instance

instance : Copies tokens rangeConstraint := by unfold rangeConstraint; infer_instance

instance : Copies tokens discreteSubtypeIndication := by unfold discreteSubtypeIndication; infer_instance

instance (allowed : Bool) (kind : SymbolKind) : Copies tokens (unresolvedDiscreteRange allowed kind) := by
  unfold unresolvedDiscreteRange; infer_instance

instance (allowUnresolved : Bool) : Copies tokens (discreteRange allowUnresolved) :=
  .skip fun kind _ => .skip fun indication _ => by
    split
    · infer_instance
    · refine .skip fun found _ => ?_
      split <;> infer_instance

instance (kind : LiteralKind) : Copies tokens (literal kind) := by unfold literal; infer_instance

instance : Copies tokens logicalOperator := .skip fun isAndThen _ => by
  split
  · infer_instance
  · refine .skip fun isOrElse _ => ?_
    split <;> infer_instance

instance (operator? : TokenKind → Option BinaryOp) (operand : Program NodeId) [operand.Copies tokens] (start : Nat)
    (left : NodeId) : Copies tokens (leftAssociative operator? operand start left) :=
  .loop fun left _ => .skip fun kind _ => by split <;> infer_instance

instance : Copies tokens membershipTarget := .skip fun found _ => by split <;> infer_instance

instance (start : Nat) (operand : NodeId) : Copies tokens (membership start operand) := by
  unfold membership; infer_instance

instance (start : Nat) (left : NodeId) : Copies tokens (relationFrom start left) := .skip fun kind _ => by
  split <;> infer_instance

instance : Copies tokens relation := by unfold relation; infer_instance

instance (chain : Chain) (op : BinaryOp) (place : Nat) : Copies tokens (noteOperator chain op place) := by
  unfold noteOperator
  split <;> infer_instance

instance (start : Nat) (left : NodeId) : Copies tokens (chainFrom start left) :=
  .loop fun chain _ => .skip fun place _ => .skip fun operator _ => by split <;> infer_instance

instance : Copies tokens expression := by unfold expression; infer_instance

instance (start : Nat) : Copies tokens (valueChoice start) := by unfold valueChoice; infer_instance

instance : Copies tokens choice := by
  have hindication : ∀ start, Copies tokens (do
      let kind ← .step .lookaheadClass
      match ← attemptIf kind.isTypeMark discreteSubtypeIndication with
      | some indication => return indication
      | none => valueChoice start) := fun start => .skip fun kind _ => .skip fun indication _ => by
    split <;> infer_instance
  unfold choice
  infer_instance

instance : Copies tokens choiceList := by unfold choiceList; infer_instance

instance : Copies tokens namedAssociation := by unfold namedAssociation; infer_instance

instance : Copies tokens association := .skip fun isNamed _ => .skip fun found _ => by split <;> infer_instance

instance : Copies tokens actualParameters := by unfold actualParameters; infer_instance

instance : Copies tokens optionalActualParameters := by unfold optionalActualParameters; infer_instance

instance : Copies tokens expressionList := by unfold expressionList; infer_instance

instance : Copies tokens aggregate := .skip fun start _ => .skip fun components _ => by
  split
  · refine .skip fun payload _ => ?_
    split <;> infer_instance
  · infer_instance

instance : Copies tokens nameOrQualified := by unfold nameOrQualified; infer_instance

instance : Copies tokens qualifiedExpression := by unfold qualifiedExpression; infer_instance

instance : Copies tokens allocator := .skip fun start _ => .skip fun _ _ => .skip fun qualified _ => by
  split <;> infer_instance

instance : Copies tokens primary := .skip fun kind _ => by split <;> infer_instance

instance (op : UnaryOp) : Copies tokens (unary op) := by unfold unary; infer_instance

instance : Copies tokens factor := .skip fun kind _ => by split <;> infer_instance

instance : Copies tokens term := by unfold term; infer_instance

instance (op : UnaryOp) (start : Nat) : Copies tokens (signed op start) := by unfold signed; infer_instance

instance : Copies tokens simpleExpression := .skip fun start _ => .skip fun kind _ => by split <;> infer_instance

instance : Copies tokens selectorName := .skip fun kind _ => by split <;> infer_instance

instance (start : Nat) (base : NodeId) : Copies tokens (selectedSuffix start base) := by
  unfold selectedSuffix; infer_instance

instance : Copies tokens sliceRange := by unfold sliceRange; infer_instance

instance (start : Nat) (base : NodeId) (kind : SymbolKind) : Copies tokens (argumentsSuffix start base kind) := by
  unfold argumentsSuffix; infer_instance

instance (start : Nat) (base : NodeId) : Copies tokens (applySuffix start base) :=
  .skip fun named _ => .skip fun hasRange _ => by
    split
    · refine .skip fun found _ => ?_
      split <;> infer_instance
    · infer_instance

instance : Copies tokens attributeArguments := by unfold attributeArguments; infer_instance

instance (start : Nat) (base : NodeId) : Copies tokens (attributeSuffix start base) := by
  unfold attributeSuffix; infer_instance

instance (start : Nat) (base : NodeId) : Copies tokens (suffix start base) := .skip fun kind _ => by
  split <;> infer_instance

instance : Copies tokens name := by
  have hround : ∀ start, Copies tokens (do
      loop
        (fun base => do
          match ← suffix start base with
          | some longer => return .inl longer
          | none => return .inr base)
        (← directName)) := fun start => .skip fun base _ => .loop fun base _ => .skip fun found _ => by
    split <;> infer_instance
  unfold name
  infer_instance

instance (symbol : Option SymbolId) : Copies tokens (shapeOfSymbol symbol) := by
  unfold shapeOfSymbol
  split <;> infer_instance

instance : Copies tokens accuracy := by unfold accuracy; infer_instance

instance : Copies tokens floatingConstraint := by unfold floatingConstraint; infer_instance

instance : Copies tokens fixedConstraint := by unfold fixedConstraint; infer_instance

instance : Copies tokens indexConstraint := by unfold indexConstraint; infer_instance

instance : Copies tokens discriminantConstraint := by unfold discriminantConstraint; infer_instance

instance (shape : TypeShape) : Copies tokens (parenthesizedConstraint shape) := by
  unfold parenthesizedConstraint; infer_instance

instance (shape : TypeShape) : Copies tokens (constraint shape) := .skip fun kind _ => by split <;> infer_instance

instance : Copies tokens subtypeIndication := by unfold subtypeIndication; infer_instance

instance (indication : NodeId) : Copies tokens (indicationShape indication) := .skip fun payload _ => by
  split
  · refine .skip fun named _ => .skip fun shape _ => ?_
    split <;> infer_instance
  · infer_instance

instance : Copies tokens indexSubtype := by unfold indexSubtype; infer_instance

instance (indexes : Program NodeId) [indexes.Copies tokens] : Copies tokens (arrayOf indexes) := by
  unfold arrayOf; infer_instance

instance : Copies tokens unconstrainedArray := by unfold unconstrainedArray; infer_instance

instance : Copies tokens constrainedArray := by unfold constrainedArray; infer_instance

instance : Copies tokens arrayDefinition := .skip fun definition _ => .skip fun payload _ => by
  split <;> infer_instance

instance : Copies tokens accessDefinition := by unfold accessDefinition; infer_instance

end Grammar

end AdaSyntax
