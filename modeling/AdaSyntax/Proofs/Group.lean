import AdaSyntax.Proofs.Depth
import AdaSyntax.Proofs.Formula.Operators
import AdaSyntax.Proofs.Parser.Balance
import AdaSyntax.Proofs.Token.Word
import AdaSyntax.Token.Stream

/-!
Looking ahead in a group hides no parse. Expressions are balanced, and so is all that they are made of. So an arrow
behind choices and the sign of a range stand on the level where the scan looks for them.
-/

namespace AdaSyntax

namespace Grammar

open Program

variable {budget : Nat} {parser : Parser} {start : Nat} {node base left : NodeId} {kind : TokenKind}

theorem of_contains {kinds : List TokenKind} {p : TokenKind → Bool} (h : kinds.contains kind = true)
    (hall : kinds.all p = true) : p kind = true :=
  List.all_eq_true.mp hall kind (List.contains_iff_mem.mp h)

theorem level_of_contains {kinds : List TokenKind} (h : kinds.contains kind = true)
    (hplain : kinds.all TokenKind.isPlain = true) : kind.levelBehind 0 = some 0 :=
  TokenKind.levelBehind_of_isPlain (of_contains h hplain) 0

theorem directName_balanced : directName.Balanced budget := fun parser => by
  refine .position (.isAtAny ?_)
  split
  · rename_i hname
    exact (Crosses.take rfl (level_of_contains hname rfl)).bind fun _ _ => .reads (Reads.query rfl) fun _ => .add
  · exact .refused

theorem select_balanced {selector : Name} : (select start base selector).Balanced budget := fun parser => by
  refine .reads (classify_reads base) fun known => ?_
  exact .reads (resolveSelector_tells known selector).reads fun _ => .add

theorem expandedName_balanced : expandedName.Balanced budget := fun parser => by
  refine .position (.isAt ?_)
  split
  · refine (directName_balanced parser).bind fun node later => .loop fun node parser => .followedBy ?_
    split
    · refine .advanceFirst ‹_› rfl fun between hkind => (Crosses.take hkind rfl).bind fun token last => ?_
      exact (select_balanced last).bind fun _ _ => .pure
    · exact .pure
  · exact .refused

theorem checkTypeMark_balanced {kind : SymbolKind} : (checkTypeMark node kind).Balanced budget := fun parser => by
  unfold checkTypeMark
  split
  · exact .find
  · split
    · exact .pure
    · exact .find

theorem typeMark_balanced : typeMark.Balanced budget := fun parser => by
  refine .isAt ?_
  split
  · refine (expandedName_balanced parser).bind fun node later => .reads (classify_reads node) fun known => ?_
    exact (checkTypeMark_balanced later).bind fun _ _ => .pure
  · exact .refused

theorem level_of_tokens {op : BinaryOp} (h : op.tokens = [kind]) : kind.levelBehind 0 = some 0 := by
  cases op <;> cases h <;> rfl

theorem logicalOperator_balanced : logicalOperator.Balanced budget := fun parser => by
  refine .followedBy ?_
  split
  · exact .advanceFirst ‹_› rfl fun later hkind => (Crosses.advance hkind rfl).bind fun _ _ => .pure
  refine .followedBy ?_
  split
  · exact .advanceFirst ‹_› rfl fun later hkind => (Crosses.advance hkind rfl).bind fun _ _ => .pure
  refine (Crosses.accept rfl).bind fun isAnd later => ?_
  split
  · exact .pure
  refine (Crosses.accept rfl).bind fun isOr later => ?_
  split
  · exact .pure
  refine (Crosses.accept rfl).bind fun isXor later => ?_
  split <;> exact .pure

theorem noteOperator_balanced {chain : Chain} {op : BinaryOp} {place : Nat} :
    (noteOperator chain op place).Balanced budget := fun parser => by
  unfold noteOperator
  split
  · exact .pure
  · split
    · exact Crosses.find.bind fun _ _ => .pure
    · exact .pure

theorem prefixed_crosses {op : UnaryOp} {operand : Program NodeId} (hoperand : operand.Balanced budget)
    (hkind : parser.kind = op.token) :
    Crosses budget 0 0 (do
      advance
      let node ← operand
      add start (.expr (.unary op node))) parser :=
  (Crosses.advance hkind (by cases op <;> rfl)).bind fun _ later => (hoperand later).bind fun _ _ => .add

theorem leftAssociative_balanced {operator? : TokenKind → Option BinaryOp} {operand : Program NodeId}
    (hoperator : ∀ kind op, operator? kind = some op → op.tokens = [kind] ∧ kind.isMark = true)
    (hoperand : operand.Balanced budget) : (leftAssociative operator? operand start left).Balanced budget := fun _ => by
  refine .loop fun left parser => .kind ?_
  split
  · rename_i op hop
    refine (Crosses.advance rfl (level_of_tokens (hoperator _ _ hop).1)).bind fun _ later => ?_
    exact (hoperand later).bind fun right _ => Crosses.add.bind fun _ _ => .pure
  · exact .pure

structure CallsBalanced (budget : Nat) : Prop where
  simpleExpression : (Program.call .simpleExpression).Balanced budget
  rule : ∀ rule ∈ [Rule.expression, .name, .subtypeIndication, .indexConstraint, .discriminantConstraint],
    (Program.rule rule).Balanced budget

section

variable (h : CallsBalanced budget)

include h

theorem rangeFrom_balanced : (rangeFrom start node).Balanced budget := fun parser => by
  refine .isAt (.reads (isRangeAttribute_tells node).reads fun isAttribute => ?_)
  split
  · exact .pure
  · refine (Crosses.expectChoice rfl).bind fun _ later => ?_
    exact (h.simpleExpression later).bind fun _ _ => .add

theorem range_balanced : range.Balanced budget := fun parser =>
  .position <| (h.simpleExpression parser).bind fun _ => rangeFrom_balanced h

theorem rangeConstraint_crosses (hkind : parser.kind = .kwRange) : rangeConstraint.Crosses budget 0 0 parser :=
  .position <| (Crosses.advance hkind rfl).bind fun _ later => (range_balanced h later).bind fun _ _ => .add

theorem discreteSubtypeIndication_balanced : discreteSubtypeIndication.Balanced budget := fun parser => by
  refine .position ((typeMark_balanced parser).bind fun mark later => .isAt ?_)
  refine (Crosses.attemptIf fun hkind => rangeConstraint_crosses h (eq_of_beq hkind)).bind fun _ last => .isAtAny ?_
  split
  · exact .refused
  · exact .add

theorem discreteRange_balanced {allowed : Bool} : (discreteRange allowed).Balanced budget := fun parser => by
  refine .reads (Reads.query rfl) fun kind => ?_
  refine (Crosses.attemptIf fun _ => discreteSubtypeIndication_balanced h _).bind fun found later => ?_
  split
  · exact .pure
  · refine ((range_balanced h).attempt later).bind fun found last => ?_
    split
    · exact .pure
    · refine .isAt ?_
      split
      · exact discreteSubtypeIndication_balanced h last
      · exact .refused

theorem membershipTarget_balanced : membershipTarget.Balanced budget := fun parser => by
  refine ((range_balanced h).attempt parser).bind fun found later => ?_
  split
  · exact .pure
  · exact (typeMark_balanced later).bind fun _ _ => .pure

theorem membership_crosses
    (hin : parser.kind = .kwIn ∨ parser.kind = .kwNot ∧ (parser.cursor.ahead 1).kind = .kwIn) :
    (membership start node).Crosses budget 0 0 parser := by
  refine .bind_of (Crosses.accept_secures rfl) fun negated later hlater => ?_
  have hnext : later.kind = .kwIn := by
    cases negated with
    | true =>
      obtain ⟨hnot, hkind⟩ := hlater.1 rfl
      exact hkind.trans (hin.resolve_left (by simp [hnot])).2
    | false =>
      obtain ⟨hnot, rfl⟩ := hlater.2 rfl
      exact hin.resolve_right fun hboth => hnot hboth.1
  refine (Crosses.advance hnext rfl).bind fun _ last => ?_
  exact (membershipTarget_balanced h last).bind fun _ _ => .add

theorem relationFrom_balanced : (relationFrom start left).Balanced budget := fun parser => by
  refine .kind ?_
  split
  · rename_i op hop
    have hlevel := level_of_tokens (Formula.relationalOperator?_tokens _ _ hop).1
    exact (Crosses.advance rfl hlevel).bind fun _ later => (h.simpleExpression later).bind fun _ _ => .add
  · refine .isAt (.followedBy ?_)
    split
    · rename_i hin
      exact membership_crosses h (by simpa using hin)
    · exact .pure

theorem relation_balanced : relation.Balanced budget := fun parser =>
  .position <| (h.simpleExpression parser).bind fun _ => relationFrom_balanced h

theorem chainFrom_balanced : (chainFrom start left).Balanced budget := fun parser => by
  refine .loop fun chain parser => .position ((logicalOperator_balanced parser).bind fun op later => ?_)
  split
  · refine (noteOperator_balanced later).bind fun chain last => (relation_balanced h last).bind fun right _ => ?_
    exact Crosses.add.bind fun _ _ => .pure
  · exact .pure

theorem expression_balanced : expression.Balanced budget :=
  .nested fun parser => .position <| (relation_balanced h parser).bind fun _ => chainFrom_balanced h

theorem choice_balanced : choice.Balanced budget := by
  refine .nested fun parser => .position ((Crosses.accept rfl).bind fun isOthers later => ?_)
  split
  · exact .add
  · refine .reads (Reads.query rfl) fun kind => ?_
    refine (Crosses.attemptIf fun _ => discreteSubtypeIndication_balanced h _).bind fun found last => ?_
    split
    · exact .pure
    · refine (h.simpleExpression last).bind fun operand last => .isAt ?_
      split
      · exact rangeFrom_balanced h last
      · exact (relationFrom_balanced h last).bind fun _ => chainFrom_balanced h

theorem choiceList_balanced : choiceList.Balanced budget := fun _ => (choice_balanced h).separated rfl

theorem namedAssociation_balanced : namedAssociation.Balanced budget := fun parser => by
  refine .position ((choiceList_balanced h parser).bind fun choices later => ?_)
  refine (Crosses.expectChoice rfl).bind fun _ last => ?_
  exact (h.rule .expression (by simp) last).bind fun _ _ => .add

theorem association_balanced : association.Balanced budget := fun parser => by
  refine .reads (Reads.query rfl) fun isNamed => ?_
  refine (Crosses.attemptIf fun _ => namedAssociation_balanced h _).bind fun found later => ?_
  split
  · exact .pure
  · exact h.rule .expression (by simp) later

theorem actualParameters_balanced : actualParameters.Balanced budget :=
  .parenthesized fun _ => (association_balanced h).separated rfl

theorem expressionList_balanced : expressionList.Balanced budget :=
  .parenthesized fun _ => (h.rule .expression (by simp)).separated rfl

theorem aggregate_balanced : aggregate.Balanced budget := fun parser => by
  refine .position ((actualParameters_balanced h parser).bind fun components later => ?_)
  split
  · refine .reads (Reads.query rfl) fun payload => ?_
    split <;> exact .add
  · exact .add

theorem nameOrQualified_balanced : nameOrQualified.Balanced budget := fun parser => by
  refine .position ((h.rule .name (by simp) parser).bind fun mark later => .followedBy ?_)
  split
  · exact .advanceFirst ‹_› rfl fun last _ => (aggregate_balanced h last).bind fun _ _ => .add
  · exact .pure

theorem qualifiedExpression_balanced : qualifiedExpression.Balanced budget := fun parser => by
  refine .position ((typeMark_balanced parser).bind fun mark later => ?_)
  refine (Crosses.expectChoice rfl).bind fun _ last => .isAt ?_
  split
  · exact (aggregate_balanced h last).bind fun _ _ => .add
  · exact .refused

theorem allocator_crosses (hkind : parser.kind = .kwNew) : allocator.Crosses budget 0 0 parser := by
  refine .position ((Crosses.advance hkind rfl).bind fun _ later => ?_)
  refine ((qualifiedExpression_balanced h).attempt later).bind fun found last => ?_
  split
  · exact .add
  · exact (h.rule .subtypeIndication (by simp) last).bind fun _ _ => .add

theorem primary_balanced : primary.Balanced budget := fun parser => by
  have hliteral (kind : LiteralKind) (hkind : parser.kind = kind.token) :
      (literal kind).Crosses budget 0 0 parser :=
    .position <| (Crosses.take hkind (by cases kind <;> rfl)).bind fun _ _ => .add
  refine .kind ?_
  split
  · exact hliteral .integer ‹_›
  · exact hliteral .real ‹_›
  · exact hliteral .character ‹_›
  · exact hliteral .null ‹_›
  · refine .followedBy ?_
    split
    · exact nameOrQualified_balanced h parser
    · exact hliteral .string ‹_›
  · exact allocator_crosses h ‹_›
  · exact aggregate_balanced h parser
  · exact nameOrQualified_balanced h parser
  · exact .refused

theorem factor_balanced : factor.Balanced budget := fun parser => by
  refine .kind ?_
  split
  · exact .position (prefixed_crosses (primary_balanced h) ‹_›)
  · exact .position (prefixed_crosses (primary_balanced h) ‹_›)
  · refine .position ((primary_balanced h parser).bind fun left later => ?_)
    refine (Crosses.accept rfl).bind fun isPower last => ?_
    split
    · exact (primary_balanced h last).bind fun _ _ => .add
    · exact .pure

theorem term_balanced : term.Balanced budget := fun parser =>
  .position <| (factor_balanced h parser).bind fun _ =>
    leftAssociative_balanced Formula.multiplyingOperator?_tokens (factor_balanced h)

theorem simpleExpression_balanced : simpleExpression.Balanced budget := fun parser => by
  have hrest (left : NodeId) : (leftAssociative addingOperator? term parser.position left).Balanced budget :=
    leftAssociative_balanced Formula.addingOperator?_tokens (term_balanced h)
  refine .position (.kind ?_)
  dsimp only
  split
  · rename_i op hop
    exact (prefixed_crosses (term_balanced h) (Formula.sign?_token hop)).bind hrest
  · exact (term_balanced h parser).bind hrest

omit h in
theorem selectorName_balanced : selectorName.Balanced budget := fun parser => by
  refine .kind ?_
  split
  · exact (Crosses.take ‹_› rfl).bind fun _ _ => .pure
  · exact (Crosses.take ‹_› rfl).bind fun _ _ => .pure
  · exact (Crosses.take ‹_› rfl).bind fun _ _ => .pure
  · exact .refused

omit h in
theorem selectedSuffix_crosses (hkind : parser.kind = .dot) : (selectedSuffix start base).Crosses budget 0 0 parser := by
  refine (Crosses.advance hkind rfl).bind fun _ later => (Crosses.accept rfl).bind fun isAll last => ?_
  split
  · exact .add
  · exact (selectorName_balanced last).bind fun selector => select_balanced

theorem sliceRange_balanced : sliceRange.Balanced budget :=
  .parenthesized fun _ => (discreteRange_balanced h).crosses 1

theorem argumentsSuffix_balanced {kind : SymbolKind} : (argumentsSuffix start base kind).Balanced budget := fun parser =>
  (actualParameters_balanced h parser).bind fun _ _ => .add

theorem applySuffix_balanced : (applySuffix start base).Balanced budget := fun parser => by
  refine .reads (classify_reads base) fun known => .reads (Reads.query rfl) fun hasRange => ?_
  split
  · refine ((sliceRange_balanced h).attempt parser).bind fun bounds later => ?_
    split
    · exact .add
    · exact argumentsSuffix_balanced h later
  · exact argumentsSuffix_balanced h parser

theorem attributeArguments_balanced : attributeArguments.Balanced budget := fun parser => by
  refine .isAt ?_
  split
  · exact ((expressionList_balanced h).attempt parser).bind fun _ _ => .pure
  · exact .pure

theorem attributeSuffix_crosses (hkind : parser.kind = .tick) :
    (attributeSuffix start base).Crosses budget 0 0 parser := by
  refine (Crosses.advance hkind rfl).bind fun _ later => .isAtAny ?_
  split
  · rename_i hdesignator
    refine (Crosses.take rfl (level_of_contains hdesignator rfl)).bind fun token last => ?_
    exact (attributeArguments_balanced h last).bind fun _ _ => .add
  · exact .refused

theorem suffix_balanced : (suffix start base).Balanced budget := fun parser => by
  refine .kind ?_
  split
  · exact (selectedSuffix_crosses ‹_›).bind fun _ _ => .pure
  · exact (applySuffix_balanced h parser).bind fun _ _ => .pure
  · refine .reads (Reads.query rfl) fun isQualified => ?_
    split
    · exact .pure
    · exact (attributeSuffix_crosses h ‹_›).bind fun _ _ => .pure
  · exact .pure

theorem name_balanced : name.Balanced budget := by
  refine .nested fun parser => .position ((directName_balanced parser).bind fun base later => ?_)
  refine .loop fun base parser => (suffix_balanced h parser).bind fun longer last => ?_
  split <;> exact .pure

theorem accuracy_crosses (hlevel : parser.kind.levelBehind 0 = some 0) : accuracy.Crosses budget 0 0 parser := by
  refine (Crosses.advance rfl hlevel).bind fun _ later => (h.simpleExpression later).bind fun value last => ?_
  exact (Balanced.after rfl (range_balanced h) last).bind fun _ _ => .pure

theorem indexConstraint_balanced : indexConstraint.Balanced budget := fun parser => by
  have hranges : (parenthesized (separated .comma (discreteRange true))).Balanced budget :=
    .parenthesized fun _ => (discreteRange_balanced h).separated rfl
  exact .position ((hranges parser).bind fun _ _ => .add)

theorem discriminantConstraint_balanced : discriminantConstraint.Balanced budget := fun parser =>
  .position <| (actualParameters_balanced h parser).bind fun _ _ => .add

theorem parenthesizedConstraint_balanced {shape : TypeShape} :
    (parenthesizedConstraint shape).Balanced budget := fun parser => by
  unfold parenthesizedConstraint
  split
  · exact (indexConstraint_balanced h).attempt parser
  split
  · exact (discriminantConstraint_balanced h).attempt parser
  split
  · refine Balanced.tryRules (fun rule hrule => h.rule rule ?_) parser
    exact List.mem_cons_of_mem _ (List.mem_cons_of_mem _ (List.mem_cons_of_mem _ hrule))
  · exact .pure

theorem constraint_balanced {shape : TypeShape} : (constraint shape).Balanced budget := fun parser => by
  refine .kind ?_
  split
  · exact .attempt (rangeConstraint_crosses h ‹_›)
  · rename_i hkind
    exact .attempt (.position ((accuracy_crosses h (hkind ▸ rfl)).bind fun _ _ => .add))
  · rename_i hkind
    exact .attempt (.position ((accuracy_crosses h (hkind ▸ rfl)).bind fun _ _ => .add))
  · exact parenthesizedConstraint_balanced h parser
  · exact .pure

theorem subtypeIndication_balanced : subtypeIndication.Balanced budget := fun parser => by
  refine .position (.isAt ?_)
  split
  · refine (typeMark_balanced parser).bind fun mark later => .reads (shapeOfSymbol_reads _) fun shape => ?_
    exact (constraint_balanced h later).bind fun _ _ => .add
  · exact .refused

end

theorem callsBalanced (budget : Nat) : CallsBalanced budget := by
  induction budget with
  | zero => exact ⟨fun _ _ _ => nofun, fun _ _ _ _ _ => nofun⟩
  | succ budget ih =>
    refine ⟨simpleExpression_balanced ih, fun rule hrule => ?_⟩
    simp only [List.mem_cons, List.not_mem_nil, or_false] at hrule
    rcases hrule with rfl | rfl | rfl | rfl | rfl
    · exact expression_balanced ih
    · exact name_balanced ih
    · exact subtypeIndication_balanced ih
    · exact indexConstraint_balanced ih
    · exact discriminantConstraint_balanced ih

end Grammar

namespace Payload

variable {ρ σ : Type}

def isRangeAttribute : Payload ρ → Bool
  | name (.attributeOf _ designator _) => designator.text = "RANGE"
  | _ => false

@[simp] theorem isRangeAttribute_map (f : ρ → σ) (payload : Payload ρ) :
    (payload.map f).isRangeAttribute = payload.isRangeAttribute := by
  cases payload with
  | name part => cases part <;> rfl
  | _ => rfl

/-- A range, a range attribute, or a subtype indication that has a constraint. -/
def isBounded : Payload ρ → Bool
  | type (.range ..) => true
  | type (.subtypeIndication _ constraint) => constraint.isSome
  | payload => payload.isRangeAttribute

@[simp] theorem isBounded_map (f : ρ → σ) (payload : Payload ρ) : (payload.map f).isBounded = payload.isBounded := by
  cases payload with
  | type part => cases part <;> rfl
  | name part => cases part <;> rfl
  | _ => rfl

end Payload

theorem Token.kind_eq_kwRange {source : String} {token : Token} (h : token ∈ (Cursor.ofSource source).tokens)
    (hword : token.kind.isWord = true) (hname : (Name.ofText token.text).text = "RANGE") : token.kind = .kwRange := by
  have hsignificant : token ∈ Token.significant source := (List.mem_filter.mp (List.mem_toArray.mp h)).1
  rcases List.mem_append.mp hsignificant with hscanned | hlast
  · have htoken : token ∈ Token.ofSource source := (List.mem_filter.mp hscanned).1
    rw [Token.kind_of_wordShaped htoken (Token.wordShaped_of_isWord htoken hword)]
    exact Lexeme.wordKind_range hname
  · obtain rfl := List.mem_singleton.mp hlast
    cases hword

/-- The tokens are those of a source text. -/
def Parser.Lexed (parser : Parser) : Prop := ∃ source, parser.cursor.tokens = (Cursor.ofSource source).tokens

theorem Parser.kind_eq_kwRange {parser : Parser} (h : parser.Lexed) (hword : parser.kind.isWord = true)
    (hname : (Name.ofText parser.current.text).text = "RANGE") : parser.kind = .kwRange := by
  obtain ⟨source, htokens⟩ := h
  have hmem : parser.current ∈ (Cursor.ofSource source).tokens := htokens ▸ Array.getElem_mem _
  exact Token.kind_eq_kwRange hmem hword hname

def Program.RangeOnlyIf (budget : Nat) (program : Program NodeId) (parser : Parser) (known : Prop) : Prop :=
  Program.Secures budget program parser fun node later => (later.tree.payload node).isRangeAttribute = true → known

namespace Grammar

open Program Lexeme

variable {budget : Nat} {parser : Parser} {start : Nat} {node base left : NodeId} {known : Prop}

theorem isRangeAttribute_computes (node : NodeId) :
    Computes (call budget) (isRangeAttribute node) fun parser => (parser.tree.payload node).isRangeAttribute := by
  refine Tells.computes <| (inspect_computes node).seq fun parser => ⟨_, ?_, rfl⟩
  rw [← Payload.isRangeAttribute_map fun _ => ()]
  generalize (parser.tree.payload node).map (fun _ => ()) = payload
  cases payload with
  | name part => cases part <;> rfl
  | _ => rfl

theorem add_rangeOnlyIf {payload : Payload Nat} (h : payload.isRangeAttribute = false) :
    RangeOnlyIf budget (add start payload) parser known :=
  (Finds.add_secures start payload).mono fun node later hadded hrange => by
    rw [hadded.2, Payload.isRangeAttribute_map, h] at hrange
    cases hrange

theorem attributeSuffix_rangeOnlyIf (hlexed : parser.Lexed) (hkind : parser.kind = .tick) :
    RangeOnlyIf budget (attributeSuffix start base) parser (Exposes parser.upcoming .kwRange) := by
  have hadvance : Secures budget advance parser fun _ later =>
      parser.Crosses later 0 0 ∧ later.cursor.tokens = parser.cursor.tokens :=
    (Crosses.advance hkind rfl).both .tokens
  refine Secures.bind hadvance fun _ between h => Secures.query rfl ?_
  obtain ⟨hcrosses, htokens⟩ := h
  have hlexed : between.Lexed := hlexed.imp fun _ => htokens.trans
  split
  · rename_i hdesignator
    have htake : Secures budget take between (Finds.Took between) := fun _ _ => Finds.took_of_withPosition
    refine Secures.bind htake fun token later htook => Secures.skip fun arguments last => ?_
    refine (Finds.add_secures _ _).mono fun node last hadded hrange => hcrosses.exposes (.here ?_)
    rw [hadded.2, Payload.isRangeAttribute_map] at hrange
    have hname : (Name.ofText between.current.text).text = "RANGE" := htook.text ▸ of_decide_eq_true hrange
    rw [← Parser.kind_eq]
    exact Parser.kind_eq_kwRange hlexed (of_contains hdesignator rfl) hname
  · exact Secures.refused

def Suffixed (parser later : Parser) : Option NodeId → Prop
  | some node => (later.tree.payload node).isRangeAttribute = true → Exposes parser.upcoming .kwRange
  | none => later = parser

theorem suffix_secures (hlexed : parser.Lexed) :
    Secures budget (suffix start base) parser fun found later => Suffixed parser later found := by
  have hlonger {program : Program NodeId} (h : RangeOnlyIf budget program parser (Exposes parser.upcoming .kwRange)) :
      Secures budget (program >>= fun node => (pure (some node) : Program (Option NodeId))) parser fun found later =>
        Suffixed parser later found :=
    Secures.bind h fun _ _ hnode => Secures.pure hnode
  refine Secures.query rfl ?_
  split
  · refine hlonger (Secures.skip fun _ _ => Secures.skip fun isAll _ => ?_)
    split
    · exact add_rangeOnlyIf rfl
    · exact Secures.skip fun _ _ => Secures.skip fun _ _ => Secures.skip fun _ _ => add_rangeOnlyIf rfl
  · have harguments {kind : SymbolKind} {later : Parser} :
        RangeOnlyIf budget (argumentsSuffix start base kind) later (Exposes parser.upcoming .kwRange) :=
      Secures.skip fun _ _ => add_rangeOnlyIf rfl
    refine hlonger (Secures.skip fun _ _ => Secures.skip fun _ _ => ?_)
    split
    · refine Secures.skip fun bounds _ => ?_
      split
      · exact add_rangeOnlyIf rfl
      · exact harguments
    · exact harguments
  · rename_i hkind
    refine Secures.query rfl ?_
    split
    · exact Secures.pure (rfl : Suffixed parser parser none)
    · exact hlonger (attributeSuffix_rangeOnlyIf hlexed hkind)
  · exact Secures.pure (rfl : Suffixed parser parser none)

theorem directName_rangeOnlyIf : RangeOnlyIf budget directName parser known := by
  refine Secures.query rfl (Secures.query rfl ?_)
  split
  · exact Secures.skip fun _ _ => Secures.skip fun _ _ => add_rangeOnlyIf rfl
  · exact Secures.refused

structure NamePart (parser : Parser) (node : NodeId) (later : Parser) : Prop where
  crosses : parser.Crosses later 0 0
  tokens : later.cursor.tokens = parser.cursor.tokens
  range : (later.tree.payload node).isRangeAttribute = true → Exposes parser.upcoming .kwRange

theorem directName_part : Secures budget directName parser (NamePart parser) := fun node later hrun =>
  ⟨directName_balanced parser node later hrun, Secures.tokens node later hrun,
    directName_rangeOnlyIf node later hrun⟩

theorem NamePart.suffix {later : Parser} (h : NamePart parser base later) (hlexed : parser.Lexed) :
    Secures budget (Grammar.suffix start base) later fun found last => NamePart parser (found.getD base) last := by
  intro found last hrun
  have hlater : later.Lexed := hlexed.imp fun _ => h.tokens.trans
  have hcrosses := suffix_balanced (callsBalanced budget) later found last hrun
  have hsuffixed := suffix_secures hlater found last hrun
  cases found with
  | some node =>
    have htokens := (Secures.tokens (some node) last hrun).trans h.tokens
    exact ⟨h.crosses.trans hcrosses, htokens, fun hrange => h.crosses.exposes (hsuffixed hrange)⟩
  | none =>
    obtain rfl : last = later := hsuffixed
    exact h

theorem name_rangeOnlyIf (hlexed : parser.Lexed) :
    RangeOnlyIf budget name parser (Exposes parser.upcoming .kwRange) := by
  refine Secures.nested (Secures.query rfl (Secures.bind directName_part fun base later hbase => ?_))
  refine Secures.loop (NamePart parser.deeper) hbase fun base later hpart => ?_
  refine Secures.bind (hpart.suffix hlexed) fun found last hfound => ?_
  cases found with
  | some node => exact Secures.pure hfound
  | none => exact Secures.pure hfound.range

theorem nameOrQualified_rangeOnlyIf (hlexed : parser.Lexed) :
    RangeOnlyIf budget nameOrQualified parser (Exposes parser.upcoming .kwRange) := by
  have hname : RangeOnlyIf budget (rule .name) parser (Exposes parser.upcoming .kwRange) :=
    Secures.call fun _ => name_rangeOnlyIf hlexed
  refine Secures.query rfl (Secures.bind hname fun mark later hmark => Secures.query rfl ?_)
  split
  · exact Secures.skip fun _ _ => Secures.skip fun _ _ => add_rangeOnlyIf rfl
  · exact Secures.pure hmark

theorem primary_rangeOnlyIf (hlexed : parser.Lexed) :
    RangeOnlyIf budget primary parser (Exposes parser.upcoming .kwRange) := by
  have hliteral (kind : LiteralKind) : RangeOnlyIf budget (literal kind) parser (Exposes parser.upcoming .kwRange) :=
    Secures.skip fun _ _ => Secures.skip fun _ _ => add_rangeOnlyIf rfl
  refine Secures.query rfl ?_
  split
  · exact hliteral .integer
  · exact hliteral .real
  · exact hliteral .character
  · exact hliteral .null
  · refine Secures.query rfl ?_
    split
    · exact nameOrQualified_rangeOnlyIf hlexed
    · exact hliteral .string
  · refine Secures.skip fun _ _ => Secures.skip fun _ _ => Secures.skip fun found _ => ?_
    split
    · exact Secures.skip fun _ _ => add_rangeOnlyIf rfl
    · exact Secures.skip fun _ _ => add_rangeOnlyIf rfl
  · refine Secures.skip fun _ _ => Secures.skip fun components _ => ?_
    split
    · refine Secures.skip fun payload _ => ?_
      split <;> exact add_rangeOnlyIf rfl
    · exact add_rangeOnlyIf rfl
  · exact nameOrQualified_rangeOnlyIf hlexed
  · exact Secures.refused

theorem factor_rangeOnlyIf (hlexed : parser.Lexed) :
    RangeOnlyIf budget factor parser (Exposes parser.upcoming .kwRange) := by
  have hunary (op : UnaryOp) : RangeOnlyIf budget (unary op) parser (Exposes parser.upcoming .kwRange) :=
    Secures.skip fun _ _ => Secures.skip fun _ _ => Secures.skip fun _ _ => add_rangeOnlyIf rfl
  refine Secures.query rfl ?_
  split
  · exact hunary .abs
  · exact hunary .not
  · refine Secures.query rfl (Secures.bind (primary_rangeOnlyIf hlexed) fun left later hleft => ?_)
    refine Secures.bind (Crosses.accept_secures <| TokenKind.levelBehind_of_isPlain rfl 0) fun isPower last hlast => ?_
    cases isPower with
    | true => exact Secures.skip fun _ _ => add_rangeOnlyIf rfl
    | false =>
      obtain ⟨-, rfl⟩ := hlast.2.2 rfl
      exact Secures.pure hleft

theorem leftAssociative_rangeOnlyIf {operator? : TokenKind → Option BinaryOp} {operand : Program NodeId}
    (h : (parser.tree.payload left).isRangeAttribute = true → known) :
    RangeOnlyIf budget (leftAssociative operator? operand start left) parser known := by
  refine Secures.loop (fun left later => (later.tree.payload left).isRangeAttribute = true → known) h
    fun left later hleft => Secures.query rfl ?_
  split
  · rename_i op _
    refine Secures.skip fun _ _ => Secures.skip fun right between => ?_
    have hadded : RangeOnlyIf budget (add start (.expr (.binary op left right))) between known := add_rangeOnlyIf rfl
    exact Secures.bind hadded fun _ _ hadded => Secures.pure hadded
  · exact Secures.pure hleft

theorem term_rangeOnlyIf (hlexed : parser.Lexed) :
    RangeOnlyIf budget term parser (Exposes parser.upcoming .kwRange) :=
  Secures.query rfl <| Secures.bind (factor_rangeOnlyIf hlexed) fun _ _ hleft => leftAssociative_rangeOnlyIf hleft

theorem simpleExpression_rangeOnlyIf (hlexed : parser.Lexed) :
    RangeOnlyIf budget simpleExpression parser (Exposes parser.upcoming .kwRange) := by
  refine Secures.query rfl (Secures.query rfl ?_)
  dsimp only
  split
  · have hsigned (op : UnaryOp) :
        RangeOnlyIf budget (signed op parser.position) parser (Exposes parser.upcoming .kwRange) :=
      Secures.skip fun _ _ => Secures.skip fun _ _ => add_rangeOnlyIf rfl
    exact Secures.bind (hsigned _) fun _ _ hleft => leftAssociative_rangeOnlyIf hleft
  · exact Secures.bind (term_rangeOnlyIf hlexed) fun _ _ hleft => leftAssociative_rangeOnlyIf hleft

def ShowsRange (lexemes : List Lexeme) : Prop := Exposes lexemes .doubleDot ∨ Exposes lexemes .kwRange

theorem range_shows (hlexed : parser.Lexed) :
    Secures budget range parser fun _ _ => ShowsRange parser.upcoming := by
  have hlow : Secures budget (.call .simpleExpression) parser fun low later => parser.Crosses later 0 0 ∧
      ((later.tree.payload low).isRangeAttribute = true → Exposes parser.upcoming .kwRange) :=
    Secures.both ((callsBalanced budget).simpleExpression parser)
      (Secures.call fun _ => simpleExpression_rangeOnlyIf hlexed)
  refine Secures.query rfl (Secures.bind hlow fun low later h => Secures.query rfl ?_)
  refine Secures.query (isRangeAttribute_computes low later) ?_
  split
  · rename_i hattribute
    exact Secures.pure (.inr (h.2 (Bool.and_eq_true _ _ ▸ hattribute).2))
  · refine Secures.bind Crosses.expectChoice_secures fun _ _ hdots _ _ _ => .inl (h.1.exposes (.here ?_))
    rw [← Parser.kind_eq, hdots.1]

theorem discreteSubtypeIndication_shows : Secures budget discreteSubtypeIndication parser fun node later =>
    (later.tree.payload node).isBounded = true → ShowsRange parser.upcoming := by
  refine Secures.query rfl (Secures.bind (typeMark_balanced parser) fun mark later hcrosses => Secures.query rfl ?_)
  have hconstraint : Secures budget (attemptIf (later.kind == .kwRange) rangeConstraint) later fun constraint _ =>
      constraint.isSome = true → Exposes parser.upcoming .kwRange := by
    cases hkind : later.kind == .kwRange with
    | true => exact fun _ _ _ _ => hcrosses.exposes (.here (later.kind_eq.symm.trans (eq_of_beq hkind)))
    | false => exact Secures.pure nofun
  refine Secures.bind hconstraint fun constraint last h => Secures.query rfl ?_
  split
  · exact Secures.refused
  · refine (Finds.add_secures _ _).mono fun node _ hadded hbounded => .inr (h ?_)
    rwa [hadded.2, Payload.isBounded_map] at hbounded

theorem discreteRange_shows {allowed : Bool} (hlexed : parser.Lexed) :
    Secures budget (discreteRange allowed) parser fun node later =>
      (later.tree.payload node).isBounded = true → ShowsRange parser.upcoming := by
  have hfirst : Secures budget (attemptIf parser.lookaheadClass.isTypeMark discreteSubtypeIndication) parser
      fun found later => (∀ node, found = some node → (later.tree.payload node).isBounded = true →
        ShowsRange parser.upcoming) ∧ (found = none → later.cursor = parser.cursor) :=
    Secures.attemptIf fun _ => discreteSubtypeIndication_shows
  refine Secures.query rfl (Secures.bind hfirst fun found later hfound => ?_)
  cases found with
  | some node => exact Secures.pure (hfound.1 node rfl)
  | none =>
    have hcursor := hfound.2 rfl
    have hlater : later.Lexed := hlexed.imp fun _ => (congrArg Cursor.tokens hcursor).trans
    have hinner : Secures budget range later.deeper fun _ _ => ShowsRange later.upcoming := range_shows hlater
    have hrange : Secures budget (.attempt range) later fun found last =>
        (∀ node, found = some node → ShowsRange later.upcoming) ∧ (found = none → last.cursor = later.cursor) :=
      Secures.attempt hinner
    refine Secures.bind hrange fun found last hlast => ?_
    cases found with
    | some node => exact Secures.pure fun _ => Parser.upcoming_congr hcursor ▸ hlast.1 node rfl
    | none =>
      refine Secures.query rfl ?_
      split
      · rw [← Parser.upcoming_congr ((hlast.2 rfl).trans hcursor)]
        exact discreteSubtypeIndication_shows
      · exact Secures.refused

theorem sliceRange_shows (hlexed : parser.Lexed) : Secures budget sliceRange parser fun node later =>
    (later.tree.payload node).isBounded = true →
      ∃ rest, parser.upcoming = parser.current.lexeme :: rest ∧ ShowsRange rest := by
  refine Secures.bind (Secures.both Crosses.expect_secures .tokens) fun _ opened hopened => ?_
  have hlexed : opened.Lexed := hlexed.imp fun _ => hopened.2.trans
  refine Secures.bind (discreteRange_shows hlexed) fun node closed hnode => ?_
  refine Secures.bind Crosses.expect_secures fun _ later hclose => Secures.pure fun hbounded => ?_
  exact ⟨_, hopened.1.2.upcoming, hnode (hclose.2.tree ▸ hbounded)⟩

theorem namedAssociation_exposes : Secures budget namedAssociation parser fun _ _ =>
    Exposes parser.upcoming .arrow := by
  refine Secures.query rfl (Secures.bind (choiceList_balanced (callsBalanced budget) parser) fun _ later hcrosses => ?_)
  refine Secures.bind Crosses.expectChoice_secures fun _ _ harrow _ _ _ => hcrosses.exposes (.here ?_)
  rw [← Parser.kind_eq, harrow.1]

theorem association_run {later : Parser} (hahead : parser.cursor.aheadInGroup 0 [.arrow] = true)
    (hrun : (Program.attempt namedAssociation).run (call budget) parser = (.matched (some node), later)) :
    association.run (call budget) parser = (.matched node, later) := by
  have hquery : (Program.step (.aheadInGroup [.arrow])).run (call budget) parser = (.matched true, parser) := by
    rw [← hahead]
    rfl
  rw [association, run_bind_of_matched hquery, attemptIf, if_pos rfl, run_bind_of_matched hrun]
  rfl

/-- Looking ahead in a group hides no parse. Where the attempt of a named association matches, there is an arrow ahead in
the group, and an association is read as that one. Where the range of a slice comes to a range, a range attribute or a
subtype indication with a constraint, there is a sign of a range ahead behind the parenthesis, if the tokens were lexed.
The scan ends on every stream, and never on a level below zero. -/
theorem aheadInGroup_hides_nothing (parser : Parser) :
    (∀ budget node later,
      (Program.attempt namedAssociation).run (call budget) parser = (.matched (some node), later) →
        parser.cursor.aheadInGroup 0 [.arrow] = true ∧
          association.run (call budget) parser = (.matched node, later)) ∧
    (parser.Lexed → ∀ budget node later, sliceRange.run (call budget) parser = (.matched node, later) →
      (later.tree.payload node).isBounded = true →
        parser.cursor.aheadInGroup 1 [.doubleDot, .kwRange] = true) ∧
    ∀ offset kinds, ∃ levels,
      parser.cursor.GroupLoop kinds offset 0 levels (parser.cursor.aheadInGroup offset kinds) ∧
        ∀ level ∈ levels, 0 ≤ level := by
  refine ⟨fun budget node later hrun => ?_, fun hlexed budget node later hrun hbounded => ?_, fun offset kinds => ?_⟩
  · have hassociation : Secures budget (.attempt namedAssociation) parser fun found last =>
        (∀ node, found = some node → Exposes parser.upcoming .arrow) ∧ (found = none → last.cursor = parser.cursor) :=
      Secures.attempt namedAssociation_exposes
    have hexposed := (hassociation (some node) later hrun).1 node rfl
    have hahead : parser.cursor.aheadInGroup 0 [.arrow] = true :=
      Cursor.groupHas_of_exposes hexposed rfl (List.mem_singleton_self _)
    exact ⟨hahead, association_run hahead hrun⟩
  · obtain ⟨rest, hupcoming, hshown⟩ := sliceRange_shows hlexed node later hrun hbounded
    obtain rfl := Cursor.lexemesFrom_succ hupcoming
    rcases hshown with hdots | hrange
    · exact Cursor.groupHas_of_exposes hdots rfl (by simp)
    · exact Cursor.groupHas_of_exposes hrange rfl (by simp)
  · exact parser.cursor.groupLoop kinds offset 0

def choicesStart : Parser := .new (.ofSource "F (A, B) | C => 1)") { predefined := false }

def attributeStart : Parser := .new (.ofSource "(A (1, 2)'Range)") { predefined := false }

theorem aheadInGroup_hides_neither :
    (∃ node later, (Program.attempt namedAssociation).run (call 20) choicesStart = (.matched (some node), later) ∧
      choicesStart.cursor.aheadInGroup 0 [.arrow] = true) ∧
    attributeStart.Lexed ∧ ∃ node later, sliceRange.run (call 20) attributeStart = (.matched node, later) ∧
      (later.tree.payload node).isBounded = true ∧
        attributeStart.cursor.aheadInGroup 1 [.doubleDot, .kwRange] = true := by
  have hchoices : ((Program.attempt namedAssociation).run (call 20) choicesStart).1.value? = some (some ⟨6⟩) := by
    decide +kernel
  have hslice : (sliceRange.run (call 20) attributeStart).1.value? = some ⟨4⟩ := by decide +kernel
  have hbounded : ((sliceRange.run (call 20) attributeStart).2.tree.payload ⟨4⟩).isBounded = true := by decide +kernel
  have hlexed : attributeStart.Lexed := ⟨_, rfl⟩
  have hchoices := Reply.result_eq hchoices
  have hslice := Reply.result_eq hslice
  refine ⟨⟨_, _, hchoices, ?_⟩, hlexed, _, _, hslice, hbounded, ?_⟩
  · exact ((aheadInGroup_hides_nothing choicesStart).1 _ _ _ hchoices).1
  · exact (aheadInGroup_hides_nothing attributeStart).2.1 hlexed _ _ _ hslice hbounded

end Grammar

end AdaSyntax
