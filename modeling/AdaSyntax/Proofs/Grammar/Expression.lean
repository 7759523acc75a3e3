import AdaSyntax.Grammar.Name
import AdaSyntax.Proofs.Grammar.Designator

namespace AdaSyntax

namespace Grammar

open Program

variable {calls : ∀ {α : Type}, Production α → Parser → Reply α × Parser}
variable {origin base parser : Parser} {moved : Bool} {node : NodeId}

theorem literal_builds (kind : LiteralKind) : Builds calls (literal kind) true .expression := by
  refine .intro fun parser h => .position ?_
  exact take_passes.bind h fun token later h => h.add .expression rfl rfl

theorem logicalOperator_passes : Passes calls logicalOperator false := by
  refine .intro fun parser h => ?_
  refine (Reads.query rfl).bind fun isAndThen => ?_
  split
  · exact advance_passes.bind h fun _ _ h => advance_passes.bind h fun _ _ h => .pure h.forget
  refine (Reads.query rfl).bind fun isOrElse => ?_
  split
  · exact advance_passes.bind h fun _ _ h => advance_passes.bind h fun _ _ h => .pure h.forget
  refine (accept_passes _).bind h fun isAnd later h => ?_
  split
  · exact .pure h
  refine (accept_passes _).bind h fun isOr later h => ?_
  split
  · exact .pure h
  refine (accept_passes _).bind h fun isXor later h => ?_
  split
  · exact .pure h
  · exact .pure h

theorem leftAssociative_leads {operator? : TokenKind → Option BinaryOp} {operand : Program NodeId}
    (hoperand : Builds calls operand true .expression)
    (h : Draft origin base parser true (.expression node)) :
    Leads calls origin (leftAssociative operator? operand base.position node) parser
      fun result later => Draft origin base later true (.expression result) := by
  refine .loop (fun left later => Draft origin base later true (.expression left)) h (fun _ _ h => h.fails)
    fun left later h => ?_
  refine (Reads.query rfl).bind fun kind => ?_
  split
  · refine advance_passes.bind h fun _ later h => ?_
    refine hoperand.bind h fun right later h => ?_
    exact (h.add .expression rfl rfl).bind fun _ _ h => .pure h
  · exact .pure h

theorem noteOperator_leads {chain : Chain} (h : Draft origin base parser moved (.expression chain.left))
    (op : BinaryOp) (place : Nat) :
    Leads calls origin (noteOperator chain op place) parser fun noted later =>
      Draft origin base later moved (.expression noted.left) := by
  unfold noteOperator
  split
  · exact .pure h
  · split
    · exact (find_passes fun _ => ⟨_, rfl, rfl⟩).bind h fun _ _ h => .pure h
    · exact .pure h

theorem parenthesized_builds {α : Type} {body : Program α} {added : α → Yield}
    (hbody : Builds calls body moved added) : Builds calls (parenthesized body) true added := by
  refine .intro fun parser h => ?_
  refine (expect_passes _).bind h fun _ later h => ?_
  refine hbody.bind h fun value later h => ?_
  exact (expect_passes _).bind h fun _ later h => .pure h

theorem selectorName_passes : Passes calls selectorName true := by
  refine .intro fun parser h => ?_
  refine (Reads.query rfl).bind fun kind => ?_
  split
  · exact take_passes.bind h fun _ _ h => .pure h
  · exact take_passes.bind h fun _ _ h => .pure h
  · exact take_passes.bind h fun _ _ h => .pure h
  · exact .reject h.fails

theorem selectedSuffix_leads (h : Draft origin base parser true (.expression node)) :
    Leads calls origin (selectedSuffix base.position node) parser fun longer later =>
      Draft origin base later true (.expression longer) := by
  refine advance_passes.bind h fun _ later h => ?_
  refine (accept_leads h _).bind fun isAll later h => ?_
  cases isAll with
  | true => exact h.addName .expression ⟨rfl, rfl, rfl, fun _ => rfl⟩ trivial
  | false => exact selectorName_passes.bind h fun selector later h => select_leads h (.inr rfl) selector

variable [Sound calls]

theorem membershipTarget_builds : Builds calls membershipTarget true (.one .tested) := by
  refine .intro fun parser h => ?_
  refine (attempt_builds (range_builds.serve .testedBounds)).bind h fun bounds later h => ?_
  cases bounds with
  | some bounds => exact .pure (h.moved_of_pieces (by simp))
  | none => exact typeMark_builds.bind h fun mark later h => .pure (h.serve .testedMark)

theorem membership_leads (h : Draft origin base parser true (.expression node)) :
    Leads calls origin (membership base.position node) parser fun result later =>
      Draft origin base later true (.expression result) := by
  refine (accept_passes _).bind h fun negated later h => ?_
  refine advance_passes.bind h fun _ later h => ?_
  exact membershipTarget_builds.bind h fun target later h => h.add .expression rfl rfl

theorem relationFrom_leads (h : Draft origin base parser true (.expression node)) :
    Leads calls origin (relationFrom base.position node) parser fun result later =>
      Draft origin base later true (.expression result) := by
  refine (Reads.query rfl).bind fun kind => ?_
  split
  · refine advance_passes.bind h fun _ later h => ?_
    exact simpleExpression_call.bind h fun right later h => h.add .expression rfl rfl
  · refine (isAt_reads _).bind fun isMember => ?_
    refine (Reads.query rfl).bind fun isNoMember => ?_
    split
    · exact membership_leads h
    · exact .pure h

theorem relation_builds : Builds calls relation true .expression := by
  refine .intro fun parser h => .position ?_
  exact simpleExpression_call.bind h fun left later h => relationFrom_leads h

theorem chainFrom_leads (h : Draft origin base parser true (.expression node)) :
    Leads calls origin (chainFrom base.position node) parser fun result later =>
      Draft origin base later true (.expression result) := by
  refine .loop (fun chain later => Draft origin base later true (.expression chain.left)) h
    (fun _ _ h => h.fails) fun chain later h => ?_
  refine (Reads.query rfl).bind fun place => ?_
  refine logicalOperator_passes.bind h fun op later h => ?_
  split
  · refine (noteOperator_leads h _ place).bind fun noted later h => ?_
    refine relation_builds.bind h fun right later h => ?_
    exact (h.add .expression rfl rfl).bind fun _ _ h => .pure h
  · exact .pure h

theorem expression_builds : Builds calls expression true .expression := by
  refine .nested <| .intro fun parser h => .position ?_
  exact relation_builds.bind h fun left later h => chainFrom_leads h

theorem valueChoice_leads (h : Draft origin base parser moved .empty) :
    Leads calls origin (valueChoice base.position) parser fun result later =>
      Draft origin base later true (.expression result) := by
  refine simpleExpression_call.bind h fun operand later h => ?_
  refine (isAt_reads _).bind fun isRange => ?_
  split
  · exact (rangeFrom_leads h).mono fun _ _ h => h.serve .bounds
  · exact (relationFrom_leads h).bind fun left later h => chainFrom_leads h

theorem choice_builds : Builds calls choice true .expression := by
  refine .nested <| .intro fun parser h => .position ?_
  refine (accept_leads h _).bind fun isOthers later h => ?_
  cases isOthers with
  | true => exact h.add .expression rfl rfl
  | false =>
    refine (Reads.query rfl).bind fun kind => ?_
    refine (attemptIf_builds discreteSubtypeIndication_builds).bind h fun indication later h => ?_
    cases indication with
    | some indication => exact .pure (h.moved_of_pieces (by simp))
    | none => exact valueChoice_leads h

theorem choiceList_builds : Builds calls choiceList true .expressions :=
  separated_builds choice_builds

theorem namedAssociation_builds : Builds calls namedAssociation true .expression := by
  refine .intro fun parser h => .position ?_
  refine choiceList_builds.bind h fun choices later h => ?_
  refine (expectChoice_passes _).bind h fun _ later h => ?_
  exact (rule_builds .expression (by decide)).bind h fun value later h => h.add .expression (by simp) rfl

theorem association_builds : Builds calls association true .expression := by
  refine .intro fun parser h => ?_
  refine (Reads.query rfl).bind fun isNamed => ?_
  refine (attemptIf_builds namedAssociation_builds).bind h fun named later h => ?_
  cases named with
  | some node => exact .pure (h.moved_of_pieces (by simp))
  | none => exact (rule_builds .expression (by decide)).leads h

theorem actualParameters_builds : Builds calls actualParameters true .expressions :=
  parenthesized_builds (separated_builds association_builds)

theorem optionalActualParameters_builds : Builds calls optionalActualParameters false .expressions := by
  refine .intro fun parser h => ?_
  refine (isAt_reads _).bind fun isOpen => ?_
  split
  · exact (actualParameters_builds.leads h).mono fun _ _ h => h.forget
  · exact .pure h

theorem expressionList_builds : Builds calls expressionList true .expressions :=
  parenthesized_builds (separated_builds (rule_builds .expression (by decide)))

theorem aggregate_builds : Builds calls aggregate true .expression := by
  refine .intro fun parser h => .position ?_
  refine actualParameters_builds.bind h fun components later h => ?_
  split
  · refine (Reads.query rfl).bind fun payload => ?_
    split
    · exact h.add .expression rfl rfl
    · exact h.add .expression rfl rfl
  · exact h.add .expression rfl rfl

theorem nameOrQualified_builds : Builds calls nameOrQualified true .expression := by
  refine .intro fun parser h => .position ?_
  refine (rule_builds .name (by decide)).bind h fun mark later h => ?_
  refine (Reads.query rfl).bind fun isQualified => ?_
  split
  · refine advance_passes.bind h fun _ later h => ?_
    exact aggregate_builds.bind h fun operand later h => h.add .expression rfl rfl
  · exact .pure h

theorem qualifiedExpression_builds : Builds calls qualifiedExpression true (.one .allocated) := by
  refine .intro fun parser h => .position ?_
  refine typeMark_builds.bind h fun mark later h => ?_
  refine (expectChoice_passes _).bind h fun _ later h => ?_
  refine (isAt_reads _).bind fun isOpen => ?_
  split
  · exact aggregate_builds.bind h fun operand later h => h.add .allocated rfl rfl
  · exact .reject h.fails

theorem allocator_builds : Builds calls allocator true .expression := by
  refine .intro fun parser h => .position ?_
  refine advance_passes.bind h fun _ later h => ?_
  refine (attempt_builds qualifiedExpression_builds).bind h fun qualified later h => ?_
  cases qualified with
  | some qualified => exact .pure_bind (h.add .expression rfl rfl)
  | none =>
    exact ((rule_builds .subtypeIndication (by decide)).serve .allocatedIndication).bind h
      fun indication later h => h.add .expression rfl rfl

theorem primary_builds : Builds calls primary true .expression := by
  refine .intro fun parser h => ?_
  refine (Reads.query rfl).bind fun kind => ?_
  split
  · exact (literal_builds _).leads h
  · exact (literal_builds _).leads h
  · exact (literal_builds _).leads h
  · exact (literal_builds _).leads h
  · refine (Reads.query rfl).bind fun isApplied => ?_
    split
    · exact nameOrQualified_builds.leads h
    · exact (literal_builds _).leads h
  · exact allocator_builds.leads h
  · exact aggregate_builds.leads h
  · exact nameOrQualified_builds.leads h
  · exact .reject h.fails

theorem unary_builds (op : UnaryOp) : Builds calls (unary op) true .expression := by
  refine .intro fun parser h => .position ?_
  refine advance_passes.bind h fun _ later h => ?_
  exact primary_builds.bind h fun operand later h => h.add .expression rfl rfl

theorem factor_builds : Builds calls factor true .expression := by
  refine .intro fun parser h => ?_
  refine (Reads.query rfl).bind fun kind => ?_
  split
  · exact (unary_builds _).leads h
  · exact (unary_builds _).leads h
  · refine .position ?_
    refine primary_builds.bind h fun left later h => ?_
    refine (accept_passes _).bind h fun isPower later h => ?_
    split
    · exact primary_builds.bind h fun right later h => h.add .expression rfl rfl
    · exact .pure h

theorem term_builds : Builds calls term true .expression := by
  refine .intro fun parser h => .position ?_
  exact factor_builds.bind h fun left later h => leftAssociative_leads factor_builds h

theorem signed_leads (h : Draft origin base parser moved .empty) (op : UnaryOp) :
    Leads calls origin (signed op base.position) parser fun result later =>
      Draft origin base later true (.expression result) := by
  refine advance_passes.bind h fun _ later h => ?_
  exact term_builds.bind h fun operand later h => h.add .expression rfl rfl

theorem simpleExpression_builds : Builds calls simpleExpression true .expression := by
  refine .intro fun parser h => .position ?_
  refine (Reads.query rfl).bind fun kind => ?_
  dsimp only
  split
  · exact (signed_leads h _).bind fun left later h => leftAssociative_leads term_builds h
  · exact term_builds.bind h fun left later h => leftAssociative_leads term_builds h

theorem sliceRange_builds : Builds calls sliceRange true .expression :=
  parenthesized_builds (discreteRange_builds false)

theorem argumentsSuffix_leads (h : Draft origin base parser true (.expression node)) (kind : SymbolKind) :
    Leads calls origin (argumentsSuffix base.position node kind) parser fun longer later =>
      Draft origin base later true (.expression longer) :=
  actualParameters_builds.bind h fun _ _ h => h.addName .expression ⟨rfl, rfl, rfl, fun _ => rfl⟩ trivial

theorem applySuffix_leads (h : Draft origin base parser true (.expression node)) :
    Leads calls origin (applySuffix base.position node) parser fun longer later =>
      Draft origin base later true (.expression longer) := by
  refine (classify_reads node).bind fun named => ?_
  refine (Reads.query rfl).bind fun hasRange => ?_
  split
  · refine (attempt_builds sliceRange_builds).bind h fun bounds later h => ?_
    cases bounds with
    | some bounds => exact h.addName .expression ⟨rfl, rfl, rfl, fun _ => rfl⟩ trivial
    | none => exact argumentsSuffix_leads h _
  · exact argumentsSuffix_leads h _

theorem attributeArguments_builds : Builds calls attributeArguments false .expressions := by
  refine .intro fun parser h => ?_
  refine (isAt_reads _).bind fun isOpen => ?_
  split
  · exact (attemptList_builds expressionList_builds).bind h fun _ _ h => .pure h
  · exact .pure h

theorem attributeSuffix_leads (h : Draft origin base parser true (.expression node)) :
    Leads calls origin (attributeSuffix base.position node) parser fun longer later =>
      Draft origin base later true (.expression longer) := by
  refine advance_passes.bind h fun _ later h => ?_
  refine (isAtAny_reads _).bind fun isDesignator => ?_
  split
  · refine take_passes.bind h fun token later h => ?_
    exact attributeArguments_builds.bind h fun arguments later h => h.addName .expression ⟨rfl, rfl, rfl, fun _ => rfl⟩ trivial
  · exact .reject h.fails

theorem suffix_leads (h : Draft origin base parser true (.expression node)) :
    Leads calls origin (suffix base.position node) parser fun longer later =>
      Draft origin base later true (.expression (longer.getD node)) := by
  refine (Reads.query rfl).bind fun kind => ?_
  split
  · exact (selectedSuffix_leads h).bind fun _ _ h => .pure h
  · exact (applySuffix_leads h).bind fun _ _ h => .pure h
  · refine (Reads.query rfl).bind fun isQualified => ?_
    split
    · exact .pure h
    · exact (attributeSuffix_leads h).bind fun _ _ h => .pure h
  · exact .pure h

theorem name_builds : Builds calls name true .expression := by
  refine .nested <| .intro fun parser h => .position ?_
  refine (directName_builds.serve .name).bind h fun node later h => ?_
  refine .loop (fun node later => Draft parser parser later true (.expression node)) h (fun _ _ h => h.fails)
    fun node later h => ?_
  refine (suffix_leads h).bind fun longer later h => ?_
  cases longer with
  | some longer => exact .pure h
  | none => exact .pure h

end Grammar

end AdaSyntax
