import AdaSyntax.Grammar.Name
import AdaSyntax.Proofs.Discipline.Vocabulary

namespace AdaSyntax

namespace Grammar

open Program

variable {know : Knowledge} {stage : Stage} {node : NodeId} {start : Nat}

theorem simpleCall_supplies : (Program.call .simpleExpression).Supplies 2 true Knowledge.whole :=
  Supplies.call .simpleExpression

theorem expressionCall_supplies : (rule .expression).Supplies 3 true Knowledge.shallow :=
  Supplies.call (.rule .expression)

theorem nameCall_supplies : (rule .name).Supplies 1 true Knowledge.shallow :=
  Supplies.call (.rule .name)

theorem parenthesized_supplies {α : Type} {rank : Nat} {consumes : Bool} {body : Program α}
    {given : Knowledge → α → Prop} (h : body.Supplies rank consumes given)
    (hrank : ∀ stage : Stage, stage.advance.permits rank = true) :
    (parenthesized body).Supplies 0 true given := by
  intro know stage _
  refine (expect_supplies _).bind rfl fun _ _ => ?_
  refine h.forget.bind (hrank stage) fun value hvalue => ?_
  exact (expect_supplies _).bind rfl fun _ _ => .pure (.refl _) hvalue

theorem initialValue_supplies : initialValue.Supplies 0 false fun know found => ∀ node ∈ found, know.shallow node :=
  after_supplies expressionCall_supplies fun _ => rfl

theorem isRangeAttribute_gives (h : know.made node) :
    (isRangeAttribute node).Gives know stage (fun _ => stage) fun _ => True := by
  refine (inspect_gives h).bind fun payload _ => ?_
  split <;> exact .pure (.refl _) trivial

theorem rangeFrom_gives (h : know.whole node) :
    (rangeFrom start node).Gives know stage.advance (fun _ => stage.advance) know.whole := by
  refine (isAt_supplies _).bind rfl fun isRange _ => ?_
  refine (isRangeAttribute_gives (know.made_of_whole h)).bind fun isAttribute _ => ?_
  split
  · exact .pure (.refl _) h
  · refine (expectChoice_supplies _).bind rfl fun _ _ => ?_
    refine simpleCall_supplies.bind rfl fun high hhigh => ?_
    exact add_whole rfl (each_two h hhigh)

theorem range_supplies : range.Supplies 2 true Knowledge.whole := by
  intro know stage hrank
  refine position_supplies.bind rfl fun start _ => ?_
  exact simpleCall_supplies.bind hrank fun low hlow => rangeFrom_gives hlow

theorem rangeConstraint_supplies : rangeConstraint.Supplies 0 true Knowledge.whole := by
  intro know stage _
  refine position_supplies.bind rfl fun start _ => ?_
  refine advance_supplies.bind rfl fun _ _ => ?_
  exact range_supplies.bind rfl fun bounds hbounds => add_whole rfl (each_one hbounds)

theorem discreteSubtypeIndication_supplies : discreteSubtypeIndication.Supplies 0 true Knowledge.shallow := by
  intro know stage _
  refine position_supplies.bind rfl fun start _ => ?_
  refine typeMark_supplies.bind rfl fun mark hmark => ?_
  refine (isAt_supplies _).bind rfl fun hasRange _ => ?_
  refine (attemptIf_supplies rangeConstraint_supplies).bind rfl fun constraint hconstraint => ?_
  refine (isAtAny_supplies _).bind rfl fun goesOn _ => ?_
  cases goesOn with
  | true => exact .reject
  | false => exact add_shallow rfl (each_cons hmark.1 (each_toList hconstraint))

theorem unresolvedDiscreteRange_supplies (allowed : Bool) (kind : SymbolKind) :
    (unresolvedDiscreteRange allowed kind).Supplies 0 true Knowledge.shallow := by
  intro know stage _
  refine (isAt_supplies _).bind rfl fun isName _ => ?_
  split
  · exact discreteSubtypeIndication_supplies.gives rfl
  · exact .reject

theorem discreteRange_supplies (allowed : Bool) : (discreteRange allowed).Supplies 2 true Knowledge.shallow := by
  intro know stage hrank
  refine Supplies.bind (query (fun _ _ => trivial) fun _ _ => rfl) rfl fun kind _ => ?_
  refine (attemptIf_gives discreteSubtypeIndication_supplies.whole rfl).bind fun found hfound => ?_
  cases found with
  | some indication => exact .pure (.refl _) (hfound _ rfl)
  | none =>
    refine (attempt_gives range_supplies hrank).bind fun found hfound => ?_
    cases found with
    | some bounds => exact .pure (.refl _) (hfound _ rfl)
    | none => exact (unresolvedDiscreteRange_supplies _ _).gives rfl

theorem membershipTarget_supplies : membershipTarget.Supplies 2 false Knowledge.shallow := by
  intro know stage hrank
  refine (attempt_supplies range_supplies).bind hrank fun found hfound => ?_
  cases found with
  | some bounds => exact .pure (.refl _) (hfound _ rfl)
  | none => exact typeMark_supplies.forget.bind rfl fun mark hmark => .pure (.refl _) hmark.1

theorem membership_gives (h : know.whole node) :
    (membership start node).Gives know stage (fun _ => stage.advance) know.whole := by
  refine (accept_supplies _).bind rfl fun negated _ => ?_
  refine advance_supplies.bind rfl fun _ _ => ?_
  refine membershipTarget_supplies.bind rfl fun target htarget => ?_
  exact add_whole rfl (each_two h (know.whole_of_shallow htarget))

theorem relationFrom_gives (h : know.whole node) :
    (relationFrom start node).Gives know stage.advance (fun _ => stage.advance) know.whole := by
  refine kind_supplies.bind rfl fun kind _ => ?_
  split
  · refine advance_supplies.bind rfl fun _ _ => ?_
    exact simpleCall_supplies.bind rfl fun right hright => add_whole rfl (each_two h hright)
  · refine (isAt_supplies _).bind rfl fun isMember _ => ?_
    refine (followedBy_supplies _ _).bind rfl fun isNoMember _ => ?_
    split
    · exact membership_gives h
    · exact .pure (.refl _) h

theorem relation_supplies : relation.Supplies 2 true Knowledge.whole := by
  intro know stage hrank
  refine position_supplies.bind rfl fun start _ => ?_
  exact simpleCall_supplies.bind hrank fun left hleft => relationFrom_gives hleft

theorem logicalOperator_gives :
    logicalOperator.Gives know stage (fun op => stage.after op.isSome) fun _ => True := by
  refine (followedBy_supplies _ _).bind rfl fun isAndThen _ => ?_
  split
  · exact advance_supplies.bind rfl fun _ _ => advance_supplies.bind rfl fun _ _ => .pure (.refl _) trivial
  refine (followedBy_supplies _ _).bind rfl fun isOrElse _ => ?_
  split
  · exact advance_supplies.bind rfl fun _ _ => advance_supplies.bind rfl fun _ _ => .pure (.refl _) trivial
  refine (accept_gives _).bind fun isAnd _ => ?_
  cases isAnd with
  | true => exact .pure (.refl _) trivial
  | false =>
    refine (accept_gives _).bind fun isOr _ => ?_
    cases isOr with
    | true => exact .pure (.refl _) trivial
    | false =>
      refine (accept_gives _).bind fun isXor _ => ?_
      cases isXor with
      | true => exact .pure (.refl _) trivial
      | false => exact .pure (.refl _) trivial

theorem noteOperator_gives {chain : Chain} (h : know.whole chain.left) (op : BinaryOp) (place : Nat) :
    (noteOperator chain op place).Gives know stage (fun _ => stage) fun noted => know.whole noted.left := by
  unfold noteOperator
  split
  · exact .pure (.refl _) h
  · split
    · exact (find_gives (by exact each_nil)).bind fun _ _ => .pure (.refl _) h
    · exact .pure (.refl _) h

theorem chainFrom_gives (h : know.whole node) :
    (chainFrom start node).Gives know stage.advance (fun _ => stage.advance) know.whole := by
  refine .loop false (fun chain => know.whole chain.left) h fun chain hchain => ?_
  refine position_supplies.bind rfl fun place _ => ?_
  refine logicalOperator_gives.bind fun op _ => ?_
  cases op with
  | none => exact .pure (.refl _) hchain
  | some op =>
    refine (noteOperator_gives hchain op place).bind fun noted hnoted => ?_
    refine relation_supplies.bind rfl fun right hright => ?_
    refine Gives.bind ?_ fun _ hnode => .pure (.refl _) hnode
    exact add_whole rfl (each_two hnoted hright)

theorem expression_supplies : expression.Supplies 2 true Knowledge.shallow := by
  refine nested_supplies fun know stage hrank => ?_
  refine position_supplies.bind rfl fun start _ => ?_
  exact relation_supplies.bind hrank fun left hleft => chainFrom_gives hleft

theorem valueChoice_supplies (start : Nat) : (valueChoice start).Supplies 2 true Knowledge.whole := by
  intro know stage hrank
  refine simpleCall_supplies.bind hrank fun operand hoperand => ?_
  refine (isAt_supplies _).bind rfl fun isRange _ => ?_
  cases isRange with
  | true => exact rangeFrom_gives hoperand
  | false => exact (relationFrom_gives hoperand).bind fun left hleft => chainFrom_gives hleft

theorem choice_supplies : choice.Supplies 2 true Knowledge.shallow := by
  refine nested_supplies fun know stage hrank => ?_
  refine position_supplies.bind rfl fun start _ => ?_
  refine (accept_gives _).bind fun isOthers _ => ?_
  cases isOthers with
  | true => exact add_whole rfl each_nil
  | false =>
    refine Supplies.bind (query (fun _ _ => trivial) fun _ _ => rfl) rfl fun kind _ => ?_
    refine (attemptIf_gives discreteSubtypeIndication_supplies.whole rfl).bind fun found hfound => ?_
    cases found with
    | some indication => exact .pure (.refl _) (know.whole_of_shallow (hfound _ rfl))
    | none => exact (valueChoice_supplies start).gives hrank

theorem choiceList_supplies : choiceList.Supplies 2 true fun know choices => ∀ node ∈ choices, know.shallow node :=
  separated_supplies choice_supplies

theorem namedAssociation_supplies : namedAssociation.Supplies 2 true Knowledge.shallow := by
  intro know stage hrank
  refine position_supplies.bind rfl fun start _ => ?_
  refine choiceList_supplies.bind hrank fun choices hchoices => ?_
  refine (expectChoice_supplies _).bind rfl fun _ _ => ?_
  refine expressionCall_supplies.bind rfl fun value hvalue => ?_
  exact add_shallow rfl (each_append hchoices (each_one hvalue))

theorem association_supplies : association.Supplies 3 true Knowledge.shallow := by
  intro know stage hrank
  have hrank' : stage.permits 2 = true := Nat.ble_eq_true_of_le (Nat.le_of_succ_le (Nat.le_of_ble_eq_true hrank))
  refine Supplies.bind (query (fun _ _ => trivial) fun _ _ => rfl) rfl fun isNamed _ => ?_
  refine (attemptIf_gives namedAssociation_supplies.whole hrank').bind fun found hfound => ?_
  cases found with
  | some node => exact .pure (.refl _) (hfound _ rfl)
  | none => exact expressionCall_supplies.gives hrank

theorem actualParameters_supplies :
    actualParameters.Supplies 0 true fun know arguments => ∀ node ∈ arguments, know.shallow node :=
  parenthesized_supplies (separated_supplies association_supplies) fun _ => rfl

theorem optionalActualParameters_supplies :
    optionalActualParameters.Supplies 0 false fun know arguments => ∀ node ∈ arguments, know.shallow node := by
  intro know stage _
  refine (isAt_supplies _).bind rfl fun isOpen _ => ?_
  cases isOpen with
  | true => exact actualParameters_supplies.forget.gives rfl
  | false => exact .pure (.refl _) each_nil

theorem expressionList_supplies :
    expressionList.Supplies 0 true fun know nodes => ∀ node ∈ nodes, know.shallow node :=
  parenthesized_supplies (separated_supplies expressionCall_supplies) fun _ => rfl

theorem aggregate_supplies : aggregate.Supplies 0 true Knowledge.whole := by
  intro know stage _
  refine position_supplies.bind rfl fun start _ => ?_
  refine actualParameters_supplies.bind rfl fun components hcomponents => ?_
  split
  · rename_i inner
    have hinner : know.shallow inner := hcomponents inner (List.mem_singleton_self _)
    refine (inspect_gives (know.made_of_shallow hinner)).bind fun payload _ => ?_
    split
    · exact add_compound rfl (each_one hinner)
    · exact add_compound rfl (each_one hinner)
  · exact add_compound rfl hcomponents

theorem nameOrQualified_supplies : nameOrQualified.Supplies 1 true Knowledge.whole := by
  intro know stage hrank
  refine position_supplies.bind rfl fun start _ => ?_
  refine nameCall_supplies.bind hrank fun mark hmark => ?_
  refine (followedBy_supplies _ _).bind rfl fun isQualified _ => ?_
  cases isQualified with
  | false => exact .pure (.refl _) (know.whole_of_shallow hmark)
  | true =>
    refine advance_supplies.bind rfl fun _ _ => ?_
    exact aggregate_supplies.bind rfl fun operand hoperand =>
      add_whole rfl (each_two (know.whole_of_shallow hmark) hoperand)

theorem qualifiedExpression_supplies : qualifiedExpression.Supplies 0 true Knowledge.whole := by
  intro know stage _
  refine position_supplies.bind rfl fun start _ => ?_
  refine typeMark_supplies.bind rfl fun mark hmark => ?_
  refine (expectChoice_supplies _).bind rfl fun _ _ => ?_
  refine (isAt_supplies _).bind rfl fun isOpen _ => ?_
  cases isOpen with
  | false => exact .reject
  | true =>
    exact aggregate_supplies.bind rfl fun operand hoperand =>
      add_whole rfl (each_two (know.whole_of_shallow hmark.1) hoperand)

theorem allocator_supplies : allocator.Supplies 0 true Knowledge.whole := by
  intro know stage _
  refine position_supplies.bind rfl fun start _ => ?_
  refine advance_supplies.bind rfl fun _ _ => ?_
  refine (attempt_supplies qualifiedExpression_supplies).bind rfl fun found hfound => ?_
  cases found with
  | some qualified =>
    refine .pure_bind ?_
    exact add_whole rfl (each_one (know.whole_of_shallow (hfound _ rfl)))
  | none =>
    exact (rule_supplies .subtypeIndication).bind rfl fun operand hoperand => add_whole rfl (each_one hoperand)

theorem literal_supplies (kind : LiteralKind) : (literal kind).Supplies 0 true Knowledge.whole := by
  intro know stage _
  refine position_supplies.bind rfl fun start _ => ?_
  exact take_supplies.bind rfl fun token _ => add_whole rfl each_nil

theorem primary_supplies : primary.Supplies 1 true Knowledge.whole := by
  intro know stage hrank
  refine kind_supplies.bind rfl fun kind _ => ?_
  split
  · exact (literal_supplies _).gives rfl
  · exact (literal_supplies _).gives rfl
  · exact (literal_supplies _).gives rfl
  · exact (literal_supplies _).gives rfl
  · refine (followedBy_supplies _ _).bind rfl fun isCall _ => ?_
    split
    · exact nameOrQualified_supplies.gives hrank
    · exact (literal_supplies _).gives rfl
  · exact allocator_supplies.gives rfl
  · exact aggregate_supplies.gives rfl
  · exact nameOrQualified_supplies.gives hrank
  · exact .reject

theorem unary_supplies (op : UnaryOp) : (unary op).Supplies 0 true Knowledge.whole := by
  intro know stage _
  refine position_supplies.bind rfl fun start _ => ?_
  refine advance_supplies.bind rfl fun _ _ => ?_
  exact primary_supplies.bind rfl fun operand hoperand => add_whole rfl (each_one hoperand)

theorem factor_supplies : factor.Supplies 1 true Knowledge.whole := by
  intro know stage hrank
  refine kind_supplies.bind rfl fun kind _ => ?_
  split
  · exact (unary_supplies _).gives rfl
  · exact (unary_supplies _).gives rfl
  · refine position_supplies.bind rfl fun start _ => ?_
    refine primary_supplies.bind hrank fun left hleft => ?_
    refine (accept_supplies _).bind rfl fun isPower _ => ?_
    cases isPower with
    | false => exact .pure (.refl _) hleft
    | true => exact primary_supplies.bind rfl fun right hright => add_whole rfl (each_two hleft hright)

theorem leftAssociative_gives {operator? : TokenKind → Option BinaryOp} {operand : Program NodeId}
    (hoperand : operand.Supplies 1 true Knowledge.whole) (h : know.whole node) :
    (leftAssociative operator? operand start node).Gives know stage.advance (fun _ => stage.advance) know.whole := by
  refine .loop false know.whole h fun left hleft => ?_
  refine kind_supplies.bind rfl fun kind _ => ?_
  split
  · refine advance_supplies.bind rfl fun _ _ => ?_
    refine hoperand.bind rfl fun right hright => ?_
    refine Gives.bind ?_ fun _ hnode => .pure (.refl _) hnode
    exact add_whole rfl (each_two hleft hright)
  · exact .pure (.refl _) hleft

theorem term_supplies : term.Supplies 1 true Knowledge.whole := by
  intro know stage hrank
  refine position_supplies.bind rfl fun start _ => ?_
  exact factor_supplies.bind hrank fun left hleft => leftAssociative_gives factor_supplies hleft

theorem signed_supplies (op : UnaryOp) (start : Nat) : (signed op start).Supplies 0 true Knowledge.whole := by
  intro know stage _
  refine advance_supplies.bind rfl fun _ _ => ?_
  exact term_supplies.bind rfl fun operand hoperand => add_whole rfl (each_one hoperand)

theorem simpleExpression_supplies : simpleExpression.Supplies 1 true Knowledge.whole := by
  intro know stage hrank
  refine position_supplies.bind rfl fun start _ => ?_
  refine kind_supplies.bind rfl fun kind _ => ?_
  dsimp only
  split
  · exact (signed_supplies _ _).bind rfl fun left hleft => leftAssociative_gives term_supplies hleft
  · exact term_supplies.bind hrank fun left hleft => leftAssociative_gives term_supplies hleft

theorem selectorName_supplies : selectorName.Supplies 0 true fun _ _ => True := by
  intro know stage _
  refine kind_supplies.bind rfl fun kind _ => ?_
  split
  · exact take_supplies.bind rfl fun _ _ => .pure (.refl _) trivial
  · exact take_supplies.bind rfl fun _ _ => .pure (.refl _) trivial
  · exact take_supplies.bind rfl fun _ _ => .pure (.refl _) trivial
  · exact .reject

theorem selectedSuffix_gives (h : know.shallow node) :
    (selectedSuffix start node).Gives know stage (fun _ => stage.advance) know.shallow := by
  refine advance_supplies.bind rfl fun _ _ => ?_
  refine (accept_supplies _).bind rfl fun isAll _ => ?_
  cases isAll with
  | true => exact add_name (each_one h) nofun
  | false => exact selectorName_supplies.bind rfl fun selector _ => select_gives h selector

theorem argumentsSuffix_gives (h : know.shallow node) (kind : SymbolKind) :
    (argumentsSuffix start node kind).Gives know stage (fun _ => stage.advance) know.shallow :=
  actualParameters_supplies.bind rfl fun _ harguments => add_name (each_cons h harguments) nofun

theorem sliceRange_supplies : sliceRange.Supplies 0 true Knowledge.shallow :=
  parenthesized_supplies (discreteRange_supplies false) fun _ => rfl

theorem applySuffix_gives (h : know.shallow node) :
    (applySuffix start node).Gives know stage (fun _ => stage.advance) know.shallow := by
  refine (classify_gives (know.made_of_shallow h)).bind fun named _ => ?_
  refine Supplies.bind (query (fun _ _ => trivial) fun _ _ => rfl) rfl fun hasRange _ => ?_
  split
  · refine (attempt_gives sliceRange_supplies.whole rfl).bind fun found hfound => ?_
    cases found with
    | some bounds => exact add_name (each_two h (hfound _ rfl)) nofun
    | none => exact argumentsSuffix_gives h _
  · exact argumentsSuffix_gives h _

theorem attributeArguments_supplies :
    attributeArguments.Supplies 0 false fun know arguments => ∀ node ∈ arguments, know.shallow node := by
  intro know stage _
  refine (isAt_supplies _).bind rfl fun isOpen _ => ?_
  cases isOpen with
  | false => exact .pure (.refl _) each_nil
  | true =>
    exact (attemptList_supplies expressionList_supplies).bind rfl fun found hfound => .pure (.refl _) (each_getD hfound)

theorem attributeSuffix_gives (h : know.shallow node) :
    (attributeSuffix start node).Gives know stage (fun _ => stage.advance) know.shallow := by
  refine advance_supplies.bind rfl fun _ _ => ?_
  refine (isAtAny_supplies _).bind rfl fun isDesignator _ => ?_
  cases isDesignator with
  | false => exact .reject
  | true =>
    refine take_supplies.bind rfl fun token _ => ?_
    exact attributeArguments_supplies.bind rfl fun arguments harguments => add_name (each_cons h harguments) nofun

theorem suffix_gives (h : know.shallow node) :
    (suffix start node).Gives know stage (fun longer => stage.after longer.isSome)
      fun longer => ∀ node ∈ longer, know.shallow node := by
  refine kind_supplies.bind rfl fun kind _ => ?_
  split
  · exact (selectedSuffix_gives h).bind fun _ hlonger => .pure (.refl _) fun _ heq => Option.mem_some.mp heq ▸ hlonger
  · exact (applySuffix_gives h).bind fun _ hlonger => .pure (.refl _) fun _ heq => Option.mem_some.mp heq ▸ hlonger
  · refine (followedBy_supplies _ _).bind rfl fun isQualified _ => ?_
    cases isQualified with
    | true => exact .pure (.refl _) nofun
    | false =>
      exact (attributeSuffix_gives h).bind fun _ hlonger =>
        .pure (.refl _) fun _ heq => Option.mem_some.mp heq ▸ hlonger
  · exact .pure (.refl _) nofun

theorem name_supplies : name.Supplies 0 true Knowledge.shallow := by
  refine nested_supplies (Supplies.whole fun know stage _ => ?_)
  refine position_supplies.bind rfl fun start _ => ?_
  refine directName_supplies.bind rfl fun node hnode => ?_
  refine .loop false know.shallow hnode fun node hnode => ?_
  refine (suffix_gives hnode).bind fun longer hlonger => ?_
  cases longer with
  | some longer => exact .pure (.refl _) (hlonger _ rfl)
  | none => exact .pure (.refl _) hnode

end Grammar

end AdaSyntax
