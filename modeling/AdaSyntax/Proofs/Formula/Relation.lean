import AdaSyntax.Proofs.Formula.Parse
import AdaSyntax.Proofs.Parser.Built

namespace AdaSyntax

namespace Parser

variable {parser middle tested later last : Parser} {operand low high : Formula} {negated : Bool}
variable {node lower upper target result : NodeId} {rest : List Lexeme}

structure TakesRange (parser : Parser) (low high : Formula) (target : NodeId) (later : Parser) : Prop where
  advances : Advances parser later (low.lexemes.length + 1 + high.lexemes.length)
    ((low.mixtures parser.position ++ high.mixtures (parser.position + low.lexemes.length + 1)).map
      (·.diagnostic parser.cursor.tokens))
  represents : ∃ lower upper, later.tree.payload target = .type (.range lower upper) ∧
    later.tree.Represents lower low ∧ later.tree.Represents upper high

theorem Takes.range (hlow : parser.Takes low lower middle) (hdots : Advances middle tested 1 [])
    (hhigh : tested.Takes high upper later) (hadd : Advances later last 0 [])
    (hpayload : last.tree.payload target = .type (.range lower upper)) :
    parser.TakesRange low high target last where
  advances := by
    have hall := ((hlow.advances.trans hdots).trans hhigh.advances).trans hadd
    rw [hdots.position, hlow.advances.position, hdots.tokens, hlow.advances.tokens] at hall
    simpa [Nat.add_assoc] using hall
  represents :=
    have hnodes := (hdots.nodes.trans hhigh.advances.nodes).trans hadd.nodes
    ⟨lower, upper, hpayload, hlow.represents.mono hnodes, hhigh.represents.mono hadd.nodes⟩

theorem TakesRange.ascend (h : parser.deeper.TakesRange low high target later) :
    parser.TakesRange low high target later.ascend :=
  ⟨h.advances.ascend, h.represents⟩

theorem Takes.membership (hoperand : parser.Takes operand node middle)
    (hin : Advances middle tested (negated.toNat + 1) []) (hrange : tested.TakesRange low high target later)
    (hadd : Advances later last 0 []) (hpayload : last.tree.payload result = .expr (.membership node negated target)) :
    parser.Takes (.membership operand negated low high) result last where
  advances := by
    have hall := ((hoperand.advances.trans hin).trans hrange.advances).trans hadd
    rw [hin.position, hoperand.advances.position, hin.tokens, hoperand.advances.tokens] at hall
    have hlength : (Formula.membership operand negated low high).lexemes.length =
        operand.lexemes.length + (negated.toNat + 1) + (low.lexemes.length + 1 + high.lexemes.length) + 0 := by
      cases negated <;> simp [Formula.lexemes] <;> omega
    rw [hlength]
    simpa [Formula.mixtures] using hall
  represents := by
    obtain ⟨lower, upper, htarget, hlower, hupper⟩ := hrange.represents
    have hnodes := (hin.nodes.trans hrange.advances.nodes).trans hadd.nodes
    exact ⟨node, target, lower, upper, hpayload, Tree.payload_kept hadd.nodes htarget rfl,
      hoperand.represents.mono hnodes, hlower.mono hadd.nodes, hupper.mono hadd.nodes⟩

end Parser

namespace Formula

open Program Grammar AdaSyntax.Parser

variable {formula left right operand low high : Formula} {op : BinaryOp} {negated : Bool}
variable {parser later : Parser} {rest : List Lexeme} {node : NodeId} {start : Nat}

theorem Parses.called (h : formula.Parses 3 simpleExpression) : formula.Parses 3 (.call .simpleExpression) :=
  fun parser rest hupcoming hends hdepth => .call (h parser rest hupcoming hends hdepth)

theorem Parses.asRelation (h : formula.Parses 3 (.call .simpleExpression)) (hrank : formula.rank < 4) :
    formula.Parses 4 relation := by
  intro parser rest hupcoming hends hdepth
  refine .position (.bind (h parser rest hupcoming (hends.mono (by decide)) hdepth) fun node later htakes => ?_)
  have hlater := htakes.upcoming hupcoming
  have hlast : formula.lastRelation.rank < 4 := by rwa [lastRelation_eq (by omega)]
  obtain ⟨hnone, hin, hnot⟩ := hends.relational (Nat.le_refl _) hlast
  refine .kind ?_
  rw [hlater, hnone]
  refine .isAt (.followedBy ?_)
  rw [hlater]
  have hstops : (Lexeme.kindAt rest 0 == .kwIn ||
      (Lexeme.kindAt rest 0 = .kwNot && Lexeme.kindAt rest 1 = .kwIn : Bool)) = false := by
    simp only [Bool.or_eq_false_iff, beq_eq_false_iff_ne, Bool.and_eq_false_imp, decide_eq_true_eq,
      decide_eq_false_iff_not]
    exact ⟨hin, hnot⟩
  rw [hstops]
  exact .pure htakes

theorem parses_relational (hleft : left.Parses 3 (.call .simpleExpression))
    (hright : right.Parses 3 (.call .simpleExpression)) (hop : op.rank = 4) (hless : right.rank < 4) :
    (Formula.binary op left right).Parses 4 relation := by
  intro parser rest hupcoming hends hdepth
  simp only [nesting] at hdepth
  rw [lexemes, List.append_assoc, List.append_assoc] at hupcoming
  obtain ⟨kind, htokens, hoperator, hend⟩ :
      ∃ kind, op.tokens = [kind] ∧ relationalOperator? kind = some op ∧ kind ≠ .endOfFile := by
    cases op <;> simp [BinaryOp.rank] at hop <;> exact ⟨_, rfl, rfl, by decide⟩
  have hclosed : left.Ends 3 (op.tokens.map .mark ++ (right.lexemes ++ rest)) := by
    have hends : left.Ends _ _ := ends_operator op (right.lexemes ++ rest)
    rwa [hop] at hends
  refine .position (.bind (hleft parser _ hupcoming hclosed (by omega)) fun node middle htakes => ?_)
  have hmiddle := htakes.upcoming hupcoming
  rw [htokens] at hmiddle
  have hkind : Lexeme.kindAt middle.upcoming 0 = kind := by rw [hmiddle]; rfl
  refine .kind ?_
  rw [hkind, hoperator]
  refine .bind (.advance hmiddle hend) fun _ between hadvances => ?_
  have hdeep : between.depth + right.nesting ≤ between.options.maxDepth := by
    rw [hadvances.depth, hadvances.options, htakes.advances.depth, htakes.advances.options]
    omega
  have hright' : right.Ends 3 rest := (hends.mono (by decide)).of_binary (by omega) (by omega)
  refine .bind (hright between rest (hadvances.rest hmiddle) hright' hdeep) fun other later hother => ?_
  refine (Succeeds.add _ _).mono fun result last hadded => htakes.binary ?_ hother hadded.1 hadded.2
  rw [mixture_eq_nil _ _ (by omega), htokens]
  exact hadvances

theorem isRangeAttribute_succeeds : Succeeds (isRangeAttribute node) parser fun _ later => later = parser := by
  have hinspect : Succeeds (inspect node) parser fun _ later => later = parser := .step rfl rfl
  refine .bind hinspect fun payload later hlater => ?_
  split <;> exact .pure hlater

theorem range_succeeds (hlow : low.Parses 3 (.call .simpleExpression)) (hhigh : high.Parses 3 (.call .simpleExpression))
    (hupcoming : parser.upcoming = low.lexemes ++ .mark .doubleDot :: (high.lexemes ++ rest)) (hends : high.Ends 3 rest)
    (hdepth : parser.depth + max low.nesting high.nesting ≤ parser.options.maxDepth) :
    Succeeds range parser (parser.TakesRange low high) := by
  refine .position (.bind (hlow parser _ hupcoming (ends_of_closes rfl) (by omega)) fun lower middle htakes => ?_)
  have hmiddle := htakes.upcoming hupcoming
  refine .isAt (.bind isRangeAttribute_succeeds ?_)
  rintro isAttribute _ rfl
  rw [hmiddle]
  refine .bind (.expectChoice hmiddle rfl (by decide)) fun _ between hadvances => ?_
  have hdeep : between.depth + high.nesting ≤ between.options.maxDepth := by
    rw [hadvances.depth, hadvances.options, htakes.advances.depth, htakes.advances.options]
    omega
  refine .bind (hhigh between rest (hadvances.rest hmiddle) hends hdeep) fun upper later hother => ?_
  exact (Succeeds.add _ _).mono fun _ _ hadded => htakes.range hadvances hother hadded.1 hadded.2

theorem acceptNot_succeeds
    (hupcoming : parser.upcoming = (if negated then [.mark .kwNot] else []) ++ .mark .kwIn :: rest) :
    Succeeds (accept .kwNot) parser fun answer later => answer = negated ∧ Advances parser later negated.toNat [] := by
  cases negated with
  | true => exact .accept_of_eq hupcoming rfl (by decide)
  | false =>
    have hkind : Lexeme.kindAt parser.upcoming 0 ≠ .kwNot := by
      rw [hupcoming]
      exact TokenKind.noConfusion
    exact .accept_refused hkind ⟨rfl, .refl parser⟩

theorem membershipTarget_succeeds (hlow : low.Parses 3 (.call .simpleExpression))
    (hhigh : high.Parses 3 (.call .simpleExpression))
    (hupcoming : parser.upcoming = low.lexemes ++ .mark .doubleDot :: (high.lexemes ++ rest)) (hends : high.Ends 3 rest)
    (hdepth : parser.depth + (max low.nesting high.nesting + 1) ≤ parser.options.maxDepth) :
    Succeeds membershipTarget parser (parser.TakesRange low high) := by
  have hrange : Succeeds (.attempt range) parser fun found later =>
      ∃ node, found = some node ∧ parser.TakesRange low high node later := by
    have hdeep : parser.deeper.depth + max low.nesting high.nesting ≤ parser.deeper.options.maxDepth := by
      simp only [Parser.deeper]
      omega
    refine .attempt (by omega) ?_
    exact (@range_succeeds _ _ parser.deeper _ hlow hhigh hupcoming hends hdeep).mono
      fun node later htakes => ⟨node, rfl, htakes.ascend⟩
  refine .bind hrange ?_
  rintro _ later ⟨node, rfl, htakes⟩
  exact .pure htakes

theorem parses_membership (hoperand : operand.Parses 3 (.call .simpleExpression))
    (hlow : low.Parses 3 (.call .simpleExpression)) (hhigh : high.Parses 3 (.call .simpleExpression)) :
    (Formula.membership operand negated low high).Parses 4 relation := by
  intro parser rest hupcoming hends hdepth
  simp only [nesting] at hdepth
  simp only [lexemes, List.append_assoc, List.cons_append] at hupcoming
  have hclosed : operand.Ends 3 ((if negated then [.mark .kwNot] else []) ++
      .mark .kwIn :: (low.lexemes ++ .mark .doubleDot :: (high.lexemes ++ rest))) :=
    ends_of_closes (by cases negated <;> rfl)
  refine .position (.bind (hoperand parser _ hupcoming hclosed (by omega)) fun node middle htakes => ?_)
  have hmiddle := htakes.upcoming hupcoming
  have hnone : relationalOperator? (Lexeme.kindAt middle.upcoming 0) = none := by
    rw [hmiddle]
    cases negated <;> rfl
  have htests : (Lexeme.kindAt middle.upcoming 0 == .kwIn ||
      (Lexeme.kindAt middle.upcoming 0 = .kwNot && Lexeme.kindAt middle.upcoming 1 = .kwIn : Bool)) = true := by
    rw [hmiddle]
    cases negated <;> rfl
  refine .kind ?_
  rw [hnone]
  refine .isAt (.followedBy ?_)
  rw [htests]
  refine .bind (acceptNot_succeeds hmiddle) ?_
  rintro negated between ⟨rfl, hnot⟩
  have hbetween := hnot.upcoming hmiddle (by cases negated <;> rfl)
  refine .bind (.advance hbetween (by decide)) fun _ tested hin => ?_
  have htested := hnot.trans hin
  have hdeep : tested.depth + (max low.nesting high.nesting + 1) ≤ tested.options.maxDepth := by
    rw [htested.depth, htested.options, htakes.advances.depth, htakes.advances.options]
    omega
  refine .bind (membershipTarget_succeeds hlow hhigh (hin.rest hbetween) hends.of_membership hdeep)
    fun target later hrange => ?_
  exact (Succeeds.add _ _).mono fun result last hadded => htakes.membership htested hrange hadded.1 hadded.2

def chainRound (start : Nat) (chain : Chain) : Program (Chain ⊕ NodeId) := do
  let place ← position
  match ← logicalOperator with
  | some op =>
    let chain ← noteOperator chain op place
    let right ← relation
    return .inl { chain with left := ← add start (.expr (.binary op chain.left right)) }
  | none => return .inr chain.left

def chain (formula : Formula) (start : Nat) (node : NodeId) : Program NodeId :=
  .loop (chainRound start) ⟨node, formula.connective, formula.mixes⟩

def logical : Program NodeId := do
  let start ← position
  chainFrom start (← relation)

theorem first_ne_then (formula : Formula) : formula.first ≠ .kwThen ∧ formula.first ≠ .kwElse := by
  induction formula with
  | literal kind text => cases kind <;> simp [first, LiteralKind.token]
  | unary op operand => cases op <;> simp [first, UnaryOp.token]
  | binary op left right ih _ => exact ih
  | membership operand negated low high ih _ _ => exact ih
  | _ => simp [first]

theorem logicalOperator_stops (h : Lexeme.kindAt parser.upcoming 0 ∉ [.kwAnd, .kwOr, .kwXor]) :
    Succeeds logicalOperator parser fun answer later => answer = none ∧ later = parser := by
  simp only [List.mem_cons, List.not_mem_nil, or_false, not_or] at h
  obtain ⟨hand, hor, hxor⟩ := h
  refine .followedBy ?_
  simp only [hand, decide_false, Bool.false_and]
  refine .followedBy ?_
  simp only [hor, decide_false, Bool.false_and]
  exact .accept_of_ne hand (.accept_of_ne hor (.accept_of_ne hxor (.pure ⟨rfl, rfl⟩)))

theorem advanceTwice_succeeds {first second : TokenKind} {answer : Option BinaryOp}
    (hupcoming : parser.upcoming = .mark first :: .mark second :: rest) (hfirst : first ≠ .endOfFile)
    (hsecond : second ≠ .endOfFile) :
    Succeeds (do
      advance
      advance
      return answer) parser fun found later => found = answer ∧ Advances parser later 2 [] :=
  .bind (.advance hupcoming hfirst) fun _ _ hadvances =>
    .bind (.advance (hadvances.rest hupcoming) hsecond) fun _ _ hadvances' => .pure ⟨rfl, hadvances.trans hadvances'⟩

theorem acceptOperator_succeeds {kind : TokenKind} {answer : Option BinaryOp} {next : Bool → Program (Option BinaryOp)}
    (hupcoming : parser.upcoming = .mark kind :: rest) (hend : kind ≠ .endOfFile) (hnext : next true = return answer) :
    Succeeds (accept kind >>= next) parser fun found later => found = answer ∧ Advances parser later 1 [] := by
  refine .bind (.accept_of_eq hupcoming rfl hend) ?_
  rintro _ later ⟨rfl, hadvances⟩
  rw [hnext]
  exact .pure ⟨rfl, hadvances⟩

theorem logicalOperator_succeeds (hop : op.rank = 5)
    (hupcoming : parser.upcoming = op.tokens.map .mark ++ (right.lexemes ++ rest)) :
    Succeeds logicalOperator parser fun answer later =>
      answer = some op ∧ Advances parser later op.tokens.length [] := by
  -- The token behind a single one is no part of the operator, as no formula begins with it.
  obtain ⟨text, others, hfirst⟩ := right.lexemes_eq_cons
  obtain ⟨hthen, helse⟩ := right.first_ne_then
  rw [hfirst] at hupcoming
  cases op with
  | andThen =>
    refine .followedBy ?_
    rw [hupcoming]
    exact advanceTwice_succeeds hupcoming (by decide) (by decide)
  | orElse =>
    refine .followedBy ?_
    rw [hupcoming]
    refine .followedBy ?_
    rw [hupcoming]
    exact advanceTwice_succeeds hupcoming (by decide) (by decide)
  | and =>
    refine .followedBy ?_
    have hsecond : Lexeme.kindAt parser.upcoming 1 ≠ .kwThen := by rw [hupcoming]; exact hthen
    simp only [hsecond, decide_false, Bool.and_false]
    refine .followedBy ?_
    rw [hupcoming]
    exact acceptOperator_succeeds hupcoming (by decide) rfl
  | or =>
    refine .followedBy ?_
    have hsecond : Lexeme.kindAt parser.upcoming 1 ≠ .kwElse := by rw [hupcoming]; exact helse
    rw [hupcoming]
    refine .followedBy ?_
    simp only [hsecond, decide_false, Bool.and_false]
    refine .accept_of_ne (by rw [hupcoming]; exact TokenKind.noConfusion) ?_
    exact acceptOperator_succeeds hupcoming (by decide) rfl
  | xor =>
    refine .followedBy ?_
    rw [hupcoming]
    refine .followedBy ?_
    rw [hupcoming]
    refine .accept_of_ne (by rw [hupcoming]; exact TokenKind.noConfusion) ?_
    refine .accept_of_ne (by rw [hupcoming]; exact TokenKind.noConfusion) ?_
    exact acceptOperator_succeeds hupcoming (by decide) rfl
  | _ => cases hop

theorem describe_mixture {place : Nat} {first : BinaryOp} (hadvances : Advances parser later op.tokens.length [])
    (hplace : parser.position = place + left.lexemes.length) :
    later.describe (.mixedOperators parser.position first op) =
      Mixture.diagnostic parser.cursor.tokens ⟨place + left.lexemes.length, first, op⟩ := by
  have hlt : parser.position < later.cursor.tokens.size := hadvances.tokens ▸ parser.cursor.position_lt
  rw [describe, rangeFrom_eq later hlt, hadvances.tokens, hadvances.position, hplace]
  rfl

theorem noteOperator_succeeds (right : Formula) {place : Nat} (hop : op.rank = 5)
    (hadvances : Advances parser later op.tokens.length []) (hplace : parser.position = place + left.lexemes.length) :
    Succeeds (noteOperator ⟨node, left.connective, left.mixes⟩ op parser.position) later fun chain last =>
      chain = ⟨node, (Formula.binary op left right).connective, (Formula.binary op left right).mixes⟩ ∧
        Advances parser last op.tokens.length
          ((mixture place op left).map (·.diagnostic parser.cursor.tokens)) := by
  rw [connective, mixes, mixture, if_pos hop, hop]
  cases hfirst : left.connective with
  | none => exact .pure ⟨by simp, hadvances⟩
  | some first =>
    rw [noteOperator]
    by_cases hsame : first = op
    · have hquiet : (first ≠ op && !left.mixes) = false := by simp [hsame]
      dsimp only
      rw [if_neg (by rw [hquiet]; exact Bool.false_ne_true)]
      exact .pure ⟨by simp [hsame], by simpa [hsame] using hadvances⟩
    cases hmixes : left.mixes with
    | true =>
      have hquiet : (first ≠ op && !true) = false := by simp
      dsimp only
      rw [if_neg (by rw [hquiet]; exact Bool.false_ne_true)]
      exact .pure ⟨by simp, by simpa using hadvances⟩
    | false =>
      have hfind : Succeeds (find (.mixedOperators parser.position first op)) later fun _ last =>
          Advances later last 0 [Mixture.diagnostic parser.cursor.tokens ⟨place + left.lexemes.length, first, op⟩] := by
        rw [← describe_mixture hadvances hplace]
        exact .step rfl ⟨rfl, rfl, List.prefix_rfl, by simp [Parser.find, report, DiagnosticLog.report], rfl, rfl, rfl⟩
      dsimp only
      rw [if_pos (by simp [hsame])]
      refine .bind hfind fun _ last hfound => .pure ⟨by simp [hsame], ?_⟩
      simpa [hsame] using hadvances.trans hfound

end Formula

end AdaSyntax
