import AdaSyntax.Proofs.Formula.Tokens

namespace AdaSyntax

/-- The tokens of the formula were consumed, its tree was built, and its mixtures were reported. -/
structure Parser.Takes (parser : Parser) (formula : Formula) (node : NodeId) (later : Parser) : Prop where
  advances : Advances parser later formula.lexemes.length
    ((formula.mixtures parser.position).map (·.diagnostic parser.cursor.tokens))
  represents : later.tree.Represents node formula

namespace Parser.Takes

variable {parser middle between later last : Parser} {formula left right inner operand : Formula} {op : BinaryOp}
variable {node other result : NodeId} {rest : List Lexeme}

theorem upcoming (h : parser.Takes formula node later) (hupcoming : parser.upcoming = formula.lexemes ++ rest) :
    later.upcoming = rest :=
  h.advances.upcoming hupcoming rfl

theorem unary {sign : UnaryOp} (hsign : Advances parser middle 1 []) (h : middle.Takes operand node between)
    (hadd : Advances between later 0 []) (hpayload : later.tree.payload result = .expr (.unary sign node)) :
    parser.Takes (.unary sign operand) result later where
  advances := by
    have hall := (hsign.trans h.advances).trans hadd
    rw [hsign.position, hsign.tokens] at hall
    simpa [Formula.lexemes, Formula.mixtures, Nat.add_comm] using hall
  represents := ⟨node, hpayload, h.represents.mono hadd.nodes⟩

theorem binary (hleft : parser.Takes left node middle)
    (hop : Advances middle between op.tokens.length
      ((Formula.mixture parser.position op left).map (·.diagnostic parser.cursor.tokens)))
    (hright : between.Takes right other later) (hadd : Advances later last 0 [])
    (hpayload : last.tree.payload result = .expr (.binary op node other)) :
    parser.Takes (.binary op left right) result last where
  advances := by
    have hall := ((hleft.advances.trans hop).trans hright.advances).trans hadd
    rw [hop.position, hleft.advances.position, hop.tokens, hleft.advances.tokens] at hall
    simpa [Formula.lexemes, Formula.mixtures, Nat.add_assoc] using hall
  represents :=
    have hnodes := (hop.nodes.trans hright.advances.nodes).trans hadd.nodes
    ⟨node, other, hpayload, hleft.represents.mono hnodes, hright.represents.mono hadd.nodes⟩

end Parser.Takes

namespace Formula

open Program Grammar AdaSyntax.Parser

variable {formula left right operand low high inner : Formula} {op : BinaryOp} {sign : UnaryOp}
variable {rank : Nat} {program : Program NodeId} {tail : Nat → NodeId → Program NodeId}
variable {parser later : Parser} {rest : List Lexeme} {node : NodeId} {start : Nat}

def Parses (formula : Formula) (rank : Nat) (program : Program NodeId) : Prop :=
  ∀ parser rest, parser.upcoming = formula.lexemes ++ rest → formula.Ends rank rest →
    parser.depth + formula.nesting ≤ parser.options.maxDepth → program.Succeeds parser (parser.Takes formula)

def Opens (formula : Formula) (rank : Nat) (program : Program NodeId) (tail : Nat → NodeId → Program NodeId) : Prop :=
  ∀ parser rest, parser.upcoming = formula.lexemes ++ rest → formula.Ends rank rest →
    parser.depth + formula.nesting ≤ parser.options.maxDepth → ∀ done,
      (∀ start node later, parser.Takes formula node later → (tail start node).Succeeds later done) →
        program.Succeeds parser done

theorem Opens.parses (h : formula.Opens rank program tail)
    (hstop : ∀ start node {later : Parser} {rest}, later.upcoming = rest → formula.Ends (rank + 1) rest →
      (tail start node).Succeeds later fun result last => result = node ∧ last = later) :
    formula.Parses (rank + 1) program := by
  intro parser rest hupcoming hends hdepth
  refine h parser rest hupcoming (hends.mono (Nat.le_succ _)) hdepth _ fun start node later htakes => ?_
  refine (hstop start node (htakes.upcoming hupcoming) hends).mono ?_
  rintro _ _ ⟨rfl, rfl⟩
  exact htakes

theorem mixture_eq_nil (place : Nat) (left : Formula) (hop : op.rank ≠ 5) : mixture place op left = [] := by
  simp [mixture, hop]

theorem leftAssociative_stop {operator? : TokenKind → Option BinaryOp} {operand : Program NodeId}
    (h : operator? (Lexeme.kindAt later.upcoming 0) = none) :
    (leftAssociative operator? operand start node).Succeeds later fun result last => result = node ∧ last = later := by
  refine .loop_stop (.kind ?_)
  rw [h]
  exact .pure ⟨node, rfl, rfl, rfl⟩

theorem Opens.binary {operator? : TokenKind → Option BinaryOp} {program' : Program NodeId} {kind : TokenKind}
    (hleft : left.Opens rank program (leftAssociative operator? program')) (hright : right.Parses rank program')
    (hrank : op.rank = rank + 1) (hless : right.rank < op.rank) (hlogical : op.rank ≠ 5)
    (htokens : op.tokens = [kind]) (hoperator : operator? kind = some op) (hend : kind ≠ .endOfFile) :
    (Formula.binary op left right).Opens rank program (leftAssociative operator? program') := by
  intro parser rest hupcoming hends hdepth done hdone
  simp only [nesting] at hdepth
  rw [lexemes, List.append_assoc, List.append_assoc] at hupcoming
  have hclosed : left.Ends rank (op.tokens.map .mark ++ (right.lexemes ++ rest)) := by
    have hends : left.Ends _ _ := ends_operator op (right.lexemes ++ rest)
    rwa [hrank] at hends
  refine hleft parser _ hupcoming hclosed (by omega) done fun start node middle htakes => ?_
  have hmiddle := htakes.upcoming hupcoming
  rw [htokens] at hmiddle
  refine .loop_round (.kind ?_)
  have hkind : Lexeme.kindAt middle.upcoming 0 = kind := by rw [hmiddle]; rfl
  rw [hkind, hoperator]
  refine .bind (.advance hmiddle hend) fun _ between hadvances => ?_
  have hbetween : between.upcoming = right.lexemes ++ rest := hadvances.rest hmiddle
  have hdeep : between.depth + right.nesting ≤ between.options.maxDepth := by
    rw [hadvances.depth, hadvances.options, htakes.advances.depth, htakes.advances.options]
    omega
  refine .bind (hright between rest hbetween (hends.of_binary (by omega) hless) hdeep) fun other later hother => ?_
  refine .bind (.add _ _) fun result last hadded => .pure ⟨result, rfl, ?_, ?_⟩
  · exact ((hadvances.trans hother.advances).trans hadded.1).remaining (by omega)
  · refine hdone start result last (htakes.binary ?_ hother hadded.1 hadded.2)
    rw [mixture_eq_nil _ _ hlogical, htokens]
    exact hadvances

theorem kindAt_first (hupcoming : parser.upcoming = formula.lexemes ++ rest) :
    Lexeme.kindAt parser.upcoming 0 = formula.first := by
  obtain ⟨text, others, hlexemes⟩ := formula.lexemes_eq_cons
  rw [hupcoming, hlexemes]
  rfl

theorem unary_succeeds (hoperand : operand.Parses (sign.rank - 1) program)
    (hupcoming : parser.upcoming = (unary sign operand).lexemes ++ rest)
    (hends : (unary sign operand).Ends (sign.rank - 1) rest)
    (hdepth : parser.depth + (unary sign operand).nesting ≤ parser.options.maxDepth) :
    Succeeds (do
      advance
      let node ← program
      add start (.expr (.unary sign node))) parser (parser.Takes (unary sign operand)) := by
  have hend : sign.token ≠ .endOfFile := by cases sign <;> decide
  have hrank : sign.rank - 1 < sign.rank := by cases sign <;> decide
  refine .bind (.advance hupcoming hend) fun _ middle hadvances => ?_
  have hmiddle : middle.upcoming = operand.lexemes ++ rest := hadvances.rest hupcoming
  have hdeep : middle.depth + operand.nesting ≤ middle.options.maxDepth := by
    rw [hadvances.depth, hadvances.options]
    exact hdepth
  refine .bind (hoperand middle rest hmiddle (hends.of_unary hrank) hdeep) fun node between htakes => ?_
  exact (Succeeds.add _ _).mono fun result later hadded => htakes.unary hadvances hadded.1 hadded.2

theorem lastFactor_eq (h : formula.rank = 0) : formula.lastFactor = formula := by
  cases formula with
  | unary op operand => cases op <;> cases h
  | binary op left right => cases op <;> cases h
  | membership operand negated low high => cases h
  | _ => rfl

theorem Parses.asFactor (h : formula.Parses 0 primary) (hrank : formula.rank = 0) : formula.Parses 1 factor := by
  intro parser rest hupcoming hends hdepth
  obtain ⟨habs, hnot⟩ := first_ne_not hrank
  refine .kind ?_
  rw [kindAt_first hupcoming]
  split
  · exact absurd ‹_› habs
  · exact absurd ‹_› hnot
  · refine .position (.bind (h parser rest hupcoming (hends.mono (Nat.zero_le _)) hdepth) fun node later htakes => ?_)
    refine .accept_of_ne ?_ (.pure htakes)
    rw [htakes.upcoming hupcoming]
    exact hends.power (Nat.le_refl _) (by rw [lastFactor_eq hrank]; exact hrank)

theorem parses_pow (hleft : left.Parses 0 primary) (hright : right.Parses 0 primary) (hl : left.rank = 0)
    (hr : right.rank = 0) : (binary .pow left right).Parses 1 factor := by
  intro parser rest hupcoming hends hdepth
  simp only [nesting] at hdepth
  obtain ⟨habs, hnot⟩ := first_ne_not hl
  rw [lexemes, List.append_assoc, List.append_assoc] at hupcoming
  refine .kind ?_
  rw [kindAt_first hupcoming]
  split
  · exact absurd ‹_› habs
  · exact absurd ‹_› hnot
  · refine .position (.bind (hleft parser _ hupcoming (ends_operator .pow _) (by omega)) fun node middle htakes => ?_)
    have hmiddle := htakes.upcoming hupcoming
    refine .bind (.accept_of_eq hmiddle rfl (by decide)) ?_
    rintro _ between ⟨rfl, hadvances⟩
    have hdeep : between.depth + right.nesting ≤ between.options.maxDepth := by
      rw [hadvances.depth, hadvances.options, htakes.advances.depth, htakes.advances.options]
      omega
    have hbetween : between.upcoming = right.lexemes ++ rest := hadvances.rest hmiddle
    have hclosed : right.Ends 0 rest := (hends.mono (Nat.zero_le _)).of_binary (by decide) (by rw [hr]; decide)
    refine .bind (hright between rest hbetween hclosed hdeep) fun other later hother => ?_
    refine (Succeeds.add _ _).mono fun result last hadded => htakes.binary ?_ hother hadded.1 hadded.2
    rw [mixture_eq_nil _ _ (by decide)]
    exact hadvances

theorem parses_prefixed (h : operand.Parses 0 primary) (hsign : sign.rank = 1) :
    (unary sign operand).Parses 1 factor := by
  intro parser rest hupcoming hends hdepth
  refine .kind ?_
  rw [kindAt_first hupcoming]
  have hoperand : operand.Parses (sign.rank - 1) primary := by rwa [hsign]
  have hclosed : (unary sign operand).Ends (sign.rank - 1) rest := hends.mono (by omega)
  cases sign with
  | abs => exact .position (unary_succeeds hoperand hupcoming hclosed hdepth)
  | not => exact .position (unary_succeeds hoperand hupcoming hclosed hdepth)
  | plus | minus => cases hsign

theorem Parses.opensTerm (h : formula.Parses 1 factor) :
    formula.Opens 1 term (leftAssociative multiplyingOperator? factor) := by
  intro parser rest hupcoming hends hdepth done hdone
  exact .position (.bind (h parser rest hupcoming hends hdepth) fun node later htakes => hdone _ node later htakes)

theorem Opens.asTerm (h : formula.Opens 1 term (leftAssociative multiplyingOperator? factor)) :
    formula.Parses 2 term :=
  h.parses fun _ _ _ _ hupcoming hends => leftAssociative_stop (hupcoming ▸ hends.multiplying (Nat.le_refl _))

theorem Parses.opensSimple (h : formula.Parses 2 term) (hsign : sign? formula.first = none) :
    formula.Opens 2 simpleExpression (leftAssociative addingOperator? term) := by
  intro parser rest hupcoming hends hdepth done hdone
  refine .position (.kind ?_)
  rw [kindAt_first hupcoming, hsign]
  exact .bind (h parser rest hupcoming hends hdepth) fun node later htakes => hdone _ node later htakes

theorem opens_signed (h : operand.Parses 2 term) (hsign : sign.rank = 3) :
    (unary sign operand).Opens 2 simpleExpression (leftAssociative addingOperator? term) := by
  intro parser rest hupcoming hends hdepth done hdone
  have hoperand : operand.Parses (sign.rank - 1) term := by rwa [hsign]
  have hclosed : (unary sign operand).Ends (sign.rank - 1) rest := by rwa [hsign]
  have hsigned : sign? (unary sign operand).first = some sign := by
    cases sign with
    | plus | minus => rfl
    | abs | not => cases hsign
  refine .position (.kind ?_)
  rw [kindAt_first hupcoming, hsigned]
  exact .bind (unary_succeeds hoperand hupcoming hclosed hdepth) fun node later htakes => hdone _ node later htakes

theorem Opens.asSimple (h : formula.Opens 2 simpleExpression (leftAssociative addingOperator? term)) :
    formula.Parses 3 simpleExpression :=
  h.parses fun _ _ _ _ hupcoming hends => leftAssociative_stop (hupcoming ▸ hends.adding (Nat.le_refl _))

end Formula

end AdaSyntax
