import AdaSyntax.Proofs.Formula.Relation

namespace AdaSyntax

namespace Formula

open Program Grammar AdaSyntax.Parser

variable {formula left right : Formula} {op : BinaryOp}
variable {parser later : Parser} {rest : List Lexeme} {node : NodeId} {start : Nat}

theorem connective_eq_none (h : formula.rank < 5) : formula.connective = none := by
  cases formula with
  | binary op left right => exact if_neg (Nat.ne_of_lt h)
  | _ => rfl

theorem mixes_eq_false (h : formula.rank < 5) : formula.mixes = false := by
  cases formula with
  | binary op left right =>
    have hop : op.rank ≠ 5 := Nat.ne_of_lt h
    simp [mixes, hop]
  | _ => rfl

theorem Parses.opensChain (h : formula.Parses 4 relation) (hrank : formula.rank < 5) :
    formula.Opens 4 logical (chain formula) := by
  intro parser rest hupcoming hends hdepth done hdone
  refine .position (.bind (h parser rest hupcoming hends hdepth) fun node later htakes => ?_)
  have htail := hdone parser.position node later htakes
  rwa [chain, connective_eq_none hrank, mixes_eq_false hrank] at htail

theorem Opens.chained (hleft : left.Opens 4 logical (chain left)) (hright : right.Parses 4 relation)
    (hop : op.rank = 5) (hless : right.rank < 5) :
    (Formula.binary op left right).Opens 4 logical (chain (.binary op left right)) := by
  intro parser rest hupcoming hends hdepth done hdone
  simp only [nesting] at hdepth
  rw [lexemes, List.append_assoc, List.append_assoc] at hupcoming
  have hclosed : left.Ends 4 (op.tokens.map .mark ++ (right.lexemes ++ rest)) := by
    have hends : left.Ends _ _ := ends_operator op (right.lexemes ++ rest)
    rwa [hop] at hends
  refine hleft parser _ hupcoming hclosed (by omega) done fun start node middle htakes => ?_
  have hmiddle := htakes.upcoming hupcoming
  refine .loop_round (.position (.bind (logicalOperator_succeeds hop hmiddle) ?_))
  rintro _ between ⟨rfl, hadvances⟩
  refine .bind (noteOperator_succeeds right hop hadvances htakes.advances.position) ?_
  rintro _ noted ⟨rfl, hnoted⟩
  have hrest : noted.upcoming = right.lexemes ++ rest := hnoted.upcoming hmiddle (by simp)
  have hdeep : noted.depth + right.nesting ≤ noted.options.maxDepth := by
    rw [hnoted.depth, hnoted.options, htakes.advances.depth, htakes.advances.options]
    omega
  have hends' : right.Ends 4 rest := hends.of_binary (by omega) (by omega)
  refine .bind (hright noted rest hrest hends' hdeep) fun other later hother => ?_
  refine .bind (.add _ _) fun result last hadded => .pure ⟨_, rfl, ?_, ?_⟩
  · exact ((hnoted.trans hother.advances).trans hadded.1).remaining (by have := right.lexemes_pos; omega)
  · rw [htakes.advances.tokens] at hnoted
    exact hdone start result last (htakes.binary hnoted hother hadded.1 hadded.2)

theorem Opens.asLogical (h : formula.Opens 4 logical (chain formula)) : formula.Parses 5 logical := by
  refine h.parses fun start node later rest hupcoming hends => ?_
  have hstops : Lexeme.kindAt later.upcoming 0 ∉ [.kwAnd, .kwOr, .kwXor] := hupcoming ▸ hends.logical (Nat.le_refl _)
  refine .loop_stop (.position (.bind (logicalOperator_stops hstops) ?_))
  rintro _ _ ⟨rfl, rfl⟩
  exact .pure ⟨node, rfl, rfl, rfl⟩

end Formula

theorem Parser.Takes.ascend {parser later : Parser} {formula : Formula} {node : NodeId}
    (h : parser.deeper.Takes formula node later) : parser.Takes formula node later.ascend :=
  ⟨h.advances.ascend, h.represents⟩

theorem Formula.Parses.expression {formula : Formula} (h : formula.Parses 5 logical) {parser : Parser}
    {rest : List Lexeme} (hupcoming : parser.upcoming = formula.lexemes ++ rest) (hends : formula.Ends 5 rest)
    (hdepth : parser.depth + (formula.nesting + 1) ≤ parser.options.maxDepth) :
    (Program.rule .expression).Succeeds parser (parser.Takes formula) := by
  have hdeep : parser.deeper.depth + formula.nesting ≤ parser.deeper.options.maxDepth := by
    simp only [Parser.deeper]
    omega
  refine .call (.nested (by omega) ?_)
  exact (h parser.deeper rest hupcoming hends hdeep).mono fun node later htakes => htakes.ascend

theorem LiteralKind.token_ne (kind : LiteralKind) : kind.token ≠ .endOfFile := by
  cases kind <;> decide

namespace Formula

open Program Grammar AdaSyntax.Parser

variable {inner : Formula} {kind : LiteralKind} {text : String} {name : Name} {token : Token}
variable {parser : Parser} {rest : List Lexeme}

theorem text_of_lexeme (h : token.lexeme = ⟨kind.token, text⟩) : token.text = text := by
  have hkind : token.kind = kind.token := token.lexeme_kind.symm.trans (congrArg Lexeme.kind h)
  exact congrArg Lexeme.text ((Token.lexeme_of_literal hkind).symm.trans h)

theorem name_of_lexeme (h : token.lexeme = ⟨.identifier, name.text⟩) : Name.ofText token.text = name := by
  have hkind : token.kind = .identifier := token.lexeme_kind.symm.trans (congrArg Lexeme.kind h)
  exact congrArg (Name.mk ∘ Lexeme.text) ((Token.lexeme_of_identifier hkind).symm.trans h)

theorem lexeme_current {lexeme : Lexeme} (h : parser.upcoming = lexeme :: rest) : parser.current.lexeme = lexeme :=
  (List.cons.inj (parser.upcoming_eq.symm.trans h)).1

theorem literal_succeeds (hupcoming : parser.upcoming = (literal kind text).lexemes ++ rest) :
    Succeeds (Grammar.literal kind) parser (parser.Takes (literal kind text)) := by
  have htext : parser.current.text = text := text_of_lexeme (lexeme_current hupcoming)
  refine .position (.bind (.take hupcoming kind.token_ne) ?_)
  rintro _ middle ⟨rfl, hadvances⟩
  refine (Succeeds.add _ _).mono fun node later hadded => ⟨hadvances.still hadded.1, ?_⟩
  have hpayload := hadded.2
  rw [htext] at hpayload
  exact hpayload

theorem parses_literal : (literal kind text).Parses 0 primary := by
  intro parser rest hupcoming hends hdepth
  refine .kind ?_
  rw [kindAt_first hupcoming]
  cases kind with
  | string =>
    have hnext : Lexeme.kindAt rest 0 ≠ .leftParen := of_decide_eq_false hends.suffix
    refine .followedBy ?_
    rw [show parser.upcoming = _ from hupcoming]
    simp only [lexemes, List.cons_append, List.nil_append, Lexeme.kindAt_cons_succ, hnext, decide_false, Bool.and_false]
    exact literal_succeeds hupcoming
  | _ => exact literal_succeeds hupcoming

theorem directName_resolves (hupcoming : parser.upcoming = ⟨.identifier, name.text⟩ :: rest) :
    Succeeds directName parser fun node later => parser.Advances later 1 [] ∧ later.tree.payload node =
      .name (.identifier name (parser.symbols.resolve name).symbol (parser.symbols.resolve name).kind) := by
  have hname : Name.ofText parser.current.text = name := name_of_lexeme (lexeme_current hupcoming)
  refine .position (.isAtAny ?_)
  rw [hupcoming, Lexeme.kindAt_cons_zero]
  refine .bind (.take hupcoming TokenKind.noConfusion) ?_
  rintro _ middle ⟨rfl, hadvances⟩
  rw [hname]
  have hresolve : Succeeds (.step (.resolve name)) middle fun found later =>
      found = middle.symbols.resolve name ∧ later = middle := .step rfl ⟨rfl, rfl⟩
  refine .bind hresolve ?_
  rintro _ _ ⟨rfl, rfl⟩
  exact (Succeeds.add _ _).mono fun node later hadded =>
    ⟨hadvances.still hadded.1, hadvances.symbols ▸ hadded.2⟩

theorem directName_succeeds (hupcoming : parser.upcoming = (identifier name).lexemes ++ rest) :
    Succeeds directName parser (parser.Takes (identifier name)) :=
  (directName_resolves hupcoming).mono fun _ _ hresolved => ⟨hresolved.1, _, _, hresolved.2⟩

theorem suffix_stops {start : Nat} {base : NodeId} (h : Lexeme.kindAt parser.upcoming 0 ∉ [.dot, .leftParen, .tick]) :
    Succeeds (suffix start base) parser fun answer later => answer = none ∧ later = parser := by
  simp only [List.mem_cons, List.not_mem_nil, or_false, not_or] at h
  obtain ⟨hdot, hparen, htick⟩ := h
  refine .kind ?_
  split
  · exact absurd ‹_› hdot
  · exact absurd ‹_› hparen
  · exact absurd ‹_› htick
  · exact .pure ⟨rfl, rfl⟩

theorem parses_identifier : (identifier name).Parses 0 primary := by
  intro parser rest hupcoming hends hdepth
  have hnext : Lexeme.kindAt rest 0 ∉ [.dot, .leftParen, .tick] := by
    have hsuffix := hends.suffix
    simp only [lastPrimary, takesSuffix, Bool.or_eq_false_iff, decide_eq_false_iff_not] at hsuffix
    simpa [and_assoc] using hsuffix
  have hbody : Succeeds Grammar.name parser (parser.Takes (identifier name)) := by
    refine .nested (Nat.lt_of_succ_le hdepth) (.position (.bind (directName_succeeds hupcoming) ?_))
    intro base middle htakes
    rw [← htakes.upcoming hupcoming] at hnext
    refine .loop_stop (.bind (suffix_stops hnext) ?_)
    rintro _ _ ⟨rfl, rfl⟩
    exact .pure ⟨base, rfl, htakes.ascend⟩
  refine .kind ?_
  rw [kindAt_first hupcoming]
  refine .position (.bind (.call hbody) fun node later htakes => .followedBy ?_)
  rw [htakes.upcoming hupcoming]
  have htick : Lexeme.kindAt rest 0 ≠ .tick := fun heq => hnext (by simp [heq])
  simp only [htick, decide_false, Bool.false_and]
  exact .pure htakes

theorem aheadInGroup_eq_false (hupcoming : parser.upcoming = inner.lexemes ++ .mark .rightParen :: rest) :
    parser.cursor.aheadInGroup 0 [.arrow] = false := by
  have hend := Cursor.lexemesFrom_add hupcoming
  have hlt := Cursor.lt_size_of_lexemesFrom hend
  rw [Cursor.aheadInGroup, Nat.add_zero]
  rw [show parser.cursor.position = parser.position from rfl, inner.lexemes_neutral _ _ _ _ hupcoming, Cursor.groupHas,
    dif_pos hlt, Cursor.kind_of_lexemesFrom hend hlt]
  rfl

theorem association_succeeds (h : inner.Parses 5 logical)
    (hupcoming : parser.upcoming = inner.lexemes ++ .mark .rightParen :: rest)
    (hdepth : parser.depth + (inner.nesting + 1) ≤ parser.options.maxDepth) :
    Succeeds association parser (parser.Takes inner) := by
  refine .query (fun _ => rfl) ?_
  rw [aheadInGroup_eq_false hupcoming]
  exact h.expression hupcoming (ends_of_closes rfl) hdepth

theorem actualParameters_succeeds (h : inner.Parses 5 logical)
    (hupcoming : parser.upcoming = (parenthesized inner).lexemes ++ rest)
    (hdepth : parser.depth + (inner.nesting + 1) ≤ parser.options.maxDepth) :
    Succeeds actualParameters parser fun components later => ∃ node, components = [node] ∧
      Advances parser later (parenthesized inner).lexemes.length
        (((parenthesized inner).mixtures parser.position).map (·.diagnostic parser.cursor.tokens)) ∧
      later.tree.Represents node inner := by
  simp only [lexemes, List.cons_append, List.append_assoc, List.nil_append] at hupcoming
  refine .bind (.expect hupcoming rfl (by decide)) fun _ between hopen => ?_
  have hbetween := hopen.rest hupcoming
  have hdeep : between.depth + (inner.nesting + 1) ≤ between.options.maxDepth := by
    rwa [hopen.depth, hopen.options]
  have hloop : Succeeds (separated .comma association) between fun components later =>
      ∃ node, components = [node] ∧ between.Takes inner node later := by
    refine .loop_stop (.bind (association_succeeds h hbetween hdeep) fun node later htakes => ?_)
    refine .accept_of_ne ?_ (.pure ⟨[node], rfl, node, rfl, htakes⟩)
    rw [htakes.upcoming hbetween]
    exact TokenKind.noConfusion
  refine .bind hloop ?_
  rintro _ middle ⟨node, rfl, htakes⟩
  refine .bind (.expect (htakes.upcoming hbetween) rfl (by decide)) fun _ later hclose => ?_
  refine .pure ⟨node, rfl, ?_, htakes.represents.mono hclose.nodes⟩
  have hall := (hopen.trans htakes.advances).trans hclose
  rw [hopen.position, hopen.tokens] at hall
  simpa [lexemes, mixtures, Nat.add_comm] using hall

theorem parses_parenthesized (h : inner.Parses 5 logical) : (parenthesized inner).Parses 0 primary := by
  intro parser rest hupcoming hends hdepth
  refine .kind ?_
  rw [kindAt_first hupcoming]
  refine .position (.bind (actualParameters_succeeds h hupcoming hdepth) ?_)
  rintro _ middle ⟨node, rfl, hadvances, hinner⟩
  have hinspect : Succeeds (inspect node) middle fun payload later =>
      payload = (middle.tree.payload node).map (fun _ => ()) ∧ later = middle := .step rfl ⟨rfl, rfl⟩
  refine .bind hinspect ?_
  rintro _ _ ⟨rfl, rfl⟩
  split
  · -- The root of a formula is no association.
    rename_i hassociation
    have hroot := hinner.isFormula
    rw [← Payload.isFormula_map fun _ => (), hassociation] at hroot
    cases hroot
  · exact (Succeeds.add _ _).mono fun result later hadded =>
      ⟨hadvances.still hadded.1, node, hadded.2, hinner.mono hadded.1.nodes⟩

end Formula

end AdaSyntax
