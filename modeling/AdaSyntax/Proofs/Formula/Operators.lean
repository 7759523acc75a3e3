import AdaSyntax.Proofs.Formula.Retrace

namespace AdaSyntax

namespace Formula

open Program Grammar AdaSyntax.Parser

variable {budget : Nat} {parser middle : Parser} {start : Nat} {left base : NodeId}

theorem unary_echoes {op : UnaryOp} {operand : Program NodeId} (hoperand : Retraces budget operand)
    (h : Lexeme.kindAt parser.upcoming 0 = op.token) :
    Finds budget (do
      advance
      let node ← operand
      add start (.expr (.unary op node))) parser parser.Echoes := by
  refine .bind (.advance h (by cases op <;> rfl)) fun _ middle hop => ?_
  refine .bind (hoperand middle) fun node later hechoes => ?_
  exact (Finds.add _ _).mono fun result last _ hadded => .unary hop hechoes hadded.1 hadded.2

theorem factor_retraces (hprimary : Retraces budget primary) : Retraces budget factor := by
  intro parser
  refine .kind ?_
  split
  · exact .position (unary_echoes hprimary ‹_›)
  · exact .position (unary_echoes hprimary ‹_›)
  · refine .position (.bind (hprimary parser) fun left middle hleft => ?_)
    refine .bind (.accept rfl) fun isPower later hlater => ?_
    cases isPower with
    | true =>
      refine .bind (hprimary later) fun right between hright => ?_
      exact (Finds.add _ _).mono fun node last _ hadded => .binary hleft hlater.2 hright hadded.1 hadded.2
    | false => exact .pure (hleft.still hlater.2)

theorem leftAssociative_echoes {operator? : TokenKind → Option BinaryOp} {operand : Program NodeId}
    (hoperator : ∀ kind op, operator? kind = some op → op.tokens = [kind] ∧ kind.isMark = true)
    (hoperand : Retraces budget operand) (h : parser.Echoes left middle) :
    Finds budget (leftAssociative operator? operand start left) middle parser.Echoes := by
  refine .loop (fun left middle => parser.Echoes left middle) h fun left middle h => .kind ?_
  split
  · rename_i op hop
    obtain ⟨htokens, hmark⟩ := hoperator _ _ hop
    refine .bind (.advance rfl hmark) fun _ between hspells => ?_
    refine .bind (hoperand between) fun right later hright => ?_
    refine .bind (.add _ _) fun node last hadded => .pure (.binary h ?_ hright hadded.1 hadded.2)
    rwa [htokens]
  · exact .pure h

theorem multiplyingOperator?_tokens (kind : TokenKind) (op : BinaryOp) (h : multiplyingOperator? kind = some op) :
    op.tokens = [kind] ∧ kind.isMark = true := by
  cases kind <;> cases h <;> exact ⟨rfl, rfl⟩

theorem addingOperator?_tokens (kind : TokenKind) (op : BinaryOp) (h : addingOperator? kind = some op) :
    op.tokens = [kind] ∧ kind.isMark = true := by
  cases kind <;> cases h <;> exact ⟨rfl, rfl⟩

theorem relationalOperator?_tokens (kind : TokenKind) (op : BinaryOp) (h : relationalOperator? kind = some op) :
    op.tokens = [kind] ∧ kind.isMark = true := by
  cases kind <;> cases h <;> exact ⟨rfl, rfl⟩

theorem sign?_token {kind : TokenKind} {op : UnaryOp} (h : sign? kind = some op) : kind = op.token := by
  cases kind <;> cases h <;> rfl

theorem term_retraces (hfactor : Retraces budget factor) : Retraces budget term := by
  intro parser
  refine .position (.bind (hfactor parser) fun left middle hleft => ?_)
  exact leftAssociative_echoes multiplyingOperator?_tokens hfactor hleft

theorem simpleExpression_retraces (hterm : Retraces budget term) : Retraces budget simpleExpression := by
  intro parser
  refine .position (.kind ?_)
  dsimp only
  split
  · rename_i op hop
    refine .bind (unary_echoes hterm (sign?_token hop)) fun left middle hleft => ?_
    exact leftAssociative_echoes addingOperator?_tokens hterm hleft
  · refine .bind (hterm parser) fun left middle hleft => ?_
    exact leftAssociative_echoes addingOperator?_tokens hterm hleft

theorem add_isName {use : NameUse} :
    Finds budget (add start (.name use)) parser fun node later => (later.tree.payload node).isName = true :=
  (Finds.add _ _).mono fun _ _ _ hadded => hadded.2 ▸ rfl

theorem directName_isName : Finds budget directName parser fun node later =>
    (later.tree.payload node).isName = true := by
  refine .skip fun _ _ => .skip fun isName _ => ?_
  split
  · exact .skip fun _ _ => .skip fun _ _ => add_isName
  · exact .refused

theorem select_isName {selector : Name} : Finds budget (select start base selector) parser fun node later =>
    (later.tree.payload node).isName = true :=
  .skip fun _ _ => .skip fun _ _ => add_isName

theorem expandedName_isName : Finds budget expandedName parser fun node later =>
    (later.tree.payload node).isName = true := by
  refine .skip fun _ _ => .skip fun isIdentifier _ => ?_
  split
  · refine .bind directName_isName fun base _ hbase => ?_
    refine .loop (fun node later => (later.tree.payload node).isName = true) hbase fun node later hnode => ?_
    refine .reads (Reads.query rfl) fun isSelected => ?_
    split
    · exact .skip fun _ _ => .skip fun _ _ => .bind select_isName fun _ _ hname => .pure hname
    · exact .pure hnode
  · exact .refused

theorem checkTypeMark_tree {mark : NodeId} {kind : SymbolKind} :
    Finds budget (checkTypeMark mark kind) parser fun _ later => later.tree = parser.tree := by
  unfold checkTypeMark
  split
  · exact Finds.find.mono fun _ _ _ hsame => hsame.2
  · split
    · exact .pure rfl
    · exact Finds.find.mono fun _ _ _ hsame => hsame.2

theorem typeMark_isName : Finds budget typeMark parser fun value later =>
    (later.tree.payload value.1).isName = true := by
  refine .skip fun _ _ => ?_
  split
  · refine .bind expandedName_isName fun node later hname => .reads (classify_reads node) fun known => ?_
    exact .bind checkTypeMark_tree fun _ last htree => .pure (htree ▸ hname)
  · exact .refused

theorem isRangeAttribute_finds : Finds budget (isRangeAttribute base) parser fun answer later =>
    later = parser ∧ (answer = true → (parser.tree.payload base).isName = true) := by
  refine .query rfl ?_
  split
  · rename_i hpayload
    refine .pure ⟨rfl, fun _ => ?_⟩
    rw [← Payload.isName_map fun _ => (), hpayload]
    rfl
  · exact .pure ⟨rfl, fun h => absurd h Bool.false_ne_true⟩

theorem range_echoes (hsimple : Retraces budget (.call .simpleExpression)) :
    Finds budget range parser parser.EchoesRange := by
  refine .position (.bind (hsimple parser) fun low middle hlow => ?_)
  refine .isAt (.bind isRangeAttribute_finds ?_)
  rintro isAttribute _ ⟨rfl, hname⟩
  split
  · rename_i hattribute
    exact .pure (.of_isName hlow.nodes (hname (Bool.and_eq_true _ _ ▸ hattribute).2))
  · refine .bind (.expectChoice rfl) fun _ between hdots => ?_
    refine .bind (hsimple between) fun high later hhigh => ?_
    exact (Finds.add _ _).mono fun node last _ hadded => Echoes.range hlow hdots hhigh hadded.1 hadded.2

theorem membershipTarget_echoes (hsimple : Retraces budget (.call .simpleExpression)) :
    Finds budget membershipTarget parser parser.EchoesRange := by
  refine .bind (.tried range_builds ((range_echoes hsimple).mono fun _ _ _ h => h.ascend)) fun found later hfound => ?_
  cases found with
  | some node => exact .pure (hfound.1 node rfl)
  | none =>
    refine .bind (typeMark_isName.both (.made typeMark_builds)) fun mark last hmark => ?_
    exact .pure (.of_isName ((hfound.2 rfl).nodes.trans hmark.2.reverts.nodes) hmark.1)

theorem membership_echoes (hsimple : Retraces budget (.call .simpleExpression)) (h : parser.Echoes left middle)
    (hin : Lexeme.kindAt middle.upcoming 0 = .kwIn ∨
      Lexeme.kindAt middle.upcoming 0 = .kwNot ∧ Lexeme.kindAt middle.upcoming 1 = .kwIn) :
    Finds budget (Grammar.membership start left) middle parser.Echoes := by
  refine .bind (.accept rfl) fun negated between hnot => ?_
  obtain ⟨hnegated, hbetween⟩ := hnot
  have hkind : Lexeme.kindAt between.upcoming 0 = .kwIn := by
    have hupcoming := hbetween.upcoming
    cases negated with
    | true =>
      have hnot : Lexeme.kindAt middle.upcoming 0 = .kwNot := eq_of_beq hnegated.symm
      have hsecond : Lexeme.kindAt middle.upcoming 1 = .kwIn := (hin.resolve_left (by simp [hnot])).2
      rwa [hupcoming] at hsecond
    | false =>
      have hnot : Lexeme.kindAt middle.upcoming 0 ≠ .kwNot := ne_of_beq_false hnegated.symm
      have hfirst : Lexeme.kindAt middle.upcoming 0 = .kwIn := hin.resolve_right fun hboth => hnot hboth.1
      rwa [hupcoming] at hfirst
  refine .bind (.advance hkind rfl) fun _ tested htested => ?_
  refine .bind (membershipTarget_echoes hsimple) fun target later hrange => ?_
  exact (Finds.add _ _).mono fun node last _ hadded =>
    .membership h (hbetween.trans htested) hrange hadded.1 hadded.2

theorem relation_retraces (hsimple : Retraces budget (.call .simpleExpression)) : Retraces budget relation := by
  intro parser
  refine .position (.bind (hsimple parser) fun left middle hleft => .kind ?_)
  split
  · rename_i op hop
    obtain ⟨htokens, hmark⟩ := relationalOperator?_tokens _ _ hop
    refine .bind (.advance rfl hmark) fun _ between hspells => ?_
    refine .bind (hsimple between) fun right later hright => ?_
    refine (Finds.add _ _).mono fun node last _ hadded => .binary hleft ?_ hright hadded.1 hadded.2
    rwa [htokens]
  · refine .isAt (.followedBy ?_)
    split
    · rename_i hin
      exact membership_echoes hsimple hleft (by simpa using hin)
    · exact .pure hleft

def spelling (op : Option BinaryOp) : List Lexeme := op.elim [] fun op => op.tokens.map .mark

theorem advanceTwice_spells {first second : TokenKind} {op : BinaryOp} (hfirst : first.isMark = true)
    (hsecond : second.isMark = true)
    (h : (Lexeme.kindAt parser.upcoming 0 = first && Lexeme.kindAt parser.upcoming 1 = second) = true)
    (htokens : op.tokens = [first, second]) :
    Finds budget (do
      advance
      advance
      return some op) parser fun op later => parser.Spells later (spelling op) := by
  simp only [Bool.and_eq_true, decide_eq_true_eq] at h
  refine .bind (.advance h.1 hfirst) fun _ middle hmiddle => ?_
  have hkind : Lexeme.kindAt middle.upcoming 0 = second := by
    rw [← h.2, hmiddle.upcoming]
    rfl
  refine .bind (.advance hkind hsecond) fun _ later hlater => .pure ?_
  rw [spelling, Option.elim_some, htokens]
  exact hmiddle.trans hlater

theorem logicalOperator_spells :
    Finds budget logicalOperator parser fun op later => parser.Spells later (spelling op) := by
  refine .followedBy ?_
  split
  · exact advanceTwice_spells rfl rfl ‹_› rfl
  refine .followedBy ?_
  split
  · exact advanceTwice_spells rfl rfl ‹_› rfl
  refine .bind (.accept rfl) fun isAnd middle hand => ?_
  cases isAnd with
  | true => exact .pure hand.2
  | false =>
    refine .bind (.accept rfl) fun isOr between hor => ?_
    cases isOr with
    | true => exact .pure (hand.2.trans hor.2)
    | false =>
      refine .bind (.accept rfl) fun isXor later hxor => ?_
      cases isXor with
      | true => exact .pure ((hand.2.trans hor.2).trans hxor.2)
      | false => exact .pure ((hand.2.trans hor.2).trans hxor.2)

theorem noteOperator_spells {chain : Chain} {op : BinaryOp} {place : Nat} :
    Finds budget (noteOperator chain op place) parser fun noted later =>
      noted.left = chain.left ∧ parser.Spells later [] := by
  unfold noteOperator
  split
  · exact .pure ⟨rfl, .refl parser⟩
  · split
    · exact .bind .find fun _ _ hsame => .pure ⟨rfl, .of_same hsame.1 hsame.2⟩
    · exact .pure ⟨rfl, .refl parser⟩

theorem logical_retraces (hrelation : Retraces budget relation) : Retraces budget logical := by
  intro parser
  refine .position (.bind (hrelation parser) fun left middle hleft => ?_)
  refine .loop (fun chain later => parser.Echoes chain.left later) hleft fun chain middle hleft => ?_
  refine .position (.bind logicalOperator_spells fun op between hop => ?_)
  cases op with
  | some op =>
    refine .bind noteOperator_spells fun noted later hnote => ?_
    obtain ⟨hnoted, hlater⟩ := hnote
    refine .bind (hrelation later) fun right last hright => ?_
    refine .bind (.add _ _) fun node _ hadded => .pure ?_
    have hpayload := hadded.2
    rw [hnoted] at hpayload
    exact .binary hleft (hop.still hlater) hright hadded.1 hpayload
  | none => exact .pure (hleft.still hop)

theorem call_retraces (budget : Nat) :
    Retraces budget (.call .simpleExpression) ∧ Retraces budget (rule .expression) := by
  induction budget with
  | zero =>
    constructor <;> intro parser _ node later hrun <;> cases hrun
  | succ budget ih =>
    obtain ⟨hsimple, hexpression⟩ := ih
    have hterm : Retraces budget term := term_retraces (factor_retraces (primary_retraces hexpression))
    have hlogical : Retraces budget logical := logical_retraces (relation_retraces hsimple)
    refine ⟨fun parser => .call (simpleExpression_retraces hterm parser), fun parser => .call ?_⟩
    exact .nested ((hlogical parser.deeper).mono fun _ _ _ h => h.ascend)

end Formula

end AdaSyntax
