import AdaSyntax.Proofs.Parser.Upcoming
import AdaSyntax.Proofs.Progress

namespace AdaSyntax

namespace Program

open AdaSyntax.Parser Lexeme

variable {α β σ : Type} {parser : Parser} {done done' : α → Parser → Prop}

def Succeeds (program : Program α) (parser : Parser) (done : α → Parser → Prop) : Prop :=
  ∃ value later, done value later ∧
    ∃ need, ∀ budget, need ≤ budget → program.run (Grammar.call budget) parser = (.matched value, later)

namespace Succeeds

theorem mono {program : Program α} (h : Succeeds program parser done)
    (hdone : ∀ value later, done value later → done' value later) : Succeeds program parser done' := by
  obtain ⟨value, later, hvalue, hrun⟩ := h
  exact ⟨value, later, hdone value later hvalue, hrun⟩

theorem pure {value : α} (h : done value parser) : Succeeds (.pure value) parser done :=
  ⟨value, parser, h, 0, fun _ _ => rfl⟩

theorem bind {first : Program β} {next : β → Program α} {middle : β → Parser → Prop}
    (hfirst : Succeeds first parser middle)
    (hnext : ∀ value later, middle value later → Succeeds (next value) later done) :
    Succeeds (first >>= next) parser done := by
  obtain ⟨found, between, hfound, need, hrun⟩ := hfirst
  obtain ⟨value, later, hvalue, need', hrun'⟩ := hnext found between hfound
  refine ⟨value, later, hvalue, max need need', fun budget hbudget => ?_⟩
  rw [run_bind, hrun budget (Nat.le_trans (Nat.le_max_left _ _) hbudget)]
  exact hrun' budget (Nat.le_trans (Nat.le_max_right _ _) hbudget)

theorem step {op : Op α} {value : α} {later : Parser} (hperform : parser.perform op = (.matched value, later))
    (h : done value later) : Succeeds (.step op) parser done :=
  ⟨value, later, h, 0, fun _ _ => hperform⟩

theorem query {first : Program β} {answer : β} {next : β → Program α}
    (hrun : ∀ budget, first.run (Grammar.call budget) parser = (.matched answer, parser))
    (h : Succeeds (next answer) parser done) : Succeeds (first >>= next) parser done := by
  obtain ⟨value, later, hvalue, need, hnext⟩ := h
  refine ⟨value, later, hvalue, need, fun budget hbudget => ?_⟩
  rw [run_bind, hrun budget]
  exact hnext budget hbudget

theorem call {production : Production α} (h : Succeeds (Grammar.ofProduction production) parser done) :
    Succeeds (.call production) parser done := by
  obtain ⟨value, later, hvalue, need, hrun⟩ := h
  refine ⟨value, later, hvalue, need + 1, fun budget hbudget => ?_⟩
  obtain ⟨smaller, rfl⟩ : ∃ smaller, budget = smaller + 1 := ⟨budget - 1, by omega⟩
  exact hrun smaller (Nat.le_of_succ_le_succ hbudget)

theorem nested {body : Program α} (hdepth : parser.depth < parser.options.maxDepth)
    (h : Succeeds body parser.deeper fun value later => done value later.ascend) :
    Succeeds (.nested body) parser done := by
  obtain ⟨value, later, hvalue, need, hrun⟩ := h
  refine ⟨value, later.ascend, hvalue, need, fun budget hbudget => ?_⟩
  have hdescend : parser.descend = .ok parser.deeper := if_neg (Nat.not_le.mpr hdepth)
  rw [run, Parser.nested, hdescend]
  simp only [hrun budget hbudget]

theorem attempt {body : Program β} {done : Option β → Parser → Prop}
    (hdepth : parser.depth < parser.options.maxDepth)
    (h : Succeeds body parser.deeper fun value later => done (some value) later.ascend) :
    Succeeds (.attempt body) parser done := by
  obtain ⟨value, later, hvalue, need, hrun⟩ := h
  refine ⟨some value, later.ascend, hvalue, need, fun budget hbudget => ?_⟩
  have hdescend : parser.descend = .ok parser.deeper := if_neg (Nat.not_le.mpr hdepth)
  rw [run_attempt, Parser.attempt, Parser.nested, hdescend]
  simp only [hrun budget hbudget, settle]

theorem repeatUntil_mono {body : σ → Parser → Reply (σ ⊕ α) × Parser} {fuel larger : Nat} {state : σ} {value : α}
    {later : Parser} (hrun : repeatUntil body fuel state parser = (.matched value, later)) (hle : fuel ≤ larger) :
    repeatUntil body larger state parser = (.matched value, later) := by
  induction fuel generalizing larger state parser with
  | zero => cases hrun
  | succ fuel ih =>
    obtain ⟨larger, rfl⟩ : ∃ smaller, larger = smaller + 1 := ⟨larger - 1, by omega⟩
    rw [repeatUntil] at hrun ⊢
    generalize body state parser = result at hrun ⊢
    obtain ⟨reply, between⟩ := result
    cases reply with
    | matched found =>
      cases found with
      | inl next => exact ih hrun (Nat.le_of_succ_le_succ hle)
      | inr value => exact hrun
    | _ => cases hrun

theorem loop_stop {body : σ → Program (σ ⊕ α)} {state : σ}
    (h : Succeeds (body state) parser fun result later => ∃ value, result = .inr value ∧ done value later) :
    Succeeds (.loop body state) parser done := by
  obtain ⟨_, later, ⟨value, rfl, hvalue⟩, need, hrun⟩ := h
  refine ⟨value, later, hvalue, need, fun budget hbudget => ?_⟩
  rw [run_loop, repeatUntil, hrun budget hbudget]

theorem loop_round {body : σ → Program (σ ⊕ α)} {state : σ}
    (h : Succeeds (body state) parser fun result later => ∃ next, result = .inl next ∧
      later.cursor.remaining < parser.cursor.remaining ∧ Succeeds (.loop body next) later done) :
    Succeeds (.loop body state) parser done := by
  obtain ⟨_, between, ⟨next, rfl, hless, value, later, hvalue, need', hrun'⟩, need, hrun⟩ := h
  refine ⟨value, later, hvalue, max need need', fun budget hbudget => ?_⟩
  have hnext := hrun' budget (Nat.le_trans (Nat.le_max_right _ _) hbudget)
  rw [run_loop] at hnext
  rw [run_loop, repeatUntil, hrun budget (Nat.le_trans (Nat.le_max_left _ _) hbudget)]
  exact repeatUntil_mono hnext hless

theorem position {next : Nat → Program α} (h : Succeeds (next parser.position) parser done) :
    Succeeds (Program.position >>= next) parser done :=
  .query (fun _ => rfl) h

theorem kind {next : TokenKind → Program α} (h : Succeeds (next (kindAt parser.upcoming 0)) parser done) :
    Succeeds (Program.kind >>= next) parser done :=
  .query (fun _ => by rw [← kind_eq]; rfl) h

theorem isAt {kind : TokenKind} {next : Bool → Program α}
    (h : Succeeds (next (kindAt parser.upcoming 0 == kind)) parser done) :
    Succeeds (Program.isAt kind >>= next) parser done :=
  .query (fun _ => by rw [← kind_eq]; rfl) h

theorem isAtAny {kinds : List TokenKind} {next : Bool → Program α}
    (h : Succeeds (next (kinds.contains (kindAt parser.upcoming 0))) parser done) :
    Succeeds (Program.isAtAny kinds >>= next) parser done :=
  .query (fun _ => by rw [← kind_eq]; rfl) h

theorem followedBy {first second : TokenKind} {next : Bool → Program α}
    (h : Succeeds (next (kindAt parser.upcoming 0 = first && kindAt parser.upcoming 1 = second)) parser done) :
    Succeeds (Program.followedBy first second >>= next) parser done :=
  .query (fun _ => by rw [← kind_eq, ← ahead_kind]; rfl) h

end Succeeds

theorem Succeeds.execute {rule : Rule} {done : NodeId → Parser → Prop} (h : Succeeds (Program.rule rule) parser done) :
    ∃ node later, (Program.rule rule).execute parser = (.matched node, later) ∧ done node later := by
  obtain ⟨node, later, hnode, need, hrun⟩ := h
  refine ⟨node, later, ?_, hnode⟩
  rw [← ((progresses parser).execute_ends rule).2 _ (Nat.le_max_right need _)]
  exact hrun _ (Nat.le_max_left _ _)

end Program

namespace Parser

/-- So many tokens were consumed and so much was reported. Nodes were added, and nothing else has changed. -/
structure Advances (parser later : Parser) (count : Nat) (found : List Diagnostic) : Prop where
  tokens : later.cursor.tokens = parser.cursor.tokens
  position : later.position = parser.position + count
  nodes : parser.tree.nodes.toList <+: later.tree.nodes.toList
  diagnostics : later.log.records.toList = parser.log.records.toList ++ found
  symbols : later.symbols = parser.symbols
  options : later.options = parser.options
  depth : later.depth = parser.depth

namespace Advances

variable {parser middle later : Parser} {count count' : Nat} {found found' : List Diagnostic}

theorem refl (parser : Parser) : Advances parser parser 0 [] :=
  ⟨rfl, rfl, List.prefix_rfl, (List.append_nil _).symm, rfl, rfl, rfl⟩

theorem trans (h : Advances parser middle count found) (h' : Advances middle later count' found') :
    Advances parser later (count + count') (found ++ found') where
  tokens := h'.tokens.trans h.tokens
  position := by rw [h'.position, h.position, Nat.add_assoc]
  nodes := h.nodes.trans h'.nodes
  diagnostics := by rw [h'.diagnostics, h.diagnostics, List.append_assoc]
  symbols := h'.symbols.trans h.symbols
  options := h'.options.trans h.options
  depth := h'.depth.trans h.depth

theorem still (h : Advances parser middle count found) (h' : Advances middle later 0 []) :
    Advances parser later count found := by
  simpa using h.trans h'

theorem upcoming {lexemes rest : List Lexeme} (h : Advances parser later count found)
    (hupcoming : parser.upcoming = lexemes ++ rest) (hcount : count = lexemes.length) : later.upcoming = rest := by
  rw [Parser.upcoming, h.tokens, h.position, hcount]
  exact Cursor.lexemesFrom_add hupcoming

theorem rest {lexeme : Lexeme} {rest : List Lexeme} (h : Advances parser later 1 found)
    (hupcoming : parser.upcoming = lexeme :: rest) : later.upcoming = rest := by
  rw [Parser.upcoming, h.tokens, h.position]
  exact Cursor.lexemesFrom_succ hupcoming

theorem remaining (h : Advances parser later count found) (hcount : 0 < count) :
    later.cursor.remaining < parser.cursor.remaining := by
  have hposition : later.cursor.position = parser.cursor.position + count := h.position
  have hlt := parser.cursor.position_lt
  simp only [Cursor.remaining, h.tokens, hposition]
  omega

theorem ascend (h : Advances parser.deeper later count found) : Advances parser later.ascend count found :=
  { h with depth := by simp [Parser.ascend, h.depth, deeper] }

end Advances

end Parser

namespace Program.Succeeds

open AdaSyntax.Parser

variable {parser : Parser} {lexeme : Lexeme} {rest : List Lexeme}

theorem take (h : parser.upcoming = lexeme :: rest) (hend : lexeme.kind ≠ .endOfFile) :
    Succeeds Program.take parser fun token later =>
      token = ⟨parser.current.kind, parser.current.text, parser.position⟩ ∧ Advances parser later 1 [] := by
  obtain ⟨later, htake, -, cursor, rfl, htokens, hposition⟩ := take_upcoming h hend
  have hperform : parser.perform .take =
      (.matched ⟨parser.current.kind, parser.current.text, parser.position⟩, { parser with cursor }) := by
    simp only [Parser.perform, htake, withPosition, Reply.map]
  exact .step hperform ⟨rfl, htokens, hposition, List.prefix_rfl, (List.append_nil _).symm, rfl, rfl, rfl⟩

theorem advance (h : parser.upcoming = lexeme :: rest) (hend : lexeme.kind ≠ .endOfFile) :
    Succeeds Program.advance parser fun _ later => Advances parser later 1 [] :=
  .bind (.take h hend) fun _ _ ⟨_, hadvances⟩ => .pure hadvances

theorem accept_refused {kind : TokenKind} {done : Bool → Parser → Prop}
    (hkind : Lexeme.kindAt parser.upcoming 0 ≠ kind) (h : done false parser) :
    Succeeds (Program.accept kind) parser done := by
  refine .isAt ?_
  rw [beq_eq_false_iff_ne.mpr hkind]
  exact .pure h

theorem accept_of_ne {α : Type} {kind : TokenKind} {next : Bool → Program α} {done : α → Parser → Prop}
    (hkind : Lexeme.kindAt parser.upcoming 0 ≠ kind) (h : Succeeds (next false) parser done) :
    Succeeds (Program.accept kind >>= next) parser done := by
  have hrefused : Succeeds (Program.accept kind) parser fun value later => value = false ∧ later = parser :=
    .accept_refused hkind ⟨rfl, rfl⟩
  refine .bind hrefused ?_
  rintro _ _ ⟨rfl, rfl⟩
  exact h

theorem accept_of_eq {kind : TokenKind} (h : parser.upcoming = lexeme :: rest) (hkind : lexeme.kind = kind)
    (hend : kind ≠ .endOfFile) :
    Succeeds (Program.accept kind) parser fun value later => value = true ∧ Advances parser later 1 [] := by
  refine .isAt ?_
  rw [h, Lexeme.kindAt_cons_zero, hkind, beq_self_eq_true]
  exact .bind (.advance h (hkind ▸ hend)) fun _ _ hadvances => .pure ⟨rfl, hadvances⟩

theorem expect {kind : TokenKind} (h : parser.upcoming = lexeme :: rest) (hkind : lexeme.kind = kind)
    (hend : kind ≠ .endOfFile) : Succeeds (Program.expect kind) parser fun _ later => Advances parser later 1 [] := by
  obtain ⟨later, htake, -, cursor, rfl, htokens, hposition⟩ := take_upcoming h (hkind ▸ hend)
  have hhere : parser.kind = kind := (kind_of_upcoming h).trans hkind
  have hperform : parser.perform (.expect kind) =
      (.matched ⟨parser.current.kind, parser.current.text, parser.position⟩, { parser with cursor }) := by
    simp only [Parser.perform, Parser.expect, if_pos hhere, htake, withPosition, Reply.map]
  exact .bind (.step hperform ⟨htokens, hposition, List.prefix_rfl, (List.append_nil _).symm, rfl, rfl, rfl⟩)
    fun _ _ hadvances => .pure hadvances

theorem expectChoice {kind : TokenKind} (h : parser.upcoming = lexeme :: rest) (hkind : lexeme.kind = kind)
    (hend : kind ≠ .endOfFile) :
    Succeeds (Program.expectChoice kind) parser fun _ later => Advances parser later 1 [] := by
  obtain ⟨later, htake, -, cursor, rfl, htokens, hposition⟩ := take_upcoming h (hkind ▸ hend)
  have hhere : parser.kind = kind := (kind_of_upcoming h).trans hkind
  have hperform : parser.perform (.expectChoice kind) =
      (.matched ⟨parser.current.kind, parser.current.text, parser.position⟩, { parser with cursor }) := by
    simp only [Parser.perform, Parser.expectChoice, if_pos hhere, htake, withPosition, Reply.map]
  exact .bind (.step hperform ⟨htokens, hposition, List.prefix_rfl, (List.append_nil _).symm, rfl, rfl, rfl⟩)
    fun _ _ hadvances => .pure hadvances

theorem add (start : Nat) (payload : Payload Nat) :
    Succeeds (Program.add start payload) parser fun node later =>
      Advances parser later 0 [] ∧ later.tree.payload node = payload.map parser.place := by
  refine .step rfl ⟨⟨rfl, rfl, ?_, (List.append_nil _).symm, rfl, rfl, rfl⟩, ?_⟩
  · simp
  · exact Tree.payload_of_get? (parser.tree.get?_add_self _ _)

end Program.Succeeds

end AdaSyntax
