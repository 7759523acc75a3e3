import AdaSyntax.Proofs.Discipline.Survival

namespace AdaSyntax

variable {α σ : Type}

namespace Parser

/-- The states with which rounds of a loop begin. -/
inductive Rounds (body : σ → Parser → Reply (σ ⊕ α) × Parser) (state : σ) (parser : Parser) : σ → Parser → Prop where
  | first : Rounds body state parser state parser
  | next {middle last : σ} {before after : Parser} (h : Rounds body state parser middle before)
      (hround : body middle before = (.matched (.inl last), after)) : Rounds body state parser last after

/-- The parsers with which rounds of a list begin. -/
inductive ItemRounds (context : Context) (code : Code) (item : Parser → Reply NodeId × Parser) (parser : Parser) :
    Parser → Prop where
  | first : ItemRounds context code item parser parser
  | next {before after : Parser} {node : Option NodeId} (h : ItemRounds context code item parser before)
      (hround : before.itemRound context code item = (.matched node, after)) :
      ItemRounds context code item parser after

/-- All ids that there are belong to something, and so do those of the step. -/
structure Accepts (parser : Parser) (op : Op α) : Prop where
  closed : parser.Closed
  affords : parser.Affords op

end Parser

def Program.Throughout (calls : ∀ {α : Type}, Production α → Parser → Reply α × Parser)
    (called : ∀ {α : Type}, Production α → Parser → Prop) : ∀ {α : Type}, Program α → Parser → Prop
  | _, .pure _, _ => True
  | _, .bind first next, parser =>
    Throughout calls called first parser ∧
      ∀ value later, first.run calls parser = (.matched value, later) → Throughout calls called (next value) later
  | _, .step op, parser => parser.Accepts op
  | _, .reject _, _ => True
  | _, .fail, _ => True
  | _, .call production, parser => called production parser
  | _, .attempt body, parser => ∀ inner, parser.descend = .ok inner → Throughout calls called body inner
  | _, .nested body, parser => ∀ inner, parser.descend = .ok inner → Throughout calls called body inner
  | _, .loop body state, parser =>
    ∀ last later, Parser.Rounds (fun state => (body state).run calls) state parser last later →
      Throughout calls called (body last) later
  | _, .items context code item, parser =>
    ∀ later, Parser.ItemRounds context code (item.run calls) (parser.pushContext context) later →
      later.atListEnd context = false → ∀ inner, later.forgetMismatch.descend = .ok inner →
        Throughout calls called item inner

def Grammar.Throughout : Nat → ∀ {α : Type}, Production α → Parser → Prop
  | 0, _, _, _ => True
  | budget + 1, _, production, parser =>
    (ofProduction production).Throughout (call budget) (Throughout budget) parser

def Program.Accepted (program : Program α) (parser : Parser) : Prop :=
  program.Throughout (Grammar.call (Grammar.callBudget parser)) (Grammar.Throughout (Grammar.callBudget parser)) parser

section

open AdaSyntax.Parser

variable {calls : ∀ {α : Type}, Production α → Parser → Reply α × Parser}
variable {called : ∀ {α : Type}, Production α → Parser → Prop}
variable {origin parser later : Parser} {stage : Stage}

namespace Program

theorem Survives.rounds {body : σ → Program (σ ⊕ α)} {done : Knowledge → Stage → α → Prop} {state last : σ}
    (hbody : ∀ state, (body state).Survives calls) (h : Intact origin stage.holes parser)
    (hassures : parser.Knows fun know => (Program.loop body state).Assures know stage (done know))
    (hrounds : Rounds (fun state => (body state).run calls) state parser last later) :
    (later.Knows fun know => (Program.loop body last).Assures know stage (done know)) ∧
      Intact origin stage.holes later := by
  induction hrounds with
  | first => exact ⟨hassures, h⟩
  | next _ hround ih =>
    have hupholds := (hbody _).round ih.2 ih.1
    rw [hround] at hupholds
    exact hupholds.outcome

theorem Survives.itemRounds {item : Program NodeId} {context : Context} {code : Code} (hitem : item.Survives calls)
    (hholes : stage.holes = []) (h : Intact origin [] parser)
    (hassures : parser.Knows fun know => item.Assures know stage fun last node => last.holes = [] ∧ know.whole node)
    (hrounds : ItemRounds context code (item.run calls) parser later) :
    (later.Knows fun know => item.Assures know stage fun last node => last.holes = [] ∧ know.whole node) ∧
      Intact origin [] later := by
  induction hrounds with
  | first => exact ⟨hassures, h⟩
  | next _ hround ih =>
    have hupholds := hitem.itemRound context code (.refl ih.2.proper ih.2.closed) hholes ih.1
    rw [hround] at hupholds
    obtain ⟨-, hlater⟩ := hupholds.outcome
    exact ⟨ih.1.of_reverts hlater.reverts, ih.2.trans hlater⟩

theorem throughout_of_assures (hcalls : Safe calls)
    (hcalled : ∀ {α : Type} (production : Production α) (parser : Parser), parser.symbols.Proper → parser.Closed →
      called production parser) (program : Program α) {done : Knowledge → Stage → α → Prop}
    (hassures : parser.Knows fun know => program.Assures know stage (done know))
    (h : Intact origin stage.holes parser) : program.Throughout calls called parser := by
  induction program generalizing origin parser stage with
  | pure value => trivial
  | bind first next ihfirst ihnext =>
    refine ⟨ihfirst hassures h, fun value later hrun => ?_⟩
    have hfirst := (first.survives hcalls).run h hassures
    rw [hrun] at hfirst
    obtain ⟨last, hknows, hlater⟩ := hfirst.outcome
    exact ihnext value hknows hlater
  | step op => exact ⟨h.closed, h.affords hassures.here.1⟩
  | reject expected => trivial
  | fail => trivial
  | call production => exact hcalled production parser h.proper h.closed
  | attempt body ih =>
    intro inner hinner
    obtain rfl := eq_deeper_of_descend hinner
    exact ih hassures.attempt.deeper h.deeper
  | nested body ih =>
    intro inner hinner
    obtain rfl := eq_deeper_of_descend hinner
    exact ih hassures.nested.deeper h.deeper
  | loop body state ih =>
    intro last later hrounds
    obtain ⟨hknows, hlater⟩ := Survives.rounds (fun state => (body state).survives hcalls) h hassures hrounds
    exact ih last hknows.round hlater
  | items context code item ih =>
    intro later hrounds _ inner hinner
    obtain rfl := eq_deeper_of_descend hinner
    have hstart : Intact (parser.pushContext context) [] (parser.pushContext context) :=
      .refl h.proper (h.closed.of_same rfl rfl)
    obtain ⟨hknows, hlater⟩ := (item.survives hcalls).itemRounds rfl hstart hassures.item hrounds
    exact ih hknows.forgetMismatch.deeper hlater.forgetMismatch.deeper

variable {program : Program α} {rank : Nat} {consumes : Bool} {good : Knowledge → α → Prop}

theorem Supplies.knows (h : program.Supplies rank consumes good) (hrank : rank ≤ Grammar.productionCount)
    (parser : Parser) :
    parser.Knows fun know => program.Assures know ⟨Fin.last _, false, []⟩ fun last value =>
      last.holes = [] ∧ good know value :=
  fun _ _ _ _ => Assures.imp (h _ _ (Stage.permits_of_le hrank)) fun _ _ hlast =>
    ⟨hlast.1.holes.trans (Stage.holes_after _ _), hlast.2⟩

theorem Supplies.upholds (h : program.Supplies rank consumes good) (hrank : rank ≤ Grammar.productionCount)
    (hcalls : Safe calls) (hproper : parser.symbols.Proper) (hclosed : parser.Closed) :
    Upholds parser (fun value later => (later.Knows fun know => good know value) ∧ Intact parser [] later)
      (program.run calls parser) := by
  have hstart : Intact parser (⟨Fin.last _, false, []⟩ : Stage).holes parser := .refl hproper hclosed
  refine ((program.survives hcalls).run hstart (h.knows hrank parser)).mono fun value later hlater => ?_
  obtain ⟨last, hknows, hlater⟩ := hlater
  have hholes : last.holes = [] := hknows.here.1
  exact ⟨fun nodes symbols hnodes hsymbols => (hknows nodes symbols hnodes hsymbols).2, hholes ▸ hlater⟩

theorem Supplies.throughout (h : program.Supplies rank consumes good) (hrank : rank ≤ Grammar.productionCount)
    (hcalls : Safe calls)
    (hcalled : ∀ {α : Type} (production : Production α) (parser : Parser), parser.symbols.Proper → parser.Closed →
      called production parser)
    (hproper : parser.symbols.Proper) (hclosed : parser.Closed) : program.Throughout calls called parser :=
  program.throughout_of_assures hcalls hcalled (h.knows hrank parser) (.refl hproper hclosed)

end Program

namespace Grammar

theorem call_safe (budget : Nat) : Safe (call budget) := by
  induction budget with
  | zero => exact fun _ parser _ _ => .exhausted (.refl parser)
  | succ budget ih =>
    exact fun production _ hproper hclosed =>
      (ofProduction_supplies production).upholds (Nat.le_of_lt production.rank_lt) ih hproper hclosed

theorem throughout (budget : Nat) (production : Production α) (parser : Parser) (hproper : parser.symbols.Proper)
    (hclosed : parser.Closed) : Throughout budget production parser := by
  induction budget generalizing α parser with
  | zero => trivial
  | succ budget ih =>
    exact (ofProduction_supplies production).throughout (Nat.le_of_lt production.rank_lt) (call_safe budget) ih hproper
      hclosed

end Grammar

variable {program : Program α} {rank : Nat} {consumes : Bool} {good : Knowledge → α → Prop}

theorem Program.Supplies.execute_upholds (h : program.Supplies rank consumes good)
    (hrank : rank ≤ Grammar.productionCount) (hproper : parser.symbols.Proper) (hclosed : parser.Closed) :
    Upholds parser (fun value later => (later.Knows fun know => good know value) ∧ Intact parser [] later)
      (program.execute parser) :=
  h.upholds hrank (Grammar.call_safe _) hproper hclosed

theorem Program.Supplies.accepted (h : program.Supplies rank consumes good) (hrank : rank ≤ Grammar.productionCount)
    (hproper : parser.symbols.Proper) (hclosed : parser.Closed) : program.Accepted parser :=
  h.throughout hrank (Grammar.call_safe _) (Grammar.throughout _) hproper hclosed

end

end AdaSyntax
