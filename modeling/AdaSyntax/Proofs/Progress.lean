import AdaSyntax.Proofs.Discipline.Budget

/-!
Parsing gets ahead and comes to an end, on every stream of tokens and wherever in it a run begins.
-/

namespace AdaSyntax

open Program

namespace Context

def item : Context → Program NodeId
  | compilation => rule .compilationUnit
  | packageSpecification | declarativePart => firstOf Rule.declarativeItems
  | genericFormalPart => firstOf Rule.genericFormals
  | componentList => firstOf [.componentDeclaration, .pragma]
  | statementSequence => rule .statement

theorem item_supplies (context : Context) :
    ∃ rank ≤ Grammar.productionCount, context.item.Supplies rank true Knowledge.whole := by
  cases context with
  | compilation => exact ⟨2, by decide, rule_supplies .compilationUnit⟩
  | packageSpecification | declarativePart => exact ⟨1, by decide, (firstOf_supplies (by decide)).whole⟩
  | genericFormalPart => exact ⟨1, by decide, (firstOf_supplies (by decide)).whole⟩
  | componentList => exact ⟨1, by decide, (firstOf_supplies (by decide)).whole⟩
  | statementSequence => exact ⟨2, by decide, rule_supplies .statement⟩

end Context

theorem Program.Supplies.position_lt {α : Type} {rank : Nat} {program : Program α} {good : Knowledge → α → Prop}
    (h : program.Supplies rank true good) (hrank : rank ≤ Grammar.productionCount) {budget : Nat}
    {parser later : Parser} {value : α} (hrun : program.run (Grammar.call budget) parser = (.matched value, later)) :
    parser.position < later.position := by
  have hassures := h .all ⟨⟨rank, Nat.lt_succ_of_le hrank⟩, false, []⟩ (Stage.permits_of_le (Nat.le_refl _))
  have hcalls := fun tree limit => Grammar.call_calls budget (Knowledge.all_foresees tree limit)
  obtain ⟨-, last, ⟨hreaches, -⟩, hdescribes⟩ := last_of_matched program hcalls hassures hrun
  exact (hdescribes.moved (hreaches.moved rfl)).resolve_left Bool.false_ne_true

namespace Parser

/-- What starts here gets ahead and gets through. -/
structure Progresses (parser : Parser) : Prop where
  /-- A rule that matches has consumed a token. -/
  execute_lt : ∀ {rule node later}, (Program.rule rule).execute parser = (.matched node, later) →
    parser.position < later.position
  attempt_lt : ∀ {rule node later}, parser.attempt (Program.rule rule).execute = (.matched node, later) →
    parser.position < later.position
  /-- However a rule ends, the cursor is not in front of where it was. -/
  execute_le : ∀ rule, parser.position ≤ ((Program.rule rule).execute parser).2.position
  attempt_le : ∀ rule, parser.position ≤ (parser.attempt (Program.rule rule).execute).2.position
  /-- So has each round of a list, whether its item matched or something was skipped. -/
  round_lt : ∀ {context code budget node later}, parser.atListEnd context = false →
    parser.itemRound context code (context.item.run (Grammar.call budget)) = (.matched node, later) →
      parser.position < later.position
  /-- There are calls enough, and rounds; with more of them nothing else would come out. -/
  execute_ends : ∀ rule, ((Program.rule rule).execute parser).1 ≠ .exhausted ∧
    ∀ budget, Grammar.callBudget parser ≤ budget →
      (Program.rule rule).run (Grammar.call budget) parser = (Program.rule rule).execute parser
  attempt_ends : ∀ rule, (parser.attempt (Program.rule rule).execute).1 ≠ .exhausted
  units_end : (Grammar.compilationUnits.execute parser).1 ≠ .exhausted ∧
    ∀ budget, Grammar.callBudget parser ≤ budget →
      Grammar.compilationUnits.run (Grammar.call budget) parser = Grammar.compilationUnits.execute parser

theorem progresses (parser : Parser) : parser.Progresses where
  execute_lt {rule node later} hmatch := (rule_supplies rule).position_lt (Production.rule rule).rank_lt hmatch
  attempt_lt {rule node later} hmatch := by
    obtain ⟨-, inner, hinner, rfl⟩ := attempt_matched hmatch
    have hlt := (rule_supplies rule).position_lt (Production.rule rule).rank_lt hinner
    exact hlt
  execute_le rule := ((Program.rule rule).execute_allows parser).continues.position_le
  attempt_le rule := (attempt_allows (Program.rule rule).execute_allows).continues.position_le
  round_lt {context code budget node later} hopen hround := by
    obtain ⟨rank, hrank, hitem⟩ := context.item_supplies
    exact itemRound_lt (context.item.run_allows (Grammar.call_allows budget)) (hitem.position_lt hrank) hopen hround
  execute_ends rule := (rule_supplies rule).getsThrough (Production.rule rule).rank_lt parser
  attempt_ends rule :=
    attempt_not_exhausted ((rule_supplies rule).getsThrough (Production.rule rule).rank_lt parser.deeper).1
  units_end := Grammar.compilationUnits_supplies.getsThrough (by decide) parser

theorem attempt_unit {parser : Parser} {budget : Nat} (hbudget : Grammar.callBudget parser ≤ budget) :
    parser.attempt ((Program.rule .compilationUnit).run (Grammar.call budget)) =
      parser.attempt (Program.rule .compilationUnit).execute :=
  attempt_congr ((progresses parser.deeper).execute_ends .compilationUnit |>.2 budget hbudget)

end Parser

end AdaSyntax
