import AdaSyntax.Proofs.Grammar.Effects
import AdaSyntax.Proofs.Parser.Blind

/-!
Ordered choice. Of a list of alternatives, the first one that matches on its own is taken, and it leaves
what it leaves on its own: what failed before it has no influence on how it is parsed and reported.
-/

namespace AdaSyntax

namespace Parser

/-- Whether an attempt of the rule matches here. -/
def accepts (parser : Parser) (rule : Rule) : Bool :=
  (parser.attempt (Program.rule rule).execute).1.value?.isSome

/-- `later` is `alone` but for the numbers of the regions from `first` on, which are moved up, and the
furthest mismatch. -/
def Renames (first : Nat) (alone later : Parser) : Prop :=
  ∃ distance furthest,
    later = { alone with symbols := alone.symbols.renumber first distance, furthest }

namespace Resumes

theorem refl (parser : Parser) : parser.Resumes parser := ⟨_, _, Nat.le_refl _, rfl⟩

theorem trans {first second third : Parser} (h : third.Resumes second) (h' : second.Resumes first) :
    third.Resumes first := by
  obtain ⟨next, furthest, hnext, rfl⟩ := h
  obtain ⟨next', furthest', hnext', rfl⟩ := h'
  exact ⟨next, furthest, Nat.le_trans hnext' hnext, rfl⟩

theorem disguise {parser later : Parser} (h : later.Resumes parser) (hnumbered : parser.symbols.Numbered) :
    later = ({ parser with furthest := none } : Parser).disguise parser.symbols.nextRegion
      (later.symbols.nextRegion - parser.symbols.nextRegion) later.furthest := by
  obtain ⟨next, furthest, hnext, rfl⟩ := h
  have hfurthest : Mismatch.further furthest none = furthest := by cases furthest <;> rfl
  simp only [Parser.disguise, hnumbered.renumber_eq, Nat.add_sub_cancel' hnext, hfurthest]

end Resumes

section

variable {parser current later : Parser} {rule : Rule} {node : NodeId}

theorem attempt_disguised (hnumbered : parser.symbols.Numbered) (h : current.Resumes parser) (rule : Rule) :
    Disguised parser.symbols.nextRegion (current.symbols.nextRegion - parser.symbols.nextRegion)
      current.furthest (({ parser with furthest := none } : Parser).attempt (Program.rule rule).execute)
      (current.attempt (Program.rule rule).execute) := by
  have hblind : Blind parser.symbols.nextRegion (current.symbols.nextRegion - parser.symbols.nextRegion)
      (·.attempt (Program.rule rule).execute) := (Blind.execute (Program.rule rule)).attempt
  have hdisguised := hblind.disguised current.furthest { parser with furthest := none } (Nat.le_refl _)
  rwa [← h.disguise hnumbered] at hdisguised

theorem attempt_mismatch (hnumbered : parser.symbols.Numbered) (h : current.Resumes parser)
    (hmismatch : current.attempt (Program.rule rule).execute = (.mismatch, later)) :
    parser.accepts rule = false := by
  have hcurrent := attempt_disguised hnumbered h rule
  have halone := attempt_disguised hnumbered (.refl parser) rule
  rw [hmismatch] at hcurrent
  unfold accepts
  generalize ({ parser with furthest := none } : Parser).attempt _ = result at hcurrent halone
  generalize parser.attempt _ = alone at halone ⊢
  cases hcurrent
  cases halone
  rfl

theorem attempt_renames (hnumbered : parser.symbols.Numbered) (h : current.Resumes parser)
    (hmatch : current.attempt (Program.rule rule).execute = (.matched node, later)) :
    ∃ alone, parser.attempt (Program.rule rule).execute = (.matched node, alone) ∧
      alone.Renames parser.symbols.nextRegion later := by
  have hcurrent := attempt_disguised hnumbered h rule
  have halone := attempt_disguised hnumbered (.refl parser) rule
  rw [hmatch] at hcurrent
  rw [Nat.sub_self] at halone
  generalize ({ parser with furthest := none } : Parser).attempt _ = result at hcurrent halone
  generalize parser.attempt _ = alone at halone ⊢
  cases hcurrent with
  | matched _ base =>
    cases halone
    refine ⟨_, rfl, current.symbols.nextRegion - parser.symbols.nextRegion,
      Mismatch.further current.furthest base.furthest, ?_⟩
    simp only [Parser.disguise, SymbolTable.renumber_zero]

theorem attempt_resumes (hproper : parser.symbols.Proper) (h : current.Resumes parser)
    (hmismatch : current.attempt (Program.rule rule).execute = (.mismatch, later)) :
    later.Resumes parser := by
  have hcurrent : current.deeper.symbols.Proper := by
    obtain ⟨next, furthest, -, rfl⟩ := h
    exact hproper
  have houtcome : Outcome (·.Resumes current) (fun _ _ => True)
      (current.attempt (Program.rule rule).execute) :=
    Parser.attempt_outcome <| (rule.execute_outcome hcurrent).mono (fun _ hfails => hfails)
      fun _ _ _ => trivial
  rw [hmismatch] at houtcome
  exact Resumes.trans houtcome h

end

end Parser

namespace Rule

open AdaSyntax.Parser

theorem attempt_call {parser current : Parser} (rule : Rule) (h : current.Resumes parser) :
    current.attempt ((Program.rule rule).run (Grammar.call (Grammar.callBudget parser))) =
      current.attempt (Program.rule rule).execute := by
  obtain ⟨next, furthest, -, rfl⟩ := h
  exact attempt_congr rfl

theorem tryRules_cons (rule : Rule) (rules : List Rule) {parser current : Parser}
    (h : current.Resumes parser) :
    (Program.tryRules (rule :: rules)).run (Grammar.call (Grammar.callBudget parser)) current =
      match current.attempt (Program.rule rule).execute with
      | (.matched node, later) => (.matched (some node), later)
      | (.mismatch, later) =>
        (Program.tryRules rules).run (Grammar.call (Grammar.callBudget parser)) later
      | (.fatal error, later) => (.fatal error, later)
      | (.exhausted, later) => (.exhausted, later) := by
  rw [Program.tryRules, Program.run_bind, Program.run_attempt, attempt_call rule h]
  generalize current.attempt (Program.rule rule).execute = result
  obtain ⟨reply, later⟩ := result
  cases reply <;> rfl

theorem tryRules_alone {parser current later : Parser} {node : NodeId} {rules : List Rule}
    (hreachable : parser.Reachable) (h : current.Resumes parser)
    (hmatch : (Program.tryRules rules).run (Grammar.call (Grammar.callBudget parser)) current =
      (.matched (some node), later)) :
    ∃ rule alone, rules.find? parser.accepts = some rule ∧
      parser.attempt (Program.rule rule).execute = (.matched node, alone) ∧
        alone.Renames parser.symbols.nextRegion later := by
  induction rules generalizing current with
  | nil => cases hmatch
  | cons rule rules ih =>
    rw [tryRules_cons rule rules h] at hmatch
    generalize hattempt : current.attempt (Program.rule rule).execute = result at hmatch
    obtain ⟨reply, ended⟩ := result
    cases reply with
    | matched found =>
      cases hmatch
      obtain ⟨alone, halone, hrenames⟩ := attempt_renames hreachable.numbered h hattempt
      refine ⟨rule, alone, List.find?_cons_of_pos ?_, halone, hrenames⟩
      rw [accepts, halone]
      rfl
    | mismatch =>
      have hrejects := attempt_mismatch hreachable.numbered h hattempt
      obtain ⟨found, alone, hfind, halone, hrenames⟩ :=
        ih (attempt_resumes hreachable.proper h hattempt) hmatch
      exact ⟨found, alone, by rw [List.find?_cons_of_neg (by simp [hrejects]), hfind], halone, hrenames⟩
    | fatal error => cases hmatch
    | exhausted => cases hmatch

/-- Ordered choice without interference: if one of the rules is taken, it is the first one that matches
on its own, and all is left as by that rule alone, but for the numbers of the regions that were opened on
the way and the furthest mismatch. -/
theorem firstOf_alone {parser later : Parser} {node : NodeId} {rules : List Rule}
    (hreachable : parser.Reachable)
    (hmatch : (Program.firstOf rules).execute parser = (.matched node, later)) :
    ∃ rule alone, rules.find? parser.accepts = some rule ∧
      parser.attempt (Program.rule rule).execute = (.matched node, alone) ∧
        alone.Renames parser.symbols.nextRegion later := by
  refine tryRules_alone hreachable (.refl parser) ?_
  rw [Program.execute, Program.firstOf, Program.run_bind] at hmatch
  generalize (Program.tryRules rules).run _ parser = result at hmatch ⊢
  obtain ⟨reply, ended⟩ := result
  cases reply with
  | matched found =>
    cases found with
    | none => cases hmatch
    | some node => cases hmatch; rfl
  | _ => cases hmatch

def procedureBody : Cursor where
  tokens := #[.ofText .kwProcedure "procedure" 0, .ofText .identifier "P" 10, .ofText .kwIs "is" 12,
    .ofText .kwBegin "begin" 15, .ofText .kwNull "null" 21, .ofText .semicolon ";" 25,
    .ofText .kwEnd "end" 27, .ofText .semicolon ";" 30, .endOfFile 31]
  position := 0
  position_lt := by decide
  last_kind := by decide

theorem firstOf_alone_procedureBody :
    let parser := Parser.new procedureBody { predefined := false }
    let rules := [Rule.subprogramDeclaration, Rule.subprogramBody]
    ∃ later, (Program.firstOf rules).execute parser = (.matched ⟨0⟩, later) ∧
      ∃ rule alone, rules.find? parser.accepts = some rule ∧
        parser.attempt (Program.rule rule).execute = (.matched ⟨0⟩, alone) ∧
          alone.Renames parser.symbols.nextRegion later :=
  ⟨_, Prod.ext rfl rfl, firstOf_alone (.new _ _) (Prod.ext rfl rfl)⟩

end Rule

end AdaSyntax
