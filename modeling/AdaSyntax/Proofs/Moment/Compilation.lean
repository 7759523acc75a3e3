import AdaSyntax.Fragment
import AdaSyntax.Proofs.Grammar.Production
import AdaSyntax.Proofs.Moment.Unit

namespace AdaSyntax

open SymbolTable (orderly Orderly)

variable {α : Type} {budget : Nat} {parser now : Parser}

namespace Grammar

open Program

instance (clause : NodeId) (unit : DefiningName Nat) : Maintains orderly (withUnit clause unit) :=
  .skip fun known => by split <;> infer_instance

instance (clause : NodeId) (units : List (DefiningName Nat)) : Maintains orderly (withUnits clause units) := by
  induction units with
  | nil => unfold withUnits; infer_instance
  | cons unit units ih => unfold withUnits; infer_instance

instance : Maintains orderly withClause := by unfold withClause; infer_instance

theorem contextItem_maintains {kind : TokenKind} {item : Program NodeId} (h : contextItem? kind = some item) :
    Maintains orderly item := by
  unfold contextItem? at h
  split at h <;> cases h <;> infer_instance

instance : Maintains orderly contextItems :=
  loop_maintains fun items => .skip fun kind => by
    split
    · rename_i item hitem
      have := contextItem_maintains hitem
      infer_instance
    · infer_instance

instance (ids : List SymbolId) : Maintains orderly (moveToLibrary ids) := by
  induction ids with
  | nil => unfold moveToLibrary; infer_instance
  | cons id ids ih => unfold moveToLibrary; infer_instance

theorem importParent_tends (hcalls : Grammar.Tend orderly budget) (parent : NodeId)
    (h : parser.symbols.innermost.kind.importsByUse = false) :
    Tends orderly budget (importParent parent) parser fun _ _ => True := by
  refine .reads hcalls (classify_reads parent) fun named => ?_
  split
  · exact (addImport_tends h _ _).mono fun _ _ _ _ => trivial
  · exact (addImport_tends h _ _).mono fun _ _ _ _ => trivial
  · exact .pure trivial

theorem subunit_tends (hcalls : Grammar.Tend orderly budget) (h : parser.symbols.innermost.kind.importsByUse = false) :
    Tends orderly budget subunit parser fun _ _ => True := by
  refine .reads hcalls (.query rfl) fun start => ?_
  refine .builds hcalls advance_passes fun _ later hmade => ?_
  rw [← hmade.grown.innermost.1.kind] at h
  refine .builds hcalls (parenthesized_builds expandedName_builds) fun parent later hmade => ?_
  rw [← hmade.grown.innermost.1.kind] at h
  exact .bind (importParent_tends hcalls parent h) fun _ _ _ => .skip hcalls fun body _ => .known hcalls

theorem compilationUnit_tends (hcalls : Grammar.Tend orderly budget) :
    Tends orderly budget compilationUnit parser fun _ _ => True := by
  refine .skip hcalls fun start _ => ?_
  refine .bind (.of_finds hcalls (openRegion_finds .context none)) fun _ opened hsymbols => ?_
  refine .builds hcalls contextItems_builds fun context later hmade => ?_
  have hkind : later.symbols.innermost.kind.importsByUse = false := by
    rw [hmade.grown.innermost.1.kind, hsymbols]
    rfl
  refine .reads hcalls (isAt_reads _) fun isSubunit => ?_
  dsimp only
  split
  · exact .bind (subunit_tends hcalls hkind) fun _ _ _ => .known hcalls
  · exact .known hcalls

instance : Maintains orderly compilationUnit := ⟨fun hcalls _ => compilationUnit_tends hcalls⟩

instance : Maintains orderly compilationUnits :=
  loop_maintains fun units => .skip fun atEnd => by
    split
    · infer_instance
    · refine .skip fun found => ?_
      split <;> infer_instance

instance (called : Rule) : Maintains orderly (ofRule called) := by
  cases called <;> unfold ofRule <;> infer_instance

instance (production : Production α) : Maintains orderly (ofProduction production) := by
  cases production <;> unfold ofProduction <;> infer_instance

theorem tend_orderly (budget : Nat) : Grammar.Tend orderly budget := Grammar.tend (fun _ _ => inferInstance) budget

end Grammar

namespace Parser

/-- Where a parse may begin: in the library region, or in a package region of its own. -/
inductive Start : Parser → Prop where
  | library (cursor : Cursor) (options : Options) : Start (.new cursor options)
  | package (cursor : Cursor) (options : Options) :
      Start { Parser.new cursor options with
        symbols := (Parser.new cursor options).symbols.openRegion .package none }

/-- A state in the middle of a parse, of compilation units or by a single rule. -/
inductive Moment (now : Parser) : Prop where
  | units {start : Parser} (hstart : start.Start) (hnow : Grammar.compilationUnits.Comes start now)
  | fragment {start : Parser} (hstart : start.Start) (rule : Rule)
      (hnow : (Program.attempt (Program.rule rule)).Comes start now)

theorem callBudget_eq (parser : Parser) : Grammar.callBudget parser = Grammar.callBudget parser - 1 + 1 :=
  (Nat.succ_pred_eq_of_pos (Nat.mul_pos (Nat.succ_pos _) (by decide))).symm

theorem Moment.rule_first {start inner : Parser} (hstart : start.Start) (hdescend : start.descend = .ok inner)
    (rule : Rule) : inner.Moment :=
  .fragment hstart rule (.inr (.inr ⟨inner, hdescend, Grammar.visits_first _ (.rule rule) inner⟩))

theorem Moment.rule_last {start inner : Parser} (hstart : start.Start) (hdescend : start.descend = .ok inner)
    (rule : Rule) :
    ((Grammar.ofRule rule).run (Grammar.call (Grammar.callBudget start - 1)) inner).2.Moment := by
  refine .fragment hstart rule (.inr (.inr ⟨inner, hdescend, ?_⟩))
  have hlast := Grammar.visits_last (Grammar.callBudget start) (.rule rule) inner
  rw [callBudget_eq start] at hlast ⊢
  exact hlast

theorem Start.at (h : parser.Start) : orderly.At parser := by
  have hnew : ∀ cursor options, orderly.At (Parser.new cursor options) := by
    refine fun cursor options => ⟨.new cursor options, ?_⟩
    simp only [Parser.new]
    split
    · exact Orderly.empty.addPredefined
    · exact .empty
  cases h with
  | library cursor options => exact hnew cursor options
  | package cursor options =>
    have hstart := hnew cursor options
    exact ⟨hstart.reachable.move (.perform (.openRegion .package none)), hstart.holds.openRegion _ _⟩

theorem Moment.at (h : now.Moment) : orderly.At now := by
  cases h with
  | units hstart hnow => exact Program.Maintains.visits_at (Grammar.tend_orderly _) hstart.at hnow
  | fragment hstart rule hnow => exact Program.Maintains.visits_at (Grammar.tend_orderly _) hstart.at hnow

end Parser

end AdaSyntax
