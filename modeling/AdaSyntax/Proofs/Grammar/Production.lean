import AdaSyntax.Grammar.Production
import AdaSyntax.Proofs.Grammar.Package

namespace AdaSyntax

namespace Grammar

open Program

variable {calls : ∀ {α : Type}, Production α → Parser → Reply α × Parser}
variable {origin base parser : Parser} {moved : Bool} {yield : Yield}

theorem withUnits_leads {clause : NodeId} {units : List (DefiningName Nat)} {places : List Nat}
    (h : Draft origin base parser moved yield) (hspans : ∀ place ∈ places, parser.Spans clause place)
    (hnames : units.map DefiningName.place ⊆ places) (hsilent : yield.silent = false)
    (hfiles : yield.files = true) :
    Leads calls origin (withUnits clause units) parser fun _ later =>
      Draft origin base later moved yield := by
  induction units generalizing parser with
  | nil => exact .pure h
  | cons unit units ih =>
    obtain ⟨hname, hnames⟩ := List.cons_subset.mp hnames
    have hunit : Leads calls origin (withUnit clause unit) parser fun _ later =>
        Draft origin base later moved yield ∧ ∀ place ∈ places, later.Spans clause place := by
      refine (Reads.query rfl).bind fun known => ?_
      split
      · refine (h.file _).mono fun _ later hfiled => ?_
        obtain ⟨h, hkept⟩ := hfiled
        rw [Yield.filing_eq_self hsilent hfiles] at h
        exact ⟨h, fun place hplace => hkept _ _ (hspans place hplace)⟩
      · refine (h.declare (hspans _ hname) none rfl).bind fun _ later hdeclared => .pure ?_
        obtain ⟨h, -, hkept⟩ := hdeclared
        rw [Yield.loud_eq_self hsilent] at h
        exact ⟨h, fun place hplace => hkept _ _ (hspans place hplace)⟩
    exact hunit.bind fun _ later hlater => ih hlater.1 hlater.2 hnames

theorem withClause_builds : Builds calls withClause true fun node => (Yield.declaration node).filing := by
  refine .intro fun parser h => .position ?_
  refine advance_passes.bind h fun _ later h => ?_
  refine identifierList_builds.bind h fun units later h => ?_
  refine (expect_passes _).bind h fun _ later h => ?_
  refine (h.define .declaration rfl rfl).bind fun node later ⟨h, hspans⟩ => ?_
  exact (withUnits_leads (h.weaken (.filing _)) hspans (by simp) rfl rfl).bind fun _ later h => .pure h

theorem importParent_passes (parent : NodeId) : Passes calls (importParent parent) false := by
  refine .intro fun parser h => ?_
  refine (classify_reads parent).bind fun named => ?_
  split
  · exact (addImport_passes _ _).leads h
  · exact (addImport_passes _ _).leads h
  · exact .pure h

theorem moveToLibrary_leads (h : Draft origin base parser moved yield) (ids : List SymbolId)
    (hsilent : yield.silent = false) (hfiles : yield.files = true) :
    Leads calls origin (moveToLibrary ids) parser fun _ later => Draft origin base later moved yield := by
  induction ids generalizing parser with
  | nil => exact .pure h
  | cons id ids ih =>
    refine (Reads.query rfl).bind fun kind => ?_
    refine (Reads.query rfl).bind fun known => ?_
    dsimp only
    split
    · refine (h.file id).bind fun _ later ⟨h, _⟩ => ih ?_
      rwa [Yield.filing_eq_self hsilent hfiles] at h
    · exact ih h

variable [Sound calls]

theorem contextItem_builds {kind : TokenKind} {item : Program NodeId}
    (h : contextItem? kind = some item) :
    Builds calls item true fun node => (Yield.declaration node).filing := by
  unfold contextItem? at h
  split at h
  · cases h
    exact withClause_builds
  · cases h
    exact useClause_builds.weaken fun _ => .filing _
  · cases h
    exact pragma_builds.weaken fun _ => .filing _
  · cases h

theorem contextItems_builds : Builds calls contextItems false fun items => (Yield.declarations items).filing := by
  refine .intro fun parser h => ?_
  refine .loop (fun items later => Draft parser parser later false (Yield.declarations items.reverse).filing)
    (h.weaken .noneFiling) (fun _ _ h => h.fails) fun items later h => ?_
  refine (Reads.query rfl).bind fun kind => ?_
  split
  · rename_i item hitem
    refine (contextItem_builds hitem).bind h fun node later h => .pure ?_
    dsimp only
    rw [List.reverse_cons, Yield.declarations, Yield.many_snoc]
    exact h.forget
  · exact .pure h

theorem subunit_builds : Builds calls subunit true .declaration := by
  refine .intro fun parser h => .position ?_
  refine advance_passes.bind h fun _ later h => ?_
  refine (parenthesized_builds (expandedName_builds.serve .name)).bind h fun parent later h => ?_
  refine (importParent_passes parent).bind h fun _ later h => ?_
  exact (firstOf_builds .declaration (by decide)).bind h fun body later h => h.add .declaration rfl rfl

theorem compilationUnit_builds : Builds calls compilationUnit true fun node => (Yield.declaration node).filing := by
  refine .intro fun parser h => .position ?_
  refine (h.openRegion _ (by nofun)).bind fun _ later h => ?_
  refine contextItems_builds.bind h fun context later h => ?_
  refine (isAt_reads _).bind fun isSubunit => ?_
  dsimp only
  cases isSubunit with
  | true =>
    refine subunit_builds.bind h fun unit later h => ?_
    exact (h.closeRegion (by nofun)).bind fun members later h => h.add .declaration (by simp) rfl
  | false =>
    refine (firstOf_builds .declaration (by decide)).bind h fun unit later h => ?_
    refine (h.closeRegion (by nofun)).bind fun members later h => ?_
    exact (moveToLibrary_leads h _ rfl rfl).bind fun _ later h => h.add .declaration (by simp) rfl

theorem compilationUnits_builds :
    Builds calls compilationUnits false fun value => (Yield.declarations value.1).filing := by
  refine .intro fun parser h => ?_
  refine .loop (fun units later => Draft parser parser later false (Yield.declarations units.reverse).filing)
    (h.weaken .noneFiling) (fun _ _ h => h.fails) fun units later h => ?_
  refine (isAt_reads _).bind fun atEnd => ?_
  split
  · exact .pure h
  · have hunit : Builds calls (rule .compilationUnit) true fun node => (Yield.declaration node).filing :=
      Sound.compilationUnit
    have hattempt : Builds calls (attempt (rule .compilationUnit)) false fun found =>
        (Yield.declarations found.toList).filing :=
      hunit.attempt .noneFiling fun _ => rfl
    refine hattempt.bind h fun unit later h => ?_
    have h : Draft parser parser later false (Yield.declarations (units.reverse ++ unit.toList)).filing := by
      rw [Yield.declarations, Yield.many_append]
      exact h
    cases unit with
    | some unit => exact .pure (by simpa using h)
    | none => exact .pure (by simpa using h)

theorem ofRule_builds (rule : Rule) (h : rule ≠ .compilationUnit) :
    Builds calls (ofRule rule) true (.one rule.role) := by
  cases rule with
  | objectDeclaration => exact objectDeclaration_builds
  | numberDeclaration => exact numberDeclaration_builds
  | renamingDeclaration => exact renamingDeclaration_builds
  | exceptionDeclaration => exact exceptionDeclaration_builds
  | typeDeclaration => exact typeDeclaration_builds
  | subtypeDeclaration => exact subtypeDeclaration_builds
  | genericInstantiation => exact genericInstantiation_builds
  | bodyStub => exact bodyStub_builds
  | subprogramDeclaration => exact subprogramDeclaration_builds
  | subprogramBody => exact subprogramBody_builds
  | packageBody => exact packageBody_builds
  | packageDeclaration => exact packageDeclaration_builds
  | genericDeclaration => exact genericDeclaration_builds
  | useClause => exact useClause_builds
  | pragma => exact pragma_builds
  | componentDeclaration => exact componentDeclaration_builds
  | unconstrainedArray => exact unconstrainedArray_builds
  | constrainedArray => exact constrainedArray_builds
  | indexConstraint => exact indexConstraint_builds
  | discriminantConstraint => exact discriminantConstraint_builds
  | formalObject => exact formalObject_builds
  | formalType => exact formalType_builds
  | formalSubprogram => exact formalSubprogram_builds
  | statement => exact statement_builds
  | assignment => exact assignment_builds
  | procedureCall => exact procedureCall_builds
  | name => exact name_builds
  | expression => exact expression_builds
  | subtypeIndication => exact subtypeIndication_builds
  | discreteRange => exact discreteRange_builds true
  | range => exact range_builds
  | compilationUnit => exact absurd rfl h

theorem call_zero {α : Type} (production : Production α) (added : α → Yield) :
    Builds (call 0) (.call production) moved added :=
  fun parser _ => ⟨.refl parser⟩

theorem call_succ {α : Type} {budget : Nat} {production : Production α} {added : α → Yield}
    (h : Builds (call budget) (ofProduction production) moved added) :
    Builds (call (budget + 1)) (.call production) moved added :=
  fun parser hproper => ⟨(h parser hproper).outcome⟩

instance call_sound (budget : Nat) : Sound (call budget) := by
  induction budget with
  | zero => exact ⟨fun _ _ => call_zero _ _, call_zero _ _, call_zero _ _, call_zero _ _⟩
  | succ budget ih =>
    -- inside of a call, all others have the budget that is left, and `ih` holds of them
    exact ⟨fun rule hrule => call_succ (ofRule_builds rule hrule), call_succ compilationUnit_builds,
      call_succ simpleExpression_builds, call_succ componentList_builds⟩

end Grammar

end AdaSyntax
