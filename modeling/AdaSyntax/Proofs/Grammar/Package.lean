import AdaSyntax.Grammar.Generic
import AdaSyntax.Proofs.Grammar.Statement

namespace AdaSyntax

namespace Grammar

open Program

variable {calls : ∀ {α : Type}, Production α → Parser → Reply α × Parser}
variable {origin base parser : Parser} {moved : Bool} {yield : Yield}

theorem bodyOwner_reads (name : Name) : Reads calls (bodyOwner name) := by
  refine (Reads.query rfl).seq fun resolution => ?_
  split <;> exact .pure _

theorem openBody_leads (h : Draft origin base parser moved yield) (owner : Option SymbolId) :
    Leads calls origin (openBody owner) parser fun _ later =>
      Draft origin base later moved (yield.opening .body) := by
  refine (h.openRegion _ (by nofun)).bind fun _ later h => ?_
  split
  · exact (addImport_passes _ _).leads h
  · exact .pure h

theorem genericKind_leads (h : Draft origin base parser moved yield) :
    Leads calls origin genericKind parser fun value later =>
      value.2.isHeld = false ∧ value.2 ≠ .unit ∧ Draft origin base later true yield := by
  refine (Reads.query rfl).bind fun kind => ?_
  split
  · exact advance_passes.bind h fun _ later h => .pure ⟨rfl, by decide, h⟩
  · exact advance_passes.bind h fun _ later h => .pure ⟨rfl, by decide, h⟩
  · exact advance_passes.bind h fun _ later h => .pure ⟨rfl, by decide, h⟩
  · exact .reject h.fails

theorem instanceDesignator_builds (kind : GenericKind) :
    Builds calls (instanceDesignator kind) true fun name => .names [name] := by
  cases kind with
  | function => exact functionDesignator_builds
  | _ => exact definingIdentifier_builds

theorem packageTemplate_reads (template : NodeId) : Reads calls (packageTemplate template) := by
  refine (classify_reads template).seq fun named => ?_
  split <;> exact .pure _

variable [Sound calls]

theorem privatePart_leads (h : Draft origin base parser moved yield) (hopened : yield.opened ≠ []) :
    Leads calls origin privatePart parser fun hidden later =>
      Draft origin base later false (yield ++ .declarations (hidden.getD [])) := by
  refine (accept_passes _).bind h fun hasPrivate later h => ?_
  split
  · refine Leads.bind ((h.markPrivate hopened).bind fun _ later h => ?_) fun hidden later h => .pure h
    exact ((declarativeItems_builds _).leads h).mono fun _ _ h => h.forget
  · exact .pure (h.trans (.none _ h.made.properLater)).forget

structure Specifies (base : Parser) (value : NodeId × SymbolId) (parser : Parser) : Prop where
  made : Parser.Made base parser true (.declaration value.1)
  symbol_le : base.symbols.symbols.size ≤ value.2.index

theorem packageSpecification_specifies (owner : Option NodeId) (kind : SymbolKind)
    (hproper : parser.symbols.Proper)
    (howner : ∀ outer, owner = some outer → ∃ start, parser.Awaits outer start)
    (hkind : kind.isHeld = false) :
    Leads calls parser (packageSpecification owner kind) parser (Specifies parser) := by
  have h : Draft parser parser parser false .empty := .refl hproper
  refine .position ?_
  refine (expect_passes _).bind h fun _ later h => ?_
  refine definingIdentifier_builds.bind h fun name later h => ?_
  refine (expectChoice_passes _).bind h fun _ later h => ?_
  refine (isAt_reads _).bind fun isInstance => ?_
  dsimp only
  split
  · exact .reject_bind h.fails
  · refine h.reserve.bind fun node later h => ?_
    have hspans : later.Spans (owner.getD node) name.place := by
      cases owner with
      | none => exact h.spans (List.mem_singleton_self (Hole.mk _ _ _ _)) (by simp)
      | some outer =>
        obtain ⟨start, hawaits⟩ := howner outer rfl
        exact h.made.spans_of_awaits hawaits (by simp)
    refine (h.declare hspans none hkind).bind fun symbol later ⟨h, hsymbol, _⟩ => ?_
    refine (h.openRegion _ (by nofun)).bind fun _ later h => ?_
    refine (declarativeItems_builds _).bind h fun visible later h => ?_
    refine (privatePart_leads h (by simp)).bind fun hidden later h => ?_
    refine (expect_passes _).bind h fun _ later h => ?_
    refine (endName_passes _).bind h fun endName later h => ?_
    refine (h.closeRegion (by nofun)).bind fun members later h => ?_
    refine (h.publish hsymbol members).bind fun _ later h => ?_
    exact (h.fill .declaration rfl (by simp) rfl ⟨rfl, rfl⟩).bind fun _ later ⟨h, _⟩ => .pure ⟨h.made, hsymbol⟩

theorem packageDeclaration_builds : Builds calls packageDeclaration true .declaration := by
  refine .intro fun parser h => ?_
  refine (packageSpecification_specifies none .package h.made.proper nofun rfl).bind
    fun value later hspec => ?_
  exact (expect_passes _).bind ⟨hspec.made, h.reverts⟩ fun _ later h => .pure h

theorem optionalStatements_leads (h : Draft origin base parser moved yield) :
    Leads calls origin (after .kwBegin handledStatements) parser fun body later =>
      DraftNext origin base later (yield ++ .statements body.toList) := by
  refine (accept_passes _).bind h fun hasBody later h => ?_
  split
  · exact (handledStatements_leads h).bind fun body later h => .pure h
  · exact .pure (h.trans (.none _ h.made.properLater)).next

theorem packageBody_builds : Builds calls packageBody true .declaration := by
  refine .intro fun parser h => .position ?_
  refine (expect_passes _).bind h fun _ later h => ?_
  refine (expectChoice_passes _).bind h fun _ later h => ?_
  refine definingIdentifier_passes.bind h fun name later h => ?_
  refine (expect_passes _).bind h fun _ later h => ?_
  refine rejectSeparate_passes.bind h fun _ later h => ?_
  refine (bodyOwner_reads _).bind fun owner => ?_
  refine (openBody_leads h owner).bind fun _ later h => ?_
  refine declarativePart_builds.bind h fun declarations later h => ?_
  refine (optionalStatements_leads h).bind fun body later h => ?_
  refine (expect_next h _).bind fun _ later h => ?_
  refine (endName_passes _).bind h fun endName later h => ?_
  refine (expect_passes _).bind h fun _ later h => ?_
  exact (h.closeRegion (by nofun)).bind fun _ later h => h.add .declaration (by simp) rfl

theorem formalObjectKind_isHeld (mode : Mode) : (formalObjectKind mode).isHeld = false := by
  cases mode <;> rfl

theorem formalObject_builds : Builds calls formalObject true .declaration := by
  refine .intro fun parser h => .position ?_
  refine identifierList_builds.bind h fun names later h => ?_
  refine (expect_passes _).bind h fun _ later h => ?_
  refine mode_passes.bind h fun mode later h => ?_
  refine typeMark_builds.bind h fun mark later h => ?_
  refine initialValue_builds.bind h fun initial later h => ?_
  refine (expect_passes _).bind h fun _ later h => ?_
  refine (h.define .declaration rfl rfl).bind fun node later ⟨h, hspans⟩ => ?_
  exact (declareAll_leads h hspans (by simp) (formalObjectKind_isHeld _) rfl).bind
    fun _ later h => .pure h

theorem formalTypeDefinition_builds (discriminated : Bool) :
    Builds calls (formalTypeDefinition discriminated) true fun value =>
      .declarations value.1.children := by
  refine .intro fun parser h => ?_
  refine (Reads.query rfl).bind fun kind => ?_
  split
  · refine (accept_passes _).bind h fun isLimited later h => ?_
    exact (expect_passes _).bind h fun _ later h => .pure (h.weaken .none)
  · refine (accept_passes _).bind h fun isLimited later h => ?_
    exact (expect_passes _).bind h fun _ later h => .pure (h.weaken .none)
  · refine advance_passes.bind h fun _ later h => ?_
    exact (expectAll_passes _ _).bind h fun _ later h => .pure (h.weaken .none)
  · refine advance_passes.bind h fun _ later h => ?_
    exact (expect_passes _).bind h fun _ later h => .pure (h.weaken .none)
  · refine advance_passes.bind h fun _ later h => ?_
    exact (expect_passes _).bind h fun _ later h => .pure (h.weaken .none)
  · refine advance_passes.bind h fun _ later h => ?_
    exact (expect_passes _).bind h fun _ later h => .pure (h.weaken .none)
  · exact (arrayDefinition_builds.serve .expression).bind h fun _ later h => .pure h
  · exact (accessDefinition_builds.serve .expression).bind h fun _ later h => .pure h
  · exact .reject h.fails

theorem formalType_builds : Builds calls formalType true .declaration := by
  refine .intro fun parser h => .position ?_
  refine (expect_passes _).bind h fun _ later h => ?_
  refine definingIdentifier_builds.bind h fun name later h => ?_
  refine (isAt_reads _).bind fun discriminated => ?_
  refine (h.openRegion _ (by nofun)).bind fun _ later h => ?_
  refine (optionalDiscriminants_builds _).bind h fun discriminants later h => ?_
  refine (expect_passes _).bind h fun _ later h => ?_
  refine (formalTypeDefinition_builds _).bind h fun definition later h => ?_
  refine (expect_passes _).bind h fun _ later h => ?_
  refine (h.closeRegion (by nofun)).bind fun _ later h => ?_
  refine (h.define .declaration (by simp) rfl).bind fun node later hdefined => ?_
  obtain ⟨h, hspans⟩ := hdefined
  exact (h.declare (hspans _ (by simp)) _ (by decide)).bind fun _ later hdeclared => .pure hdeclared.1

theorem formalDefault_builds :
    Builds calls formalDefault false fun default => .expressions default.children := by
  refine .intro fun parser h => ?_
  refine (accept_passes _).bind h fun hasDefault later h => ?_
  split
  · refine (accept_passes _).bind h fun isBox later h => ?_
    split
    · exact .pure (h.weaken .none)
    · exact name_builds.bind h fun name later h => .pure h.forget
  · exact .pure (h.weaken .none)

theorem formalSubprogram_builds : Builds calls formalSubprogram true .declaration := by
  refine .intro fun parser h => .position ?_
  refine (expect_passes _).bind h fun _ later h => ?_
  refine h.reserve.bind fun node later h => ?_
  refine (subprogramSpecification_leads h (List.mem_singleton_self _) false).bind
    fun header later ⟨h, _⟩ => ?_
  refine (h.closeRegion (by nofun)).bind fun _ later h => ?_
  refine formalDefault_builds.bind h fun default later h => ?_
  refine (expect_passes _).bind h fun _ later h => ?_
  exact (h.fill .declaration rfl rfl rfl ⟨rfl, rfl⟩).bind fun _ later ⟨h, _⟩ => .pure h

theorem genericSubprogram_specifies {node : NodeId} {start : Nat} (hproper : parser.symbols.Proper)
    (hawaits : parser.Awaits node start) :
    Leads calls parser (genericSubprogram node) parser (Specifies parser) := by
  refine (subprogramSpecification_heads hproper hawaits true).bind fun header later hheads => ?_
  have h : Draft parser parser later true _ := ⟨hheads.made, .refl parser⟩
  exact (h.closeRegion (by nofun)).bind fun _ later h => .pure ⟨h.made, hheads.symbol_le⟩

theorem genericUnit_specifies {node : NodeId} {start : Nat} (hproper : parser.symbols.Proper)
    (hawaits : parser.Awaits node start) :
    Leads calls parser (genericUnit node) parser (Specifies parser) := by
  refine (isAt_reads _).bind fun isPackage => ?_
  split
  · refine packageSpecification_specifies _ _ hproper (fun outer houter => ⟨start, ?_⟩) rfl
    exact Option.some.inj houter ▸ hawaits
  · exact genericSubprogram_specifies hproper hawaits

theorem genericUnit_leads {hole : Hole} (h : Draft origin base parser moved yield)
    (hhole : hole ∈ yield.holes) :
    Leads calls origin (genericUnit hole.node) parser fun value later =>
      Draft origin base later true (yield ++ .declaration value.1) ∧
        base.symbols.symbols.size ≤ value.2.index := by
  have hunit : Leads calls parser (genericUnit hole.node) parser (Specifies parser) :=
    genericUnit_specifies h.made.properLater (h.made.awaits hhole)
  exact ⟨hunit.outcome.mono (fun _ hfails => hfails.trans h.fails) fun _ _ hspec =>
    ⟨h.trans hspec.made, Nat.le_trans h.made.symbols_le hspec.symbol_le⟩⟩

theorem genericDeclaration_builds : Builds calls genericDeclaration true .declaration := by
  refine .intro fun parser h => .position ?_
  refine (expect_passes _).bind h fun _ later h => ?_
  refine h.reserve.bind fun node later h => ?_
  refine (h.openRegion _ (by nofun)).bind fun _ later h => ?_
  refine (Builds.items (firstOf_builds .declaration (by decide)) rfl).bind h fun formals later h => ?_
  refine (genericUnit_leads h (List.mem_singleton_self _)).bind fun unit later ⟨h, hsymbol⟩ => ?_
  refine (expect_passes _).bind h fun _ later h => ?_
  refine (h.closeRegion (by nofun)).bind fun members later h => ?_
  refine (h.publish hsymbol _).bind fun _ later h => ?_
  refine (h.bind hsymbol).bind fun _ later h => ?_
  exact (h.fill .declaration rfl (by simp) rfl ⟨rfl, rfl⟩).bind fun _ later ⟨h, _⟩ => .pure h

theorem genericInstantiation_builds : Builds calls genericInstantiation true .declaration := by
  refine .intro fun parser h => .position ?_
  refine (genericKind_leads h).bind fun kind later ⟨hkind, _, h⟩ => ?_
  refine (instanceDesignator_builds _).bind h fun name later h => ?_
  refine (expectChoice_passes _).bind h fun _ later h => ?_
  refine (expectChoice_passes _).bind h fun _ later h => ?_
  refine (expandedName_builds.serve .name).bind h fun template later h => ?_
  refine optionalActualParameters_builds.bind h fun actuals later h => ?_
  refine (expect_passes _).bind h fun _ later h => ?_
  refine (h.define .declaration rfl rfl).bind fun node later ⟨h, hspans⟩ => ?_
  refine (h.declare (hspans _ (by simp)) none hkind).bind fun symbol later ⟨h, hsymbol, _⟩ => ?_
  refine (packageTemplate_reads template).bind fun target => ?_
  exact (publishAs_leads h hsymbol target).bind fun _ later h => .pure h

end Grammar

end AdaSyntax
