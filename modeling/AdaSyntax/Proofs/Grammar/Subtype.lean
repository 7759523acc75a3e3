import AdaSyntax.Grammar.TypeDeclaration
import AdaSyntax.Proofs.Grammar.Expression

namespace AdaSyntax

namespace Grammar

open Program

variable {calls : ∀ {α : Type}, Production α → Parser → Reply α × Parser}
variable {origin base parser : Parser} {moved : Bool} {node : NodeId}

def Definition.yield (definition : Definition) : Yield :=
  .declaration definition.node ++ .names definition.literals

theorem shapeOfSymbol_reads (symbol : Option SymbolId) : Reads calls (shapeOfSymbol symbol) := by
  cases symbol with
  | some id => exact .query rfl
  | none => exact .pure _

theorem indicationShape_reads (indication : NodeId) : Reads calls (indicationShape indication) := by
  refine (Reads.query rfl).seq fun payload => ?_
  split
  · refine (classify_reads _).seq fun named => ?_
    refine (shapeOfSymbol_reads _).seq fun shape => ?_
    split <;> exact .pure _
  · exact .pure _

theorem indexSubtype_builds : Builds calls indexSubtype true .expression := by
  refine .intro fun parser h => .position ?_
  refine typeMark_builds.bind h fun mark later h => ?_
  refine (expectChoice_passes _).bind h fun _ later h => ?_
  exact (expectChoice_passes _).bind h fun _ later h => h.add .expression rfl rfl

theorem enumerationLiteral_builds : Builds calls enumerationLiteral true fun name => .names [name] := by
  refine .intro fun parser h => ?_
  refine (Reads.query rfl).bind fun kind => ?_
  split
  · exact takeToken_builds.bind h fun _ later h => .pure h
  · exact takeToken_builds.bind h fun _ later h => .pure h
  · exact .reject h.fails

def Views (calls : ∀ {α : Type}, Production α → Parser → Reply α × Parser) (discriminants : List NodeId)
    (program : Program TypeView) : Prop :=
  ∀ {origin base parser : Parser} {moved : Bool} {yield : Yield},
    Draft origin base parser moved yield →
    Leads calls origin program parser fun view later =>
      view.kind.isHeld = false ∧ (Payload.decl view.decl).Completes none ∧ ∃ definition,
      view.decl.pieces = Piece.many .declaration (discriminants ++ definition) ∧
        Draft origin base later true (yield ++ (.declarations definition ++ .names view.literals))

theorem privateView_views (name : DefiningName Nat) (discriminants : List NodeId)
    (discriminated : Bool) :
    Views calls discriminants (privateView name discriminants discriminated) := by
  intro origin base parser moved yield h
  refine (accept_passes _).bind h fun isLimited later h => ?_
  refine (expectAll_passes _ _).bind h fun _ later h => .pure ?_
  exact ⟨rfl, ⟨rfl, rfl⟩, [], by simp, h.trans (.none .declaration h.made.properLater)⟩

theorem enumerationDefinition_builds :
    Builds calls enumerationDefinition true Definition.yield := by
  refine .intro fun parser h => .position ?_
  refine advance_passes.bind h fun _ later h => ?_
  refine (separated_names enumerationLiteral_builds).bind h fun literals later h => ?_
  refine (expect_passes _).bind h fun _ later h => ?_
  exact (h.add .declaration rfl rfl).bind fun node later h => .pure h

variable [Sound calls]

theorem accuracy_builds : Builds calls accuracy true fun value => .expressions (value.1 :: value.2.toList) := by
  refine .intro fun parser h => ?_
  refine advance_passes.bind h fun _ later h => ?_
  refine simpleExpression_call.bind h fun value later h => ?_
  exact (after_builds (range_builds.serve .bounds)).bind h fun bounds later h => .pure h

theorem floatingConstraint_builds : Builds calls floatingConstraint true .expression := by
  refine .intro fun parser h => .position ?_
  exact accuracy_builds.bind h fun value later h => h.add .expression rfl rfl

theorem fixedConstraint_builds : Builds calls fixedConstraint true .expression := by
  refine .intro fun parser h => .position ?_
  exact accuracy_builds.bind h fun value later h => h.add .expression rfl rfl

theorem indexConstraint_builds : Builds calls indexConstraint true .expression := by
  refine .intro fun parser h => .position ?_
  exact (parenthesized_builds (separated_builds (discreteRange_builds true))).bind h
    fun ranges later h => h.add .expression rfl rfl

theorem discriminantConstraint_builds :
    Builds calls discriminantConstraint true .expression := by
  refine .intro fun parser h => .position ?_
  exact actualParameters_builds.bind h fun associations later h => h.add .expression rfl rfl

theorem parenthesizedConstraint_builds (shape : TypeShape) :
    Builds calls (parenthesizedConstraint shape) false fun found => .expressions found.toList := by
  unfold parenthesizedConstraint
  split
  · exact attempt_builds indexConstraint_builds
  · split
    · exact attempt_builds discriminantConstraint_builds
    · split
      · exact tryRules_builds (by decide)
      · exact .pure .none

theorem constraint_builds (shape : TypeShape) :
    Builds calls (constraint shape) false fun found => .expressions found.toList := by
  refine .intro fun parser h => ?_
  refine (Reads.query rfl).bind fun kind => ?_
  split
  · exact (attempt_builds rangeConstraint_builds).leads h
  · exact (attempt_builds floatingConstraint_builds).leads h
  · exact (attempt_builds fixedConstraint_builds).leads h
  · exact (parenthesizedConstraint_builds _).leads h
  · exact .pure h

theorem subtypeIndication_builds : Builds calls subtypeIndication true (.one .indication) := by
  refine .intro fun parser h => .position ?_
  refine (isAt_reads _).bind fun isName => ?_
  split
  · refine typeMark_builds.bind h fun mark later h => ?_
    refine (shapeOfSymbol_reads _).bind fun shape => ?_
    exact (constraint_builds shape).bind h fun constraint later h => h.add .indication rfl rfl
  · exact .reject h.fails

theorem arrayOf_builds {indexes : Program NodeId}
    (hindexes : Builds calls indexes true .expression) :
    Builds calls (arrayOf indexes) true fun value =>
      .expressions value.1 ++ .expression value.2 := by
  refine .intro fun parser h => ?_
  refine (expectAll_passes _ _).bind h fun _ later h => ?_
  refine (separated_builds hindexes).bind h fun indexes later h => ?_
  refine (expectAll_passes _ _).bind h fun _ later h => ?_
  exact (subtypeIndication_builds.serve .indication).bind h fun element later h => .pure h

theorem unconstrainedArray_builds : Builds calls unconstrainedArray true .expression := by
  refine .intro fun parser h => .position ?_
  exact (arrayOf_builds indexSubtype_builds).bind h fun value later h => h.add .expression (by simp) rfl

theorem constrainedArray_builds : Builds calls constrainedArray true .expression := by
  refine .intro fun parser h => .position ?_
  exact (arrayOf_builds (discreteRange_builds true)).bind h fun value later h => h.add .expression (by simp) rfl

theorem arrayDefinition_builds : Builds calls arrayDefinition true fun value => .expression value.1 := by
  refine .intro fun parser h => ?_
  refine (firstOf_builds .expression (by decide)).bind h fun definition later h => ?_
  refine (Reads.query rfl).bind fun payload => ?_
  split <;> exact .pure h

theorem accessDefinition_builds : Builds calls accessDefinition true fun value => .expression value.1 := by
  refine .intro fun parser h => .position ?_
  refine advance_passes.bind h fun _ later h => ?_
  refine (subtypeIndication_builds.serve .indication).bind h fun designated later h => ?_
  refine (indicationShape_reads designated).bind fun shape => ?_
  exact (h.add .expression rfl rfl).bind fun node later h => .pure h

theorem discriminantSpecification_builds :
    Builds calls discriminantSpecification true .declaration := by
  refine .intro fun parser h => .position ?_
  refine identifierList_builds.bind h fun names later h => ?_
  refine (expect_passes _).bind h fun _ later h => ?_
  refine typeMark_builds.bind h fun mark later h => ?_
  refine initialValue_builds.bind h fun initial later h => ?_
  refine (h.define .declaration rfl rfl).bind fun node later ⟨h, hspans⟩ => ?_
  exact (declareAll_leads h hspans (by simp) rfl rfl).bind fun _ later h => .pure h

theorem discriminantPart_builds : Builds calls discriminantPart true .declarations := by
  refine .intro fun parser h => ?_
  refine (expect_passes _).bind h fun _ later h => ?_
  refine (h.openRegion _ (by nofun)).bind fun _ later h => ?_
  refine (separated_builds discriminantSpecification_builds).bind h fun specifications later h => ?_
  refine (expect_passes _).bind h fun _ later h => ?_
  refine (h.closeOwned (by nofun) rfl).bind fun members later ⟨h, hmembers⟩ => ?_
  exact (bindAll_leads h hmembers rfl).bind fun _ later h => .pure (by simpa using h)

theorem optionalDiscriminants_builds (present : Bool) :
    Builds calls (optionalDiscriminants present) false .declarations := by
  unfold optionalDiscriminants
  split
  · exact discriminantPart_builds.forget
  · exact .pure .none

theorem componentDeclaration_builds : Builds calls componentDeclaration true .declaration := by
  refine .intro fun parser h => .position ?_
  refine identifierList_builds.bind h fun names later h => ?_
  refine (expect_passes _).bind h fun _ later h => ?_
  refine ((rule_builds .subtypeIndication (by decide)).serve .indication).bind h fun indication later h => ?_
  refine initialValue_builds.bind h fun initial later h => ?_
  refine (expect_passes _).bind h fun _ later h => ?_
  refine (h.define .declaration rfl rfl).bind fun node later ⟨h, hspans⟩ => ?_
  exact (declareAll_leads h hspans (by simp) rfl rfl).bind fun _ later h => .pure h

theorem variant_builds : Builds calls variant true .declaration := by
  refine .intro fun parser h => .position ?_
  refine advance_passes.bind h fun _ later h => ?_
  refine choiceList_builds.bind h fun choices later h => ?_
  refine (expect_passes _).bind h fun _ later h => ?_
  refine (Sound.componentList : Builds calls _ false _).bind h fun components later h => ?_
  exact h.add .declaration (by simp) rfl

theorem variantPart_builds : Builds calls variantPart true .declaration := by
  refine .intro fun parser h => .position ?_
  refine advance_passes.bind h fun _ later h => ?_
  refine name_builds.bind h fun discriminant later h => ?_
  refine (expect_passes _).bind h fun _ later h => ?_
  refine (whileAt_builds variant_builds).bind h fun variants later h => ?_
  exact (expectAll_passes _ _).bind h fun _ later h => h.add .declaration rfl rfl

theorem componentList_builds :
    Builds calls componentList false fun value =>
      .declarations value.1 ++ .declarations value.2.toList := by
  refine .intro fun parser h => ?_
  refine (Reads.query rfl).bind fun isNull => ?_
  split
  · exact advance_passes.bind h fun _ _ h => advance_passes.bind h fun _ _ h =>
      .pure (h.forget.weaken (@Yield.Weakens.none .declaration))
  · refine (Builds.items (firstOf_builds .declaration (by decide)) rfl).bind h fun components later h => ?_
    refine (isAt_reads _).bind fun hasVariants => ?_
    split
    · exact variantPart_builds.bind h fun _ _ h => .pure h.forget
    · refine Leads.pure ?_
      rw [Option.toList_none, Yield.many_append_nil]
      exact h

theorem recordDefinition_builds : Builds calls recordDefinition true .declaration := by
  refine .intro fun parser h => .position ?_
  refine (accept_passes _).bind h fun isNull later h => ?_
  split
  · exact (expect_passes _).bind h fun _ later h => h.add .declaration rfl rfl
  · refine (expect_passes _).bind h fun _ later h => ?_
    refine (h.openRegion _ (by nofun)).bind fun _ later h => ?_
    refine componentList_builds.bind h fun components later h => ?_
    refine (expectAll_passes _ _).bind h fun _ later h => ?_
    exact (h.closeRegion (by nofun)).bind fun _ later h => h.add .declaration (by simp) rfl

theorem integerDefinition_builds :
    Builds calls integerDefinition true Definition.yield := by
  refine .intro fun parser h => .position ?_
  refine advance_passes.bind h fun _ later h => ?_
  refine (range_builds.serve .bounds).bind h fun bounds later h => ?_
  exact (h.add .declaration rfl rfl).bind fun node later h => .pure h

theorem floatDefinition_builds :
    Builds calls floatDefinition true Definition.yield := by
  refine .intro fun parser h => .position ?_
  refine accuracy_builds.bind h fun value later h => ?_
  exact (h.add .declaration rfl rfl).bind fun node later h => .pure h

theorem fixedDefinition_builds :
    Builds calls fixedDefinition true Definition.yield := by
  refine .intro fun parser h => .position ?_
  refine accuracy_builds.bind h fun value later h => ?_
  exact (h.add .declaration rfl rfl).bind fun node later h => .pure h

theorem derivedDefinition_builds :
    Builds calls derivedDefinition true Definition.yield := by
  refine .intro fun parser h => .position ?_
  refine advance_passes.bind h fun _ later h => ?_
  refine (subtypeIndication_builds.serve .indication).bind h fun parent later h => ?_
  refine (indicationShape_reads parent).bind fun shape => ?_
  exact (h.add .declaration rfl rfl).bind fun node later h => .pure h

theorem typeDefinition_builds (discriminated : Bool) :
    Builds calls (typeDefinition discriminated) true Definition.yield := by
  refine .intro fun parser h => ?_
  refine (Reads.query rfl).bind fun kind => ?_
  split
  · exact enumerationDefinition_builds.leads h
  · exact integerDefinition_builds.leads h
  · exact floatDefinition_builds.leads h
  · exact fixedDefinition_builds.leads h
  · exact (arrayDefinition_builds.serve .expression).bind h fun _ later h => .pure h
  · exact recordDefinition_builds.bind h fun _ later h => .pure h
  · exact recordDefinition_builds.bind h fun _ later h => .pure h
  · exact (accessDefinition_builds.serve .expression).bind h fun _ later h => .pure h
  · exact derivedDefinition_builds.leads h
  · exact .reject h.fails

theorem fullView_views (name : DefiningName Nat) (discriminants : List NodeId) (discriminated : Bool) :
    Views calls discriminants (fullView name discriminants discriminated) := by
  intro origin base parser moved yield h
  refine (typeDefinition_builds _).bind h fun definition later h => ?_
  refine (expect_passes _).bind h fun _ later h => .pure ?_
  exact ⟨rfl, ⟨rfl, rfl⟩, [definition.node], by simp, h⟩

theorem typeView_views (name : DefiningName Nat) (discriminants : List NodeId) (discriminated : Bool) :
    Views calls discriminants (typeView name discriminants discriminated) := by
  intro origin base parser moved yield h
  refine (accept_leads h _).bind fun isIncomplete later h => ?_
  cases isIncomplete with
  | true => exact .pure ⟨rfl, ⟨rfl, rfl⟩, [], by simp, h.trans (.none .declaration h.made.properLater)⟩
  | false =>
    refine (expect_passes _).bind h fun _ later h => ?_
    refine (isAtAny_reads _).bind fun isPrivate => ?_
    split
    · exact privateView_views name discriminants discriminated h
    · exact fullView_views name discriminants discriminated h

theorem typeDeclaration_builds : Builds calls typeDeclaration true .declaration := by
  refine .intro fun parser h => .position ?_
  refine (expect_passes _).bind h fun _ later h => ?_
  refine definingIdentifier_builds.bind h fun name later h => ?_
  refine h.reserve.bind fun node later h => ?_
  refine (isAt_reads _).bind fun discriminated => ?_
  refine (h.openRegion _ (by nofun)).bind fun _ later h => ?_
  have hspans : later.Spans node name.place := h.spans (List.mem_singleton_self _) (by simp)
  refine (h.declare hspans _ rfl).bind fun _ later ⟨h, _, _⟩ => ?_
  refine (optionalDiscriminants_builds _).bind h fun discriminants later h => ?_
  refine (typeView_views name discriminants discriminated h).bind fun view later hview => ?_
  obtain ⟨hkind, hcompletes, definition, hpieces, h⟩ := hview
  refine (h.closeRegion (by nofun)).bind fun _ later h => ?_
  refine (h.fill .declaration rfl (.trans (by simp) hpieces.symm) rfl hcompletes).bind
    fun _ later ⟨h, hspans⟩ => ?_
  refine (h.declare (hspans _ (by simp)) _ hkind).bind fun _ later ⟨h, _, hkept⟩ => ?_
  refine (declareAll_leads h (fun place hplace => hkept _ _ (hspans place hplace)) (by simp) rfl rfl).bind
    fun _ later h => .pure h

end Grammar

end AdaSyntax
