import AdaSyntax.Grammar.TypeDeclaration
import AdaSyntax.Proofs.Discipline.Expression

namespace AdaSyntax

namespace Grammar

open Program

variable {know : Knowledge} {stage : Stage} {node : NodeId} {start : Nat}

theorem shapeOfSymbol_gives {symbol : Option SymbolId} (h : ∀ id ∈ symbol, know.symbol id) :
    (shapeOfSymbol symbol).Gives know stage (fun _ => stage) fun _ => True := by
  cases symbol with
  | none => exact .pure (.refl _) trivial
  | some id => exact .step (h id rfl) (fun _ => rfl) fun _ _ => trivial

theorem accuracy_supplies :
    accuracy.Supplies 0 true fun know found => know.whole found.1 ∧ ∀ node ∈ found.2, know.whole node := by
  intro know stage _
  refine advance_supplies.bind rfl fun _ _ => ?_
  refine simpleCall_supplies.bind rfl fun value hvalue => ?_
  exact (after_supplies range_supplies fun _ => rfl).bind rfl fun bounds hbounds => .pure (.refl _) ⟨hvalue, hbounds⟩

theorem floatingConstraint_supplies : floatingConstraint.Supplies 0 true Knowledge.whole := by
  intro know stage _
  refine position_supplies.bind rfl fun start _ => ?_
  exact accuracy_supplies.bind rfl fun found hfound => add_whole rfl (each_cons hfound.1 (each_toList hfound.2))

theorem fixedConstraint_supplies : fixedConstraint.Supplies 0 true Knowledge.whole := by
  intro know stage _
  refine position_supplies.bind rfl fun start _ => ?_
  exact accuracy_supplies.bind rfl fun found hfound => add_whole rfl (each_cons hfound.1 (each_toList hfound.2))

theorem indexConstraint_supplies : indexConstraint.Supplies 0 true Knowledge.shallow := by
  intro know stage _
  refine position_supplies.bind rfl fun start _ => ?_
  refine (parenthesized_supplies (separated_supplies (discreteRange_supplies true)) fun _ => rfl).bind rfl
    fun ranges hranges => ?_
  exact add_shallow rfl hranges

theorem discriminantConstraint_supplies : discriminantConstraint.Supplies 0 true Knowledge.shallow := by
  intro know stage _
  refine position_supplies.bind rfl fun start _ => ?_
  exact actualParameters_supplies.bind rfl fun associations hassociations => add_shallow rfl hassociations

theorem parenthesizedConstraint_gives (shape : TypeShape) :
    (parenthesizedConstraint shape).Gives know stage.advance (fun _ => stage.advance)
      fun found => ∀ node ∈ found, know.shallow node := by
  unfold parenthesizedConstraint
  split
  · exact (attempt_supplies indexConstraint_supplies.whole).gives rfl
  · split
    · exact (attempt_supplies discriminantConstraint_supplies.whole).gives rfl
    · split
      · exact (tryRules_gives (by decide) rfl).mono (fun _ => Stage.after_reaches _ _) fun _ h => h
      · exact .pure (.refl _) nofun

theorem constraint_gives (shape : TypeShape) :
    (constraint shape).Gives know stage.advance (fun _ => stage.advance)
      fun found => ∀ node ∈ found, know.shallow node := by
  refine kind_supplies.bind rfl fun kind _ => ?_
  split
  · exact (attempt_supplies rangeConstraint_supplies).gives rfl
  · exact (attempt_supplies floatingConstraint_supplies).gives rfl
  · exact (attempt_supplies fixedConstraint_supplies).gives rfl
  · exact parenthesizedConstraint_gives _
  · exact .pure (.refl _) nofun

theorem subtypeIndication_supplies : subtypeIndication.Supplies 0 true Knowledge.shallow := by
  intro know stage _
  refine position_supplies.bind rfl fun start _ => ?_
  refine (isAt_supplies _).bind rfl fun isName _ => ?_
  cases isName with
  | false => exact .reject
  | true =>
    refine typeMark_supplies.bind rfl fun mark hmark => ?_
    refine (shapeOfSymbol_gives hmark.2).bind fun shape _ => ?_
    refine (constraint_gives shape).bind fun constraint hconstraint => ?_
    exact add_shallow rfl (each_cons hmark.1 (each_toList hconstraint))

theorem indicationShape_gives (h : know.made node) :
    (indicationShape node).Gives know stage (fun _ => stage) fun _ => True := by
  refine (inspect_gives h).bind fun payload hpayload => ?_
  split
  · rename_i mark constraint
    refine (classify_gives (hpayload.1 mark (List.mem_cons_self ..))).bind fun named hnamed => ?_
    refine (shapeOfSymbol_gives hnamed).bind fun shape _ => ?_
    split <;> exact .pure (.refl _) trivial
  · exact .pure (.refl _) trivial

theorem indexSubtype_supplies : indexSubtype.Supplies 0 true Knowledge.shallow := by
  intro know stage _
  refine position_supplies.bind rfl fun start _ => ?_
  refine typeMark_supplies.bind rfl fun mark hmark => ?_
  refine (expectChoice_supplies _).bind rfl fun _ _ => ?_
  refine (expectChoice_supplies _).bind rfl fun _ _ => ?_
  exact add_shallow rfl (each_one hmark.1)

theorem arrayOf_supplies {rank : Nat} {indexes : Program NodeId} (h : indexes.Supplies rank true Knowledge.shallow)
    (hrank : ∀ stage : Stage, stage.advance.permits rank = true) :
    (arrayOf indexes).Supplies 0 true fun know found =>
      (∀ node ∈ found.1, know.shallow node) ∧ know.shallow found.2 := by
  intro know stage _
  refine (expectAll_supplies _ _).bind rfl fun _ _ => ?_
  refine (separated_supplies h).bind (hrank stage) fun indexes hindexes => ?_
  refine (expectAll_supplies _ _).bind rfl fun _ _ => ?_
  exact subtypeIndication_supplies.bind rfl fun element helement => .pure (.refl _) ⟨hindexes, helement⟩

theorem unconstrainedArray_supplies : unconstrainedArray.Supplies 0 true Knowledge.shallow := by
  intro know stage _
  refine position_supplies.bind rfl fun start _ => ?_
  refine (arrayOf_supplies indexSubtype_supplies fun _ => rfl).bind rfl fun found hfound => ?_
  exact add_shallow rfl (each_append hfound.1 (each_one hfound.2))

theorem constrainedArray_supplies : constrainedArray.Supplies 0 true Knowledge.shallow := by
  intro know stage _
  refine position_supplies.bind rfl fun start _ => ?_
  refine (arrayOf_supplies (discreteRange_supplies true) fun _ => rfl).bind rfl fun found hfound => ?_
  exact add_shallow rfl (each_append hfound.1 (each_one hfound.2))

theorem arrayDefinition_supplies : arrayDefinition.Supplies 1 true fun know found => know.shallow found.1 := by
  intro know stage hrank
  refine (firstOf_supplies (by decide)).bind hrank fun definition hdefinition => ?_
  refine (inspect_gives (know.made_of_shallow hdefinition)).bind fun payload _ => ?_
  split <;> exact .pure (.refl _) hdefinition

theorem accessDefinition_supplies : accessDefinition.Supplies 0 true fun know found => know.shallow found.1 := by
  intro know stage _
  refine position_supplies.bind rfl fun start _ => ?_
  refine advance_supplies.bind rfl fun _ _ => ?_
  refine subtypeIndication_supplies.bind rfl fun designated hdesignated => ?_
  refine (indicationShape_gives (know.made_of_shallow hdesignated)).bind fun shape _ => ?_
  refine Gives.bind ?_ fun _ hnode => .pure (.refl _) hnode
  exact add_shallow rfl (each_one hdesignated)

theorem discriminantSpecification_supplies : discriminantSpecification.Supplies 0 true Knowledge.shallow := by
  intro know stage _
  refine position_supplies.bind rfl fun start _ => ?_
  refine identifierList_supplies.bind rfl fun names _ => ?_
  refine (expect_supplies _).bind rfl fun _ _ => ?_
  refine typeMark_supplies.bind rfl fun mark hmark => ?_
  refine initialValue_supplies.bind rfl fun initial hinitial => ?_
  refine (add_shallow rfl (by exact each_cons hmark.1 (each_toList hinitial))).bind fun node hnode => ?_
  exact (declareAll_gives (know.made_of_shallow hnode)).bind fun _ _ => .pure (.refl _) hnode

theorem discriminantPart_supplies :
    discriminantPart.Supplies 0 true fun know nodes => ∀ node ∈ nodes, know.shallow node := by
  intro know stage _
  refine (expect_supplies _).bind rfl fun _ _ => ?_
  refine (openRegion_none _).bind fun _ _ => ?_
  refine (separated_supplies discriminantSpecification_supplies).bind rfl fun specifications hspecifications => ?_
  refine (expect_supplies _).bind rfl fun _ _ => ?_
  refine closeRegion_supplies.bind rfl fun members hmembers => ?_
  exact (bindAll_gives hmembers).bind fun _ _ => .pure (.refl _) hspecifications

theorem optionalDiscriminants_supplies (present : Bool) :
    (optionalDiscriminants present).Supplies 0 false fun know nodes => ∀ node ∈ nodes, know.shallow node := by
  cases present with
  | true => exact discriminantPart_supplies.forget
  | false => exact fun _ _ _ => .pure (.refl _) each_nil

theorem componentDeclaration_supplies : componentDeclaration.Supplies 0 true Knowledge.whole := by
  intro know stage _
  refine position_supplies.bind rfl fun start _ => ?_
  refine identifierList_supplies.bind rfl fun names _ => ?_
  refine (expect_supplies _).bind rfl fun _ _ => ?_
  refine (rule_supplies .subtypeIndication).bind rfl fun indication hindication => ?_
  refine initialValue_supplies.bind rfl fun initial hinitial => ?_
  refine (expect_supplies _).bind rfl fun _ _ => ?_
  refine (add_whole rfl (by
    exact each_cons hindication fun id hid => know.whole_of_shallow (each_toList hinitial id hid))).bind
      fun node hnode => ?_
  exact (declareAll_gives (know.made_of_whole hnode)).bind fun _ _ => .pure (.refl _) hnode

theorem componentListCall_supplies : (Program.call .componentList).Supplies 2 false fun know found =>
    (∀ node ∈ found.1, know.shallow node) ∧ ∀ node ∈ found.2, know.shallow node :=
  Supplies.call .componentList

theorem variant_supplies : variant.Supplies 0 true Knowledge.shallow := by
  intro know stage _
  refine position_supplies.bind rfl fun start _ => ?_
  refine advance_supplies.bind rfl fun _ _ => ?_
  refine choiceList_supplies.bind rfl fun choices hchoices => ?_
  refine (expect_supplies _).bind rfl fun _ _ => ?_
  refine componentListCall_supplies.bind rfl fun found hfound => ?_
  exact add_shallow rfl (each_append (each_append hchoices hfound.1) (each_toList hfound.2))

theorem variantPart_supplies : variantPart.Supplies 0 true Knowledge.shallow := by
  intro know stage _
  refine position_supplies.bind rfl fun start _ => ?_
  refine advance_supplies.bind rfl fun _ _ => ?_
  refine name_supplies.bind rfl fun discriminant hdiscriminant => ?_
  refine (expect_supplies _).bind rfl fun _ _ => ?_
  refine (whileAt_supplies variant_supplies).bind rfl fun variants hvariants => ?_
  refine (expectAll_supplies _ _).bind rfl fun _ _ => ?_
  exact add_shallow rfl (each_cons hdiscriminant hvariants)

theorem componentList_supplies : componentList.Supplies 1 false fun know found =>
    (∀ node ∈ found.1, know.shallow node) ∧ ∀ node ∈ found.2, know.shallow node := by
  intro know stage hrank
  refine (followedBy_supplies _ _).bind rfl fun isNull _ => ?_
  cases isNull with
  | true =>
    refine advance_supplies.forget.bind rfl fun _ _ => ?_
    exact advance_supplies.forget.bind rfl fun _ _ => .pure (.refl _) ⟨each_nil, nofun⟩
  | false =>
    refine (items_supplies (firstOf_supplies (by decide)).whole).bind hrank fun components hcomponents => ?_
    refine (isAt_supplies _).bind rfl fun hasVariants _ => ?_
    cases hasVariants with
    | false => exact .pure (.refl _) ⟨hcomponents, nofun⟩
    | true =>
      exact variantPart_supplies.forget.bind rfl fun tail htail =>
        .pure (.refl _) ⟨hcomponents, fun _ heq => Option.mem_some.mp heq ▸ htail⟩

theorem nullRecord_supplies (start : Nat) : (nullRecord start).Supplies 0 true Knowledge.shallow := by
  intro know stage _
  exact (expect_supplies _).bind rfl fun _ _ => add_shallow rfl each_nil

theorem recordDefinition_supplies : recordDefinition.Supplies 0 true Knowledge.shallow := by
  intro know stage _
  refine position_supplies.bind rfl fun start _ => ?_
  refine (accept_gives _).bind fun isNull _ => ?_
  cases isNull with
  | true => exact (nullRecord_supplies _).gives rfl
  | false =>
    refine (expect_supplies _).bind rfl fun _ _ => ?_
    refine (openRegion_none _).bind fun _ _ => ?_
    refine componentList_supplies.bind rfl fun found hfound => ?_
    refine (expectAll_supplies _ _).bind rfl fun _ _ => ?_
    refine closeRegion_supplies.bind rfl fun _ _ => ?_
    exact add_shallow rfl (each_append hfound.1 (each_toList hfound.2))

theorem enumerationLiteral_supplies : enumerationLiteral.Supplies 0 true fun _ _ => True := by
  intro know stage _
  refine kind_supplies.bind rfl fun kind _ => ?_
  split
  · exact take_supplies.bind rfl fun _ _ => .pure (.refl _) trivial
  · exact take_supplies.bind rfl fun _ _ => .pure (.refl _) trivial
  · exact .reject

theorem enumerationDefinition_supplies :
    enumerationDefinition.Supplies 0 true fun know definition => know.whole definition.node := by
  intro know stage _
  refine position_supplies.bind rfl fun start _ => ?_
  refine advance_supplies.bind rfl fun _ _ => ?_
  refine (separated_supplies enumerationLiteral_supplies).bind rfl fun literals _ => ?_
  refine (expect_supplies _).bind rfl fun _ _ => ?_
  refine Gives.bind ?_ fun _ hnode => .pure (.refl _) hnode
  exact add_whole rfl each_nil

theorem integerDefinition_supplies :
    integerDefinition.Supplies 0 true fun know definition => know.whole definition.node := by
  intro know stage _
  refine position_supplies.bind rfl fun start _ => ?_
  refine advance_supplies.bind rfl fun _ _ => ?_
  refine range_supplies.bind rfl fun bounds hbounds => ?_
  refine Gives.bind ?_ fun _ hnode => .pure (.refl _) hnode
  exact add_whole rfl (each_one hbounds)

theorem floatDefinition_supplies :
    floatDefinition.Supplies 0 true fun know definition => know.whole definition.node := by
  intro know stage _
  refine position_supplies.bind rfl fun start _ => ?_
  refine accuracy_supplies.bind rfl fun found hfound => ?_
  refine Gives.bind ?_ fun _ hnode => .pure (.refl _) hnode
  exact add_whole rfl (each_cons hfound.1 (each_toList hfound.2))

theorem fixedDefinition_supplies :
    fixedDefinition.Supplies 0 true fun know definition => know.whole definition.node := by
  intro know stage _
  refine position_supplies.bind rfl fun start _ => ?_
  refine accuracy_supplies.bind rfl fun found hfound => ?_
  refine Gives.bind ?_ fun _ hnode => .pure (.refl _) hnode
  exact add_whole rfl (each_cons hfound.1 (each_toList hfound.2))

theorem derivedDefinition_supplies :
    derivedDefinition.Supplies 0 true fun know definition => know.whole definition.node := by
  intro know stage _
  refine position_supplies.bind rfl fun start _ => ?_
  refine advance_supplies.bind rfl fun _ _ => ?_
  refine subtypeIndication_supplies.bind rfl fun parent hparent => ?_
  refine (indicationShape_gives (know.made_of_shallow hparent)).bind fun shape _ => ?_
  refine Gives.bind ?_ fun _ hnode => .pure (.refl _) hnode
  exact add_whole rfl (each_one (know.whole_of_shallow hparent))

theorem typeDefinition_gives (discriminated : Bool) :
    (typeDefinition discriminated).Gives know stage.advance (fun _ => stage.advance)
      fun definition => know.whole definition.node := by
  refine kind_supplies.bind rfl fun kind _ => ?_
  split
  · exact enumerationDefinition_supplies.gives rfl
  · exact integerDefinition_supplies.gives rfl
  · exact floatDefinition_supplies.gives rfl
  · exact fixedDefinition_supplies.gives rfl
  · exact arrayDefinition_supplies.bind rfl fun found hfound => .pure (.refl _) (know.whole_of_shallow hfound)
  · exact recordDefinition_supplies.bind rfl fun node hnode => .pure (.refl _) (know.whole_of_shallow hnode)
  · exact recordDefinition_supplies.bind rfl fun node hnode => .pure (.refl _) (know.whole_of_shallow hnode)
  · exact accessDefinition_supplies.bind rfl fun found hfound => .pure (.refl _) (know.whole_of_shallow hfound)
  · exact derivedDefinition_supplies.gives rfl
  · exact .reject

def TypeView.Fillable (know : Knowledge) (view : TypeView) : Prop :=
  (Payload.decl view.decl).isSimple = true ∧ ∀ id ∈ view.decl.children, know.whole id

theorem typeView_gives {discriminants : List NodeId} (name : DefiningName Nat) (discriminated : Bool)
    (h : ∀ node ∈ discriminants, know.shallow node) :
    (typeView name discriminants discriminated).Gives know stage (fun _ => stage.advance)
      (TypeView.Fillable know) := by
  have hwhole : ∀ node ∈ discriminants, know.whole node := fun node hnode => know.whole_of_shallow (h node hnode)
  refine (accept_gives _).bind fun isIncomplete _ => ?_
  cases isIncomplete with
  | true => exact .pure (.refl _) ⟨rfl, hwhole⟩
  | false =>
    refine (expect_supplies _).bind rfl fun _ _ => ?_
    refine (isAtAny_supplies _).bind rfl fun isPrivate _ => ?_
    cases isPrivate with
    | true =>
      refine (accept_supplies _).bind rfl fun isLimited _ => ?_
      exact (expectAll_supplies _ _).bind rfl fun _ _ => .pure (.refl _) ⟨rfl, hwhole⟩
    | false =>
      refine (typeDefinition_gives _).bind fun definition hdefinition => ?_
      exact (expect_supplies _).bind rfl fun _ _ => .pure (.refl _) ⟨rfl, each_append hwhole (each_one hdefinition)⟩

theorem typeDeclaration_supplies : typeDeclaration.Supplies 0 true Knowledge.whole := by
  intro know stage _
  refine position_supplies.bind rfl fun start _ => ?_
  refine (expect_supplies _).bind rfl fun _ _ => ?_
  refine definingIdentifier_supplies.bind rfl fun name _ => ?_
  refine reserve_gives.bind fun node hmade => ?_
  refine (isAt_supplies _).bind rfl fun discriminated _ => ?_
  refine (openRegion_none _).bind fun _ _ => ?_
  refine (declareType_gives hmade).bind fun _ _ => ?_
  refine (optionalDiscriminants_supplies _).bind rfl fun discriminants hdiscriminants => ?_
  refine (typeView_gives _ _ hdiscriminants).bind fun view hview => ?_
  refine closeRegion_supplies.bind rfl fun _ _ => ?_
  refine (fill_whole rfl hview.1 hview.2).bind fun _ hnode => ?_
  refine (declareType_gives hmade).bind fun _ _ => ?_
  exact (declareAll_gives hmade).bind fun _ _ => .pure (.refl _) hnode

end Grammar

end AdaSyntax
