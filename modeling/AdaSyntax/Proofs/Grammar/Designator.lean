import AdaSyntax.Grammar.Designator
import AdaSyntax.Proofs.Grammar.Basic

namespace AdaSyntax

namespace Grammar

open Program

variable {calls : ∀ {α : Type}, Production α → Parser → Reply α × Parser}
variable {origin base parser : Parser} {node : NodeId} {role : Role}

theorem identifierList_builds : Builds calls identifierList true .names :=
  separated_names definingIdentifier_builds

theorem functionDesignator_builds :
    Builds calls functionDesignator true fun name => .names [name] := by
  refine .intro fun parser h => ?_
  refine (isAt_reads _).bind fun isOperator => ?_
  split
  · exact takeToken_builds.bind h fun _ _ h => .pure h
  · exact definingIdentifier_builds.leads h

theorem directName_builds : Builds calls directName true (.one .name) := by
  refine .intro fun parser h => .position ?_
  refine (isAtAny_reads _).bind fun isName => ?_
  split
  · refine take_passes.bind h fun token later h => ?_
    exact (resolve_computes _).bind (h.addName .name ⟨rfl, rfl, rfl, fun _ => rfl⟩ rfl)
  · exact .reject h.fails

theorem member_unresolved (kind : SymbolKind) : (resolveSelector.member kind).symbol = none ∧
    ((resolveSelector.member kind).kind = .component ∨
      (resolveSelector.member kind).kind = .unresolved) := by
  unfold resolveSelector.member
  split
  · exact ⟨rfl, .inl rfl⟩
  · exact ⟨rfl, .inr rfl⟩

theorem resolveSelector_tells (named : Option SymbolId × SymbolKind) (selector : Name) :
    Tells calls (resolveSelector named selector) fun parser found =>
      (found.2.symbol = none ∧ (found.2.kind = .component ∨ found.2.kind = .unresolved)) ∨
        ∃ owner, parser.symbols.resolveMember owner selector = found.2 := by
  obtain ⟨symbol, kind⟩ := named
  cases symbol with
  | none => exact fun _ => ⟨_, rfl, .inl (member_unresolved kind)⟩
  | some owner =>
    simp only [resolveSelector]
    split
    · refine (resolveMember_computes owner selector).seq fun parser => ?_
      exact ⟨_, rfl, .inr ⟨owner, rfl⟩⟩
    · exact fun _ => ⟨_, rfl, .inl (member_unresolved _)⟩

theorem select_leads (h : Draft origin base parser true (.one role node))
    (hrole : role = .name ∨ role = .expression) (selector : Name) :
    Leads calls origin (select base.position node selector) parser fun longer later =>
      Draft origin base later true (.one role longer) := by
  refine (classify_reads node).bind fun named => ?_
  refine (resolveSelector_tells named selector).bind fun found hresolved => ?_
  rcases hrole with rfl | rfl
  · exact h.addName .name ⟨rfl, rfl, rfl, fun _ => rfl⟩ hresolved
  · exact h.addName .expression ⟨rfl, rfl, rfl, fun _ => rfl⟩ hresolved

theorem expandedName_builds : Builds calls expandedName true (.one .name) := by
  refine .intro fun parser h => .position ?_
  refine (isAt_reads _).bind fun isName => ?_
  split
  · refine directName_builds.bind h fun node later h => ?_
    refine .loop (fun node later => Draft parser parser later true (.one .name node)) h
      (fun _ _ h => h.fails) fun node later h => ?_
    refine (Reads.query rfl).bind fun isSelected => ?_
    split
    · refine advance_passes.bind h fun _ later h => ?_
      refine take_passes.bind h fun token later h => ?_
      exact (select_leads h (.inl rfl) _).bind fun _ _ h => .pure h
    · exact .pure h
  · exact .reject h.fails

theorem checkTypeMark_run (mark : NodeId) (parser : Parser) :
    (checkTypeMark mark (parser.tree.payload mark).classify.2).run calls parser =
      (.matched (), parser.checkMark mark) := by
  unfold checkTypeMark
  dsimp only [Parser.checkMark]
  split
  · rfl
  · split <;> rfl

theorem typeMark_builds : Builds calls typeMark true fun value => .one .mark value.1 := by
  refine .intro fun parser h => ?_
  refine (isAt_reads _).bind fun isName => ?_
  split
  · refine expandedName_builds.bind h fun node later h => ?_
    refine (classify_computes node).bind ?_
    have hchecked : Leads calls parser (checkTypeMark node (later.tree.payload node).classify.2) later
        fun _ last => Draft parser parser last true (.one .mark node) := by
      refine ⟨?_⟩
      rw [checkTypeMark_run]
      exact ⟨h.made.checkMark, h.reverts⟩
    exact hchecked.bind fun _ _ h => .pure h
  · exact .reject h.fails

theorem isRangeAttribute_tells (node : NodeId) :
    Tells calls (isRangeAttribute node) fun parser found =>
      found = true → (parser.tree.payload node).isSimpleName = false := by
  refine (inspect_computes node).seq fun parser => ?_
  split
  · rename_i hpayload
    refine ⟨_, rfl, fun _ => ?_⟩
    rw [← Payload.isSimpleName_map fun _ => (), hpayload]
    rfl
  · exact ⟨false, rfl, fun h => absurd h Bool.false_ne_true⟩

variable [Sound calls]

theorem simpleExpression_call : Builds calls (.call .simpleExpression) true .expression :=
  Sound.simpleExpression

theorem rangeFrom_leads (h : Draft origin base parser true (.expression node)) :
    Leads calls origin (rangeFrom base.position node) parser fun bounds later =>
      Draft origin base later true (.one .bounds bounds) := by
  refine (isAt_reads _).bind fun isRange => ?_
  refine (isRangeAttribute_tells node).bind fun isAttribute hname => ?_
  split
  · rename_i hattribute
    exact .pure ⟨h.made.bounds (hname (Bool.and_eq_true _ _ ▸ hattribute).2), h.reverts⟩
  · refine (expectChoice_passes _).bind h fun _ later h => ?_
    exact simpleExpression_call.bind h fun high later h => h.add .bounds rfl rfl

theorem range_builds : Builds calls range true (.one .bounds) := by
  refine .intro fun parser h => .position ?_
  exact simpleExpression_call.bind h fun low later h => rangeFrom_leads h

theorem rangeConstraint_builds : Builds calls rangeConstraint true .expression := by
  refine .intro fun parser h => .position ?_
  refine advance_passes.bind h fun _ later h => ?_
  exact (range_builds.serve .bounds).bind h fun bounds later h => h.add .expression rfl rfl

theorem discreteSubtypeIndication_builds :
    Builds calls discreteSubtypeIndication true .expression := by
  refine .intro fun parser h => .position ?_
  refine typeMark_builds.bind h fun mark later h => ?_
  refine (isAt_reads _).bind fun isRange => ?_
  refine (attemptIf_builds rangeConstraint_builds).bind h fun constraint later h => ?_
  refine (isAtAny_reads _).bind fun isLonger => ?_
  split
  · exact .reject h.fails
  · exact h.add .expression rfl rfl

theorem unresolvedDiscreteRange_builds (allowed : Bool) (kind : SymbolKind) :
    Builds calls (unresolvedDiscreteRange allowed kind) true .expression := by
  refine .intro fun parser h => ?_
  refine (isAt_reads _).bind fun isName => ?_
  split
  · exact discreteSubtypeIndication_builds.leads h
  · exact .reject h.fails

theorem discreteRange_builds (allowUnresolved : Bool) :
    Builds calls (discreteRange allowUnresolved) true .expression := by
  refine .intro fun parser h => ?_
  refine (Reads.query rfl).bind fun kind => ?_
  refine (attemptIf_builds discreteSubtypeIndication_builds).bind h fun indication later h => ?_
  cases indication with
  | some indication => exact .pure (h.moved_of_pieces (by simp))
  | none =>
    refine (attempt_builds (range_builds.serve .bounds)).bind h fun bounds later h => ?_
    cases bounds with
    | some bounds => exact .pure (h.moved_of_pieces (by simp))
    | none => exact (unresolvedDiscreteRange_builds allowUnresolved kind).leads h

end Grammar

end AdaSyntax
