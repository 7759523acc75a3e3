import AdaSyntax.Grammar.Basic
import AdaSyntax.Proofs.Parser.Steps

/-! What the words of the grammar's vocabulary do to a draft. -/

namespace AdaSyntax

@[simp] def Rule.role : Rule → Role
  | .statement | .assignment | .procedureCall => .statement []
  | .unconstrainedArray | .constrainedArray | .indexConstraint | .discriminantConstraint | .name
  | .expression | .discreteRange => .expression
  | .subtypeIndication => .indication
  | .range => .bounds
  | _ => .declaration

namespace Program

class Sound (calls : ∀ {α : Type}, Production α → Parser → Reply α × Parser) : Prop where
  rule : ∀ rule : Rule, rule ≠ .compilationUnit → Builds calls (.call (.rule rule)) true (.one rule.role)
  compilationUnit : Builds calls (.call (.rule .compilationUnit)) true fun node =>
    (Yield.declaration node).filing
  simpleExpression : Builds calls (.call .simpleExpression) true .expression
  componentList : Builds calls (.call .componentList) false fun value =>
    .declarations value.1 ++ .declarations value.2.toList

variable {calls : ∀ {α : Type}, Production α → Parser → Reply α × Parser} {α : Type}
variable {origin base parser : Parser} {moved : Bool} {yield : Yield} {role : Role}

theorem isAt_reads (kind : TokenKind) : Reads calls (isAt kind) :=
  (Reads.query rfl).seq fun _ => .pure _

theorem isAtAny_reads (kinds : List TokenKind) : Reads calls (isAtAny kinds) :=
  (Reads.query rfl).seq fun _ => .pure _

theorem classify_computes (id : NodeId) :
    Computes calls (classify id) fun parser => (parser.tree.payload id).classify :=
  Tells.computes <| (inspect_computes id).seq fun _ => ⟨_, rfl, Payload.classify_map _ _⟩

theorem classify_reads (id : NodeId) : Reads calls (classify id) :=
  (classify_computes id).tells.reads

theorem advance_passes : Passes calls advance true :=
  Builds.map take_passes

theorem expect_passes (kind : TokenKind) : Passes calls (expect kind) true :=
  Builds.map (expectToken_passes kind)

theorem expectChoice_passes (kind : TokenKind) : Passes calls (expectChoice kind) true :=
  Builds.map (expectChoiceToken_passes kind)

theorem accept_leads (h : Draft origin base parser moved yield) (kind : TokenKind) :
    Leads calls origin (accept kind) parser fun accepted later =>
      Draft origin base later (accepted || moved) yield := by
  refine (isAt_reads kind).bind fun isAt => ?_
  split
  · exact advance_passes.bind h fun _ _ h => .pure h
  · exact .pure h

theorem accept_passes (kind : TokenKind) : Passes calls (accept kind) false :=
  .intro fun _ h => (accept_leads h kind).mono fun _ _ h => h.forget

theorem expectAll_forward (kinds : List TokenKind) : Passes calls (expectAll kinds) false := by
  induction kinds with
  | nil => exact .pure
  | cons kind kinds ih =>
    refine .intro fun parser h => ?_
    exact (expect_passes kind).bind h fun _ _ h => (ih.leads h).mono fun _ _ h => h.forget

theorem expectAll_passes (kind : TokenKind) (kinds : List TokenKind) :
    Passes calls (expectAll (kind :: kinds)) true := by
  refine .intro fun parser h => ?_
  exact (expect_passes kind).bind h fun _ _ h => (expectAll_forward kinds).leads h

theorem definingIdentifier_builds : Builds calls definingIdentifier true fun name => .names [name] :=
  Builds.map (expectToken_builds .identifier)

theorem definingIdentifier_passes : Passes calls definingIdentifier true :=
  Builds.map (expectToken_passes .identifier)

theorem endName_passes (expected : Name) : Passes calls (endName expected) false := by
  refine .intro fun parser h => ?_
  refine (isAtAny_reads _).bind fun isName => ?_
  split
  · refine take_passes.bind h fun token later h => ?_
    dsimp only
    split
    · exact (find_passes fun _ => ⟨_, rfl, rfl⟩).bind h fun _ _ h => .pure h.forget
    · exact .pure h.forget
  · exact .pure h

theorem declareAll_leads {names : List (DefiningName Nat)} {places : List Nat} {node : NodeId}
    {kind : SymbolKind} (h : Draft origin base parser moved yield)
    (hspans : ∀ place ∈ places, parser.Spans node place)
    (hnames : names.map DefiningName.place ⊆ places) (hkind : kind.isHeld = false)
    (hsilent : yield.silent = false) :
    Leads calls origin (declareAll names kind node) parser fun _ later =>
      Draft origin base later moved yield := by
  induction names generalizing parser with
  | nil => exact .pure h
  | cons name names ih =>
    obtain ⟨hname, hnames⟩ := List.cons_subset.mp hnames
    refine (h.declare (hspans _ hname) none hkind).bind fun _ later ⟨h, _, hkept⟩ => ?_
    refine ih ?_ (fun place hplace => hkept _ _ (hspans place hplace)) hnames
    rwa [Yield.loud_eq_self hsilent] at h

theorem bindAll_leads {ids : List SymbolId} (h : Draft origin base parser moved yield)
    (hids : ∀ id ∈ ids, base.symbols.symbols.size ≤ id.index) (hsilent : yield.silent = false) :
    Leads calls origin (bindAll ids) parser fun _ later => Draft origin base later moved yield := by
  induction ids generalizing parser with
  | nil => exact .pure h
  | cons id ids ih =>
    obtain ⟨hid, hids⟩ := List.forall_mem_cons.mp hids
    refine (h.bind hid).bind fun _ later h => ih ?_ hids
    rwa [Yield.loud_eq_self hsilent] at h

theorem attempt_builds {body : Program NodeId} (h : Builds calls body moved (.one role)) :
    Builds calls (.attempt body) false fun found => .many role found.toList :=
  h.attempt .none fun _ => rfl

theorem attemptList_builds {body : Program (List NodeId)} (h : Builds calls body moved (.many role)) :
    Builds calls (.attempt body) false fun found => .many role (found.getD []) :=
  h.attempt .none fun _ => rfl

theorem attemptIf_builds {condition : Bool} {body : Program NodeId}
    (h : Builds calls body moved (.one role)) :
    Builds calls (attemptIf condition body) false fun found => .many role found.toList := by
  unfold attemptIf
  split
  · exact attempt_builds h
  · exact .pure .none

theorem Builds.after {kind : TokenKind} {body : Program α} {added : α → Yield}
    {added' : Option α → Yield} (h : Builds calls body moved added)
    (hnone : Yield.empty.Weakens (added' none)) (hsome : ∀ value, added' (some value) = added value) :
    Builds calls (after kind body) false added' := by
  refine .intro fun parser hstart => ?_
  refine (accept_passes kind).bind hstart fun accepted later hdraft => ?_
  split
  · refine h.bind hdraft fun value later hdraft => ?_
    refine Leads.pure ?_
    rw [hsome]
    exact hdraft.forget
  · exact Leads.pure (hdraft.weaken hnone)

theorem after_builds {kind : TokenKind} {body : Program NodeId}
    (h : Builds calls body moved (.one role)) :
    Builds calls (after kind body) false fun found => .many role found.toList :=
  h.after .none fun _ => rfl

theorem afterList_builds {kind : TokenKind} {body : Program (List NodeId)}
    (h : Builds calls body moved (.many role)) :
    Builds calls (after kind body) false fun found => .many role (found.getD []) :=
  h.after .none fun _ => rfl

theorem rule_builds [Sound calls] (rule : Rule) (h : rule ≠ .compilationUnit) :
    Builds calls (Program.rule rule) true (.one rule.role) :=
  Sound.rule rule h

theorem rule_files [Sound calls] (rule : Rule) :
    Builds calls (Program.rule rule) true fun node => (Yield.one rule.role node).filing := by
  by_cases h : rule = .compilationUnit
  · subst h
    exact Sound.compilationUnit
  · exact (rule_builds rule h).weaken fun _ => .filing _

theorem tryRules_builds [Sound calls] {rules : List Rule}
    (h : ∀ rule ∈ rules, rule ≠ .compilationUnit ∧ rule.role = role) :
    Builds calls (tryRules rules) false fun found => .many role found.toList := by
  induction rules with
  | nil => exact .pure .none
  | cons rule rules ih =>
    obtain ⟨⟨hunit, hrule⟩, hrules⟩ := List.forall_mem_cons.mp h
    refine .intro fun parser h => ?_
    refine (attempt_builds (rule_builds rule hunit)).bind h fun found later h => ?_
    cases found with
    | some node => exact .pure (hrule ▸ h)
    | none =>
      rw [hrule] at h
      refine ((ih hrules).leads h).mono fun found _ h => ?_
      rwa [← List.nil_append found.toList, Yield.many_append]

theorem firstOf_builds [Sound calls] {rules : List Rule} (role : Role)
    (h : ∀ rule ∈ rules, rule ≠ .compilationUnit ∧ rule.role = role) :
    Builds calls (firstOf rules) true (.one role) := by
  refine .intro fun parser hstart => ?_
  refine (tryRules_builds h).bind hstart fun found later h => ?_
  cases found with
  | some node => exact .pure (h.moved_of_pieces (by simp))
  | none => exact .fail h.fails

theorem initialValue_builds [Sound calls] :
    Builds calls initialValue false fun found => .expressions found.toList :=
  after_builds (rule_builds .expression (by decide))

section

variable {item : Program α} {added : α → Yield} {total : List α → Yield}

theorem separated_total {separator : TokenKind} (h : Builds calls item true added)
    (hnil : Yield.empty.Weakens (total []))
    (hsnoc : ∀ values value, total (values ++ [value]) = total values ++ added value) :
    Builds calls (separated separator item) true total := by
  refine .intro fun parser hstart => ?_
  refine .loop (fun items later => Draft parser parser later (!items.isEmpty) (total items.reverse))
    (hstart.weaken hnil) (fun _ _ h => h.fails) fun items later hdraft => ?_
  refine h.bind hdraft fun value later hdraft => ?_
  rw [← hsnoc, ← List.reverse_cons] at hdraft
  refine (accept_passes separator).bind hdraft fun more later hdraft => ?_
  cases more with
  | true => exact .pure hdraft
  | false => exact .pure hdraft

theorem whileAt_total {kind : TokenKind} (h : Builds calls item true added)
    (hnil : Yield.empty.Weakens (total []))
    (hsnoc : ∀ values value, total (values ++ [value]) = total values ++ added value) :
    Builds calls (whileAt kind item) false total := by
  refine .intro fun parser hstart => ?_
  refine .loop (fun items later => Draft parser parser later false (total items.reverse))
    (hstart.weaken hnil) (fun _ _ h => h.fails) fun items later hdraft => ?_
  refine (isAt_reads kind).bind fun more => ?_
  split
  · refine h.bind hdraft fun value later hdraft => ?_
    rw [← hsnoc, ← List.reverse_cons] at hdraft
    exact .pure hdraft.forget
  · exact .pure hdraft

end

theorem separated_builds {separator : TokenKind} {item : Program NodeId}
    (h : Builds calls item true (.one role)) :
    Builds calls (separated separator item) true (.many role) :=
  separated_total h .none fun _ _ => Yield.many_snoc

theorem separated_names {separator : TokenKind} {item : Program (DefiningName Nat)}
    (h : Builds calls item true fun name => .names [name]) :
    Builds calls (separated separator item) true .names :=
  separated_total h (.refl _) Yield.names_snoc

theorem whileAt_builds {kind : TokenKind} {item : Program NodeId}
    (h : Builds calls item true (.one role)) : Builds calls (whileAt kind item) false (.many role) :=
  whileAt_total h .none fun _ _ => Yield.many_snoc

end Program

end AdaSyntax
