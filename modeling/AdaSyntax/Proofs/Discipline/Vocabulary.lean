import AdaSyntax.Grammar.Designator
import AdaSyntax.Proofs.Discipline.Gives

namespace AdaSyntax

section

variable {holds : NodeId → Prop} {first second : NodeId} {nodes nodes' : List NodeId}

theorem each_nil : ∀ id ∈ ([] : List NodeId), holds id := by simp

theorem each_cons (h : holds first) (h' : ∀ id ∈ nodes, holds id) : ∀ id ∈ first :: nodes, holds id :=
  List.forall_mem_cons.mpr ⟨h, h'⟩

theorem each_one (h : holds first) : ∀ id ∈ [first], holds id := each_cons h each_nil

theorem each_two (h : holds first) (h' : holds second) : ∀ id ∈ [first, second], holds id :=
  each_cons h (each_one h')

theorem each_append (h : ∀ id ∈ nodes, holds id) (h' : ∀ id ∈ nodes', holds id) : ∀ id ∈ nodes ++ nodes', holds id :=
  List.forall_mem_append.mpr ⟨h, h'⟩

theorem each_toList {found : Option NodeId} (h : ∀ id ∈ found, holds id) : ∀ id ∈ found.toList, holds id :=
  fun id hid => h id (Option.mem_toList.mp hid)

theorem each_getD {found : Option (List NodeId)} (h : ∀ nodes ∈ found, ∀ id ∈ nodes, holds id) :
    ∀ id ∈ found.getD [], holds id := by
  cases found with
  | none => exact each_nil
  | some nodes => exact h nodes rfl

end

def Payload.isSimple {ρ : Type} (payload : Payload ρ) : Bool :=
  !payload.isPlaceholder && !payload.isCompound && payload.classify.1.isNone

def Payload.isNameless {ρ : Type} (payload : Payload ρ) : Bool :=
  !payload.isPlaceholder && payload.classify.1.isNone

namespace Payload

variable {know : Knowledge} {payload : Payload Nat}

theorem isNameless_of_isSimple (h : payload.isSimple = true) : payload.isNameless = true := by
  simp only [isSimple, isNameless, Bool.and_eq_true] at h ⊢
  exact ⟨h.1.1, h.2⟩

theorem isCompound_of_isSimple (h : payload.isSimple = true) : payload.isCompound = false := by
  simp only [isSimple, Bool.and_eq_true, Bool.not_eq_true'] at h
  exact h.1.2

theorem admissible_of_shallow (h : payload.isNameless = true) (hchildren : ∀ id ∈ payload.children, know.shallow id) :
    payload.Admissible know where
  filled := by
    simp only [isNameless, Bool.and_eq_true, Bool.not_eq_true'] at h
    exact h.1
  children id hid := know.whole_of_shallow (hchildren id hid)
  symbol id hid := by
    rw [isNameless, hid] at h
    simp at h
  compound _ := hchildren

theorem admissible_of_whole (h : payload.isSimple = true) (hchildren : ∀ id ∈ payload.children, know.whole id) :
    payload.Admissible know where
  filled := by
    simp only [isSimple, Bool.and_eq_true, Bool.not_eq_true'] at h
    exact h.1.1
  children := hchildren
  symbol id hid := by
    rw [isSimple, hid] at h
    simp at h
  compound hcompound := by
    rw [isCompound_of_isSimple h] at hcompound
    cases hcompound

end Payload

namespace Program

open Grammar

variable {α β : Type} {know : Knowledge} {stage : Stage} {target : α → Stage} {good : α → Prop}
variable {rank : Nat} {consumes : Bool} {given : Knowledge → α → Prop}

theorem query {op : Op α} (hasks : ∀ know stage, op.Asks know stage) (hnext : ∀ stage value, op.next stage value = stage) :
    (Program.step op).Supplies 0 false fun know => op.Tells know :=
  fun know stage _ => .step (hasks know stage) (hnext stage) fun _ h => h

theorem kind_supplies : kind.Supplies 0 false fun _ _ => True := query (fun _ _ => trivial) fun _ _ => rfl

theorem position_supplies : position.Supplies 0 false fun _ _ => True := query (fun _ _ => trivial) fun _ _ => rfl

theorem followedBy_supplies (first second : TokenKind) : (followedBy first second).Supplies 0 false fun _ _ => True :=
  query (fun _ _ => trivial) fun _ _ => rfl

theorem isAt_supplies (kind : TokenKind) : (isAt kind).Supplies 0 false fun _ _ => True :=
  fun _ _ hrank => kind_supplies.bind hrank fun _ _ => .pure (.refl _) trivial

theorem isAtAny_supplies (kinds : List TokenKind) : (isAtAny kinds).Supplies 0 false fun _ _ => True :=
  fun _ _ hrank => kind_supplies.bind hrank fun _ _ => .pure (.refl _) trivial

theorem take_supplies : take.Supplies 0 true fun _ _ => True :=
  fun _ _ _ => ⟨trivial, fun _ _ => ⟨.refl _, trivial⟩⟩

theorem expectToken_supplies (kind : TokenKind) : (Program.step (.expect kind)).Supplies 0 true fun _ _ => True :=
  fun _ _ _ => ⟨trivial, fun _ _ => ⟨.refl _, trivial⟩⟩

theorem expectChoiceToken_supplies (kind : TokenKind) :
    (Program.step (.expectChoice kind)).Supplies 0 true fun _ _ => True :=
  fun _ _ _ => ⟨trivial, fun _ _ => ⟨.refl _, trivial⟩⟩

theorem advance_supplies : advance.Supplies 0 true fun _ _ => True := .map take_supplies

theorem expect_supplies (kind : TokenKind) : (expect kind).Supplies 0 true fun _ _ => True :=
  .map (expectToken_supplies kind)

theorem expectChoice_supplies (kind : TokenKind) : (expectChoice kind).Supplies 0 true fun _ _ => True :=
  .map (expectChoiceToken_supplies kind)

theorem accept_gives (kind : TokenKind) :
    (accept kind).Gives know stage stage.after fun _ => True := by
  refine (isAt_supplies kind).bind rfl fun isAt _ => ?_
  cases isAt with
  | true => exact advance_supplies.bind rfl fun _ _ => .pure (.refl _) trivial
  | false => exact .pure (.refl _) trivial

theorem accept_supplies (kind : TokenKind) : (accept kind).Supplies 0 false fun _ _ => True :=
  fun _ stage _ => (accept_gives kind).mono stage.after_reaches fun _ h => h

theorem expectAll_supplies (kind : TokenKind) (kinds : List TokenKind) :
    (expectAll (kind :: kinds)).Supplies 0 true fun _ _ => True := by
  intro know stage hrank
  refine (expect_supplies kind).bind rfl fun _ _ => ?_
  induction kinds generalizing kind with
  | nil => exact .pure (.refl _) trivial
  | cons kind kinds ih => exact (expect_supplies kind).bind rfl fun _ _ => ih kind

theorem definingIdentifier_supplies : definingIdentifier.Supplies 0 true fun _ _ => True :=
  .map (expectToken_supplies .identifier)

theorem inspect_gives {node : NodeId} (h : know.made node) :
    (inspect node).Gives know stage (fun _ => stage) fun payload =>
      (∀ id ∈ payload.children, know.made id) ∧ ∀ id, payload.classify.1 = some id → know.symbol id :=
  .step h (fun _ => rfl) fun _ h => h

theorem classify_gives {node : NodeId} (h : know.made node) :
    (classify node).Gives know stage (fun _ => stage) fun named => ∀ id ∈ named.1, know.symbol id :=
  (inspect_gives h).bind fun _ hpayload => .pure (.refl _) hpayload.2

theorem find_gives {finding : Finding} (h : ∀ id ∈ finding.nodes, know.made id) :
    (find finding).Gives know stage (fun _ => stage) fun _ => True :=
  .step h (fun _ => rfl) fun _ _ => trivial

section

variable {start : Nat} {payload : Payload Nat}

theorem add_shallow (hsimple : payload.isSimple = true) (hchildren : ∀ id ∈ payload.children, know.shallow id) :
    (add start payload).Gives know stage (fun _ => stage) know.shallow :=
  .step (Payload.admissible_of_shallow (Payload.isNameless_of_isSimple hsimple) hchildren) (fun _ => rfl)
    fun _ hmakes => hmakes.shallow (Payload.isCompound_of_isSimple hsimple) hchildren

theorem add_whole (hsimple : payload.isSimple = true) (hchildren : ∀ id ∈ payload.children, know.whole id) :
    (add start payload).Gives know stage (fun _ => stage) know.whole :=
  .step (Payload.admissible_of_whole hsimple hchildren) (fun _ => rfl) fun _ hmakes => hmakes.whole

theorem add_compound (hnameless : payload.isNameless = true) (hchildren : ∀ id ∈ payload.children, know.shallow id) :
    (add start payload).Gives know stage (fun _ => stage) know.whole :=
  .step (Payload.admissible_of_shallow hnameless hchildren) (fun _ => rfl) fun _ hmakes => hmakes.whole

theorem add_name {use : NameUse} (hchildren : ∀ id ∈ use.children, know.shallow id)
    (hsymbol : ∀ id ∈ use.symbol?, know.symbol id) :
    (add start (.name use)).Gives know stage (fun _ => stage) know.shallow :=
  .step ⟨rfl, fun id hid => know.whole_of_shallow (hchildren id hid), hsymbol, nofun⟩ (fun _ => rfl)
    fun _ hmakes => hmakes.shallow rfl hchildren

end

theorem reserve_gives {start : Nat} : (reserve start).Gives know stage stage.reserving know.made :=
  ⟨trivial, fun _ hmade => ⟨.refl _, hmade⟩⟩

section

variable {start : Nat} {node : NodeId} {payload : Payload Nat}

theorem fill_shallow (hhole : stage.holes.head? = some node) (hsimple : payload.isSimple = true)
    (hchildren : ∀ id ∈ payload.children, know.shallow id) :
    (fill node start payload).Gives know stage (fun _ => stage.filling) fun _ => know.shallow node :=
  ⟨⟨hhole, Payload.admissible_of_shallow (Payload.isNameless_of_isSimple hsimple) hchildren⟩,
    fun _ hmakes => ⟨.refl _, hmakes.shallow (Payload.isCompound_of_isSimple hsimple) hchildren⟩⟩

theorem fill_whole (hhole : stage.holes.head? = some node) (hsimple : payload.isSimple = true)
    (hchildren : ∀ id ∈ payload.children, know.whole id) :
    (fill node start payload).Gives know stage (fun _ => stage.filling) fun _ => know.whole node :=
  ⟨⟨hhole, Payload.admissible_of_whole hsimple hchildren⟩, fun _ hmakes => ⟨.refl _, hmakes.whole⟩⟩

theorem fill_compound (hhole : stage.holes.head? = some node) (hnameless : payload.isNameless = true)
    (hchildren : ∀ id ∈ payload.children, know.shallow id) :
    (fill node start payload).Gives know stage (fun _ => stage.filling) fun _ => know.whole node :=
  ⟨⟨hhole, Payload.admissible_of_shallow hnameless hchildren⟩, fun _ hmakes => ⟨.refl _, hmakes.whole⟩⟩

end

theorem declare_gives {name : DefiningName Nat} {kind : SymbolKind} {node : NodeId} (h : know.made node) :
    (declare name kind node).Gives know stage (fun _ => stage) know.symbol :=
  .step h (fun _ => rfl) fun _ h => h

theorem declareType_gives {name : DefiningName Nat} {kind : SymbolKind} {node : NodeId} {shape : TypeShape}
    (h : know.made node) :
    (declareType name kind node shape).Gives know stage (fun _ => stage) know.symbol :=
  .step h (fun _ => rfl) fun _ h => h

theorem declareAll_gives {names : List (DefiningName Nat)} {kind : SymbolKind} {node : NodeId} (h : know.made node) :
    (declareAll names kind node).Gives know stage (fun _ => stage) fun _ => True := by
  induction names with
  | nil => exact .pure (.refl _) trivial
  | cons name names ih => exact (declare_gives h).bind fun _ _ => ih

theorem bind_gives {id : SymbolId} (h : know.symbol id) :
    (Program.step (.bind id)).Gives know stage (fun _ => stage) fun _ => True :=
  .step h (fun _ => rfl) fun _ _ => trivial

theorem bindAll_gives {ids : List SymbolId} (h : ∀ id ∈ ids, know.symbol id) :
    (bindAll ids).Gives know stage (fun _ => stage) fun _ => True := by
  induction ids with
  | nil => exact .pure (.refl _) trivial
  | cons id ids ih =>
    obtain ⟨hid, hids⟩ := List.forall_mem_cons.mp h
    exact (bind_gives hid).bind fun _ _ => ih hids

theorem openRegion_gives {kind : RegionKind} {owner : Option SymbolId} (h : ∀ id ∈ owner, know.symbol id) :
    (openRegion kind owner).Gives know stage (fun _ => stage) fun _ => True :=
  .step h (fun _ => rfl) fun _ _ => trivial

theorem openRegion_none (kind : RegionKind) :
    (openRegion kind none).Gives know stage (fun _ => stage) fun _ => True :=
  openRegion_gives nofun

theorem closeRegion_supplies :
    closeRegion.Supplies 0 false fun know members => ∀ id ∈ members.all, know.symbol id :=
  query (fun _ _ => trivial) fun _ _ => rfl

theorem addImport_gives {package : SymbolId} {kind : ImportKind} (h : know.symbol package) :
    (Program.step (.addImport package kind)).Gives know stage (fun _ => stage) fun _ => True :=
  .step h (fun _ => rfl) fun _ _ => trivial

theorem resolve_supplies (name : Name) :
    (Program.step (.resolve name)).Supplies 0 false fun know resolution => ∀ id ∈ resolution.symbol, know.symbol id :=
  query (fun _ _ => trivial) fun _ _ => rfl

theorem endName_supplies (expected : Name) : (endName expected).Supplies 0 false fun _ _ => True := by
  intro know stage _
  refine (isAtAny_supplies _).bind rfl fun isName _ => ?_
  cases isName with
  | false => exact .pure (.refl _) trivial
  | true =>
    refine take_supplies.bind rfl fun token _ => ?_
    dsimp only
    split
    · exact (find_gives (by exact each_nil)).bind fun _ _ => .pure stage.advance_reaches trivial
    · exact .pure stage.advance_reaches trivial

theorem nested_supplies {body : Program NodeId} (h : body.Supplies rank consumes Knowledge.whole) :
    (nested body).Supplies rank consumes Knowledge.shallow :=
  h.nested fun hbelow hnode => hbelow.shallow hnode

theorem attempt_gives {body : Program NodeId} (h : body.Supplies rank consumes Knowledge.whole)
    (hrank : stage.permits rank = true) :
    (attempt body).Gives know stage (fun found => stage.after (found.isSome && consumes))
      fun found => ∀ node ∈ found, know.shallow node :=
  h.attempt_gives (fun hbelow hnode => hbelow.shallow hnode) hrank

theorem attempt_supplies {body : Program NodeId} (h : body.Supplies rank consumes Knowledge.whole) :
    (attempt body).Supplies rank false fun know found => ∀ node ∈ found, know.shallow node :=
  fun _ stage hrank => (attempt_gives h hrank).mono (fun _ => stage.after_reaches _) fun _ h => h

theorem attemptList_supplies {body : Program (List NodeId)}
    (h : body.Supplies rank consumes fun know nodes => ∀ node ∈ nodes, know.shallow node) :
    (attempt body).Supplies rank false fun know found => ∀ nodes ∈ found, ∀ node ∈ nodes, know.shallow node :=
  fun _ stage hrank =>
    (h.attempt_gives (fun hbelow hnodes node hnode => hbelow.shallow (Knowledge.whole_of_shallow _ (hnodes node hnode)))
      hrank).mono (fun _ => stage.after_reaches _) fun _ h => h

theorem attemptIf_gives {condition : Bool} {body : Program NodeId} (h : body.Supplies rank consumes Knowledge.whole)
    (hrank : stage.permits rank = true) :
    (attemptIf condition body).Gives know stage (fun found => stage.after (found.isSome && consumes))
      fun found => ∀ node ∈ found, know.shallow node := by
  cases condition with
  | true => exact attempt_gives h hrank
  | false => exact .pure (.refl _) nofun

theorem attemptIf_supplies {condition : Bool} {body : Program NodeId}
    (h : body.Supplies rank consumes Knowledge.whole) :
    (attemptIf condition body).Supplies rank false fun know found => ∀ node ∈ found, know.shallow node := by
  cases condition with
  | true => exact attempt_supplies h
  | false => exact fun _ _ _ => .pure (.refl _) nofun

theorem whole_of_grants {rule : Rule} {node : NodeId} (h : (Production.rule rule).Grants know node) :
    know.whole node := by
  cases rule <;> first | exact h | exact know.whole_of_shallow h

theorem rule_supplies (rule : Rule) : (Program.rule rule).Supplies ((Production.rule rule).rank + 1) true Knowledge.whole :=
  (Supplies.call (Production.rule rule)).imp fun _ _ h => whole_of_grants h

theorem tryRules_gives {rules : List Rule} (hrules : ∀ rule ∈ rules, (Production.rule rule).rank = 0)
    (hrank : stage.permits 1 = true) :
    (tryRules rules).Gives know stage (fun found => stage.after found.isSome)
      fun found => ∀ node ∈ found, know.shallow node := by
  induction rules with
  | nil => exact .pure (.refl _) nofun
  | cons rule rules ih =>
    obtain ⟨hrule, hrules⟩ := List.forall_mem_cons.mp hrules
    have hfirst := rule_supplies rule
    rw [hrule] at hfirst
    refine (attempt_gives hfirst hrank).bind fun found hfound => ?_
    cases found with
    | some node => exact .pure (.refl _) hfound
    | none => exact ih hrules

theorem firstOf_supplies {rules : List Rule} (hrules : ∀ rule ∈ rules, (Production.rule rule).rank = 0) :
    (firstOf rules).Supplies 1 true Knowledge.shallow := by
  intro know stage hrank
  refine (tryRules_gives hrules hrank).bind fun found hfound => ?_
  cases found with
  | some node => exact .pure (.refl _) (hfound node rfl)
  | none => exact .fail

theorem after_supplies {kind : TokenKind} {body : Program α} (h : body.Supplies rank consumes given)
    (hrank : ∀ stage : Stage, stage.advance.permits rank = true) :
    (after kind body).Supplies 0 false fun know found => ∀ value ∈ found, given know value := by
  intro know stage _
  refine (accept_gives kind).bind fun accepted _ => ?_
  cases accepted with
  | false => exact .pure (.refl _) nofun
  | true =>
    refine h.forget.bind (hrank stage) fun value hvalue => .pure stage.advance_reaches ?_
    intro found hfound
    exact Option.mem_some.mp hfound ▸ hvalue

theorem separated_supplies {separator : TokenKind} {item : Program α} (h : item.Supplies rank true given) :
    (separated separator item).Supplies rank true fun know items => ∀ value ∈ items, given know value := by
  intro know stage hrank
  refine .loop true (fun items => ∀ value ∈ items, given know value) (by simp) fun items hitems => ?_
  refine h.bind hrank fun value hvalue => ?_
  refine (accept_supplies separator).bind rfl fun more _ => ?_
  have hall : ∀ found ∈ value :: items, given know found := List.forall_mem_cons.mpr ⟨hvalue, hitems⟩
  cases more with
  | true => exact .pure (.refl _) hall
  | false => exact .pure (.refl _) fun found hfound => hall found (List.mem_reverse.mp hfound)

theorem whileAt_gives {kind : TokenKind} {item : Program α} {good : α → Prop}
    (h : ∀ moved, item.Gives know { stage with moved } (fun _ => stage.advance) good) :
    (whileAt kind item).Gives know stage (fun _ => stage) fun items => ∀ value ∈ items, good value := by
  refine .loop false (fun items => ∀ value ∈ items, good value) (by simp) fun items hitems => ?_
  refine (isAt_supplies kind).bind rfl fun isAt _ => ?_
  cases isAt with
  | true =>
    exact (h false).bind fun value hvalue => .pure (.refl _) (List.forall_mem_cons.mpr ⟨hvalue, hitems⟩)
  | false => exact .pure (.refl _) fun found hfound => hitems found (List.mem_reverse.mp hfound)

theorem whileAt_supplies {kind : TokenKind} {item : Program α} (h : item.Supplies rank true given) :
    (whileAt kind item).Supplies rank false fun know items => ∀ value ∈ items, given know value :=
  fun know stage hrank => whileAt_gives fun moved => h know { stage with moved } hrank

theorem items_supplies {context : Context} {code : Code} {item : Program NodeId}
    (h : item.Supplies rank true Knowledge.whole) :
    (Program.items context code item).Supplies rank false fun know nodes => ∀ node ∈ nodes, know.shallow node := by
  refine fun know stage hrank => ⟨fun inner hinner => ?_, fun nodes hnodes => ⟨.refl _, hnodes⟩⟩
  refine Assures.mono (h inner { stage with moved := false, holes := [] } hrank) (.refl _)
    fun last last' value hlast ⟨hreaches, hvalue⟩ => ?_
  have hreaches := hlast.trans hreaches
  exact ⟨hreaches.holes, hreaches.moved rfl, hvalue⟩

end Program

namespace Grammar

open Program

variable {know : Knowledge} {stage : Stage} {node : NodeId}

theorem identifierList_supplies : identifierList.Supplies 0 true fun _ _ => True :=
  (separated_supplies definingIdentifier_supplies).imp fun _ _ _ => trivial

theorem functionDesignator_supplies : functionDesignator.Supplies 0 true fun _ _ => True := by
  intro know stage _
  refine (isAt_supplies _).bind rfl fun isOperator _ => ?_
  cases isOperator with
  | true => exact take_supplies.bind rfl fun token _ => .pure (.refl _) trivial
  | false => exact definingIdentifier_supplies.gives rfl

theorem directName_supplies : directName.Supplies 0 true Knowledge.shallow := by
  intro know stage _
  refine position_supplies.bind rfl fun start _ => ?_
  refine (isAtAny_supplies _).bind rfl fun isName _ => ?_
  cases isName with
  | false => exact .reject
  | true =>
    refine take_supplies.bind rfl fun token _ => ?_
    exact (resolve_supplies _).bind rfl fun resolution hresolution => add_name each_nil hresolution

theorem resolveSelector_gives {base : Option SymbolId × SymbolKind} (h : ∀ id ∈ base.1, know.symbol id)
    (selector : Name) :
    (resolveSelector base selector).Gives know stage (fun _ => stage)
      fun found => ∀ id ∈ found.2.symbol, know.symbol id := by
  obtain ⟨owner, kind⟩ := base
  cases owner with
  | none =>
    refine .pure (.refl _) fun id hid => ?_
    unfold resolveSelector.member at hid
    split at hid <;> cases hid
  | some owner =>
    unfold resolveSelector
    dsimp only
    split
    · refine Gives.bind (.step (h owner rfl) (fun _ => rfl) fun _ h => h) fun resolution hresolution => ?_
      exact .pure (.refl _) hresolution
    · refine .pure (.refl _) fun id hid => ?_
      unfold resolveSelector.member at hid
      split at hid <;> cases hid

theorem select_gives {start : Nat} (h : know.shallow node) (selector : Name) :
    (select start node selector).Gives know stage (fun _ => stage) know.shallow := by
  refine (classify_gives (know.made_of_shallow h)).bind fun base hbase => ?_
  refine (resolveSelector_gives hbase selector).bind fun found hfound => ?_
  exact add_name (each_one h) hfound

theorem expandedName_supplies : expandedName.Supplies 0 true Knowledge.shallow := by
  intro know stage _
  refine position_supplies.bind rfl fun start _ => ?_
  refine (isAt_supplies _).bind rfl fun isName _ => ?_
  cases isName with
  | false => exact .reject
  | true =>
    refine directName_supplies.bind rfl fun node hnode => ?_
    refine .loop false know.shallow hnode fun node hnode => ?_
    refine (followedBy_supplies _ _).bind rfl fun more _ => ?_
    cases more with
    | false => exact .pure (.refl _) hnode
    | true =>
      refine advance_supplies.bind rfl fun _ _ => ?_
      refine take_supplies.bind rfl fun token _ => ?_
      exact (select_gives hnode _).bind fun _ hlonger => .pure (.refl _) hlonger

theorem checkTypeMark_gives (h : know.made node) (kind : SymbolKind) :
    (checkTypeMark node kind).Gives know stage (fun _ => stage) fun _ => True := by
  unfold checkTypeMark
  split
  · exact find_gives (each_one h)
  · split
    · exact .pure (.refl _) trivial
    · exact find_gives (each_one h)

theorem typeMark_supplies :
    typeMark.Supplies 0 true fun know mark => know.shallow mark.1 ∧ ∀ id ∈ mark.2, know.symbol id := by
  intro know stage _
  refine (isAt_supplies _).bind rfl fun isName _ => ?_
  cases isName with
  | false => exact .reject
  | true =>
    refine expandedName_supplies.bind rfl fun node hnode => ?_
    refine (classify_gives (know.made_of_shallow hnode)).bind fun named hnamed => ?_
    exact (checkTypeMark_gives (know.made_of_shallow hnode) _).bind fun _ _ => .pure (.refl _) ⟨hnode, hnamed⟩

end Grammar

end AdaSyntax
