import AdaSyntax.Proofs.Sight.Basic

namespace AdaSyntax

namespace Program

variable {seen : Nat → Prop} {α β σ : Type} {good : α → Prop}

theorem Heedful.of_step {op : Op α} (h : ∀ seen, op.Minds seen) : Heedful (.step op) :=
  ⟨fun seen => ⟨h seen, fun _ _ => trivial⟩⟩

instance : Heedful kind := .of_step fun _ => trivial

instance : Heedful position := .of_step fun _ => trivial

instance : Heedful (.step .lookaheadClass) := .of_step fun _ => trivial

instance (kinds : List TokenKind) : Heedful (.step (.aheadInGroup kinds)) := .of_step fun _ => trivial

instance (kinds : List TokenKind) : Heedful (.step (.aheadInParentheses kinds)) := .of_step fun _ => trivial

theorem followedBy_heedful {first second : TokenKind} (h : first ≠ .semicolon ∧ first ≠ .endOfFile) :
    Heedful (followedBy first second) :=
  .of_step fun _ => h

instance (token : TokenKind) : Heedful (isAt token) := ⟨fun _ => .skip fun _ => .done trivial⟩

instance (kinds : List TokenKind) : Heedful (isAtAny kinds) := ⟨fun _ => .skip fun _ => .done trivial⟩

theorem position_minds : position.Minds seen seen := ⟨trivial, fun _ h => h⟩

theorem take_minds : take.Minds seen fun token => seen token.position := ⟨trivial, fun _ h => h⟩

instance : Heedful take := .of_step fun _ => trivial

instance (token : TokenKind) : Heedful (.step (.expect token)) := .of_step fun _ => trivial

instance (token : TokenKind) : Heedful (.step (.expectChoice token)) := .of_step fun _ => trivial

instance : Heedful advance := ⟨fun _ => Minds.skip (p := take) fun _ => .done trivial⟩

instance (token : TokenKind) : Heedful (expect token) :=
  ⟨fun _ => Minds.skip (p := .step (.expect token)) fun _ => .done trivial⟩

instance (token : TokenKind) : Heedful (expectChoice token) :=
  ⟨fun _ => Minds.skip (p := .step (.expectChoice token)) fun _ => .done trivial⟩

instance (token : TokenKind) : Heedful (accept token) := ⟨fun _ => by
  refine .skip fun isAt => ?_
  split
  · exact .skip fun _ => .done trivial
  · exact .done trivial⟩

instance (kinds : List TokenKind) : Heedful (expectAll kinds) := ⟨fun seen => by
  induction kinds with
  | nil => exact .done trivial
  | cons kind kinds ih => exact .skip (p := expect kind) fun _ => ih⟩

theorem definingIdentifier_minds : definingIdentifier.Minds seen fun name => seen name.place :=
  Minds.bind (p := .step (.expect .identifier)) ⟨trivial, fun _ h => h⟩ fun _ htoken => .done htoken

instance : Heedful definingIdentifier := Minds.heedful fun _ => definingIdentifier_minds

theorem find_heedful {finding : Finding} (h : finding.positions = []) : Heedful (find finding) :=
  .of_step fun _ position hposition => by rw [h] at hposition; cases hposition

theorem find_minds (finding : Finding) (h : ∀ position ∈ finding.positions, seen position) :
    (find finding).Minds seen fun _ => True :=
  ⟨h, fun _ _ => trivial⟩

instance (expected : Name) : Heedful (endName expected) := ⟨fun seen => by
  refine .skip fun hasName => ?_
  split
  · refine take_minds.bind fun token htoken => ?_
    dsimp only
    split
    · have hplace : ∀ position ∈ [token.position], seen position := List.forall_mem_singleton.mpr htoken
      exact (find_minds (.endMismatch token.position _ _) hplace).bind fun _ _ => .done trivial
    · exact .done trivial
  · exact .done trivial⟩

theorem unnamed {payload : Payload Nat} (h : payload.names = []) : ∀ name ∈ payload.names, seen name.place :=
  h ▸ List.forall_mem_nil _

theorem add_minds {start : Nat} {payload : Payload Nat} (hstart : seen start)
    (hnames : ∀ name ∈ payload.names, seen name.place := by exact unnamed rfl) :
    (add start payload).Minds seen fun _ => True :=
  ⟨⟨hstart, hnames⟩, fun _ _ => trivial⟩

theorem fill_minds {id : NodeId} {start : Nat} {payload : Payload Nat} (hstart : seen start)
    (hnames : ∀ name ∈ payload.names, seen name.place := by exact unnamed rfl) :
    (fill id start payload).Minds seen fun _ => True :=
  ⟨⟨hstart, hnames⟩, fun _ _ => trivial⟩

theorem Minds.add {start : Nat} {payload : Payload Nat} {next : NodeId → Program α} (hstart : seen start)
    (hnames : ∀ name ∈ payload.names, seen name.place) (hnext : ∀ node, (next node).Minds seen good) :
    (Program.add start payload >>= next).Minds seen good :=
  (add_minds hstart hnames).bind fun node _ => hnext node

theorem Minds.fill {id : NodeId} {start : Nat} {payload : Payload Nat} {next : Unit → Program α}
    (hstart : seen start) (hnames : ∀ name ∈ payload.names, seen name.place)
    (hnext : ∀ done, (next done).Minds seen good) : (Program.fill id start payload >>= next).Minds seen good :=
  (fill_minds hstart hnames).bind fun done _ => hnext done

theorem reserve_minds {start : Nat} (hstart : seen start) : (reserve start).Minds seen fun _ => True :=
  ⟨hstart, fun _ _ => trivial⟩

theorem declare_minds {name : DefiningName Nat} (hname : seen name.place) (kind : SymbolKind) (node : NodeId) :
    (declare name kind node).Minds seen fun _ => True :=
  ⟨hname, fun _ _ => trivial⟩

theorem declareType_minds {name : DefiningName Nat} (hname : seen name.place) (kind : SymbolKind)
    (node : NodeId) (shape : TypeShape) : (declareType name kind node shape).Minds seen fun _ => True :=
  ⟨hname, fun _ _ => trivial⟩

theorem declareAll_minds {names : List (DefiningName Nat)} (hnames : ∀ name ∈ names, seen name.place)
    (kind : SymbolKind) (node : NodeId) : (declareAll names kind node).Minds seen fun _ => True := by
  induction names with
  | nil => exact .done trivial
  | cons name names ih =>
    obtain ⟨hname, hnames⟩ := List.forall_mem_cons.mp hnames
    exact (declare_minds hname kind node).bind fun _ _ => ih hnames

instance (id : NodeId) : Heedful (inspect id) := .of_step fun _ => trivial

instance (id : NodeId) : Heedful (classify id) := ⟨fun _ => .skip fun _ => .done trivial⟩

instance (name : Name) : Heedful (.step (.resolve name)) := .of_step fun _ => trivial

instance (owner : SymbolId) (name : Name) : Heedful (.step (.resolveMember owner name)) :=
  .of_step fun _ => trivial

instance (id : SymbolId) : Heedful (.step (.kindOf id)) := .of_step fun _ => trivial

instance (id : SymbolId) : Heedful (.step (.shapeOf id)) := .of_step fun _ => trivial

instance (id : SymbolId) : Heedful (.step (.declaredHere id)) := .of_step fun _ => trivial

instance (name : Name) : Heedful (.step (.libraryUnit name)) := .of_step fun _ => trivial

instance (label : Option SymbolId) : Heedful (.step (.enclosingLoop label)) := .of_step fun _ => trivial

instance (id : SymbolId) : Heedful (.step (.bind id)) := .of_step fun _ => trivial

instance : Heedful (.step .markPrivate) := .of_step fun _ => trivial

instance (package : SymbolId) (kind : ImportKind) : Heedful (.step (.addImport package kind)) :=
  .of_step fun _ => trivial

instance (owner : SymbolId) (members : Members) : Heedful (.step (.publish owner members)) :=
  .of_step fun _ => trivial

instance (synonym target : SymbolId) : Heedful (.step (.publishAlias synonym target)) :=
  .of_step fun _ => trivial

instance (kind : RegionKind) (owner : Option SymbolId) : Heedful (openRegion kind owner) :=
  .of_step fun _ => trivial

instance : Heedful closeRegion := .of_step fun _ => trivial

instance (ids : List SymbolId) : Heedful (bindAll ids) := ⟨fun seen => by
  induction ids with
  | nil => exact .done trivial
  | cons id ids ih => exact .skip (p := .step (.bind id)) fun _ => ih⟩

instance (value : α) : Heedful (Pure.pure value : Program α) := ⟨fun _ => .done trivial⟩

instance (value : α) : Heedful (Program.pure value) := ⟨fun _ => .done trivial⟩

instance (expected : String) : Heedful (Program.reject expected : Program α) := ⟨fun _ => .reject⟩

instance (production : Production α) : Heedful (.call production) := ⟨fun _ _ => trivial⟩

instance (rule : Rule) : Heedful (Program.rule rule) := ⟨fun _ _ => trivial⟩

instance (body : Program α) [body.Heedful] : Heedful (attempt body) :=
  Minds.heedful fun _ => (Minds.of_heedful body).attempt

instance (body : Program α) [body.Heedful] : Heedful (nested body) := ⟨fun _ => Minds.of_heedful body⟩

instance (condition : Prop) [Decidable condition] (first second : Program α) [first.Heedful] [second.Heedful] :
    Heedful (if condition then first else second) := by
  split <;> infer_instance

instance (condition : Bool) (body : Program α) [body.Heedful] : Heedful (attemptIf condition body) := by
  unfold attemptIf
  infer_instance

theorem tryRules_heeds (rules : List Rule) (noted : Bool) :
    (tryRules rules).Heeds seen noted fun last found => found = none → (noted = true ∨ rules ≠ []) → last = true := by
  induction rules generalizing noted with
  | nil => exact fun _ h => h.resolve_right fun hnil => hnil rfl
  | cons rule rules ih =>
    refine ⟨fun _ => nofun, ?_⟩
    exact (ih true).mono (Bool.le_refl _) fun last last' found hlast hfound hnone _ =>
      hlast (hfound hnone (.inl rfl))

theorem firstOf_heedful {rules : List Rule} (h : rules ≠ []) : Heedful (firstOf rules) := ⟨fun seen => by
  refine (tryRules_heeds rules false).mono (Bool.le_refl _) fun last last' found hlast hfound => ?_
  cases found with
  | some node => trivial
  | none => exact hlast (hfound rfl (.inr h))⟩

theorem separated_minds {separator : TokenKind} {item : Program α} (h : item.Minds seen good) :
    (separated separator item).Minds seen fun items => ∀ value ∈ items, good value := by
  refine .loop (fun items => ∀ value ∈ items, good value) nofun fun items hitems => ?_
  refine h.bind fun value hvalue => ?_
  have hall : ∀ found ∈ value :: items, good found := List.forall_mem_cons.mpr ⟨hvalue, hitems⟩
  refine .skip fun more => ?_
  cases more with
  | true => exact .done hall
  | false => exact .done fun found hfound => hall found (List.mem_reverse.mp hfound)

instance (separator : TokenKind) (item : Program α) [item.Heedful] : Heedful (separated separator item) :=
  Minds.heedful fun _ => separated_minds (.of_heedful item)

theorem whileAt_minds {kind : TokenKind} {item : Program α} (h : item.Minds seen good) :
    (whileAt kind item).Minds seen fun items => ∀ value ∈ items, good value := by
  refine .loop (fun items => ∀ value ∈ items, good value) nofun fun items hitems => ?_
  refine .skip fun more => ?_
  cases more with
  | true => exact h.bind fun value hvalue => .done (List.forall_mem_cons.mpr ⟨hvalue, hitems⟩)
  | false => exact .done fun found hfound => hitems found (List.mem_reverse.mp hfound)

instance (kind : TokenKind) (item : Program α) [item.Heedful] : Heedful (whileAt kind item) :=
  Minds.heedful fun _ => whileAt_minds (.of_heedful item)

instance (kind : TokenKind) (body : Program α) [body.Heedful] : Heedful (after kind body) := ⟨fun _ => by
  refine .skip fun found => ?_
  cases found with
  | true => exact .skip fun _ => .done trivial
  | false => exact .done trivial⟩

instance : Heedful initialValue := inferInstanceAs (Heedful (after .assign (rule .expression)))

theorem items_heedful {context : Context} {code : Code} {item : Program NodeId} (hcode : code ≠ .undeclaredTypeMark)
    [hitem : item.Heedful] : Heedful (.items context code item) :=
  ⟨fun seen => ⟨hcode, hitem.minds seen, fun _ => trivial⟩⟩

end Program

namespace Grammar

open Program

variable {seen : Nat → Prop}

theorem identifierList_minds : identifierList.Minds seen fun names => ∀ name ∈ names, seen name.place :=
  separated_minds definingIdentifier_minds

theorem functionDesignator_minds : functionDesignator.Minds seen fun name => seen name.place := by
  refine .skip fun isOperator => ?_
  split
  · exact take_minds.bind fun token htoken => .done htoken
  · exact definingIdentifier_minds

instance : Heedful directName := ⟨fun seen => by
  refine position_minds.bind fun start hstart => .skip fun isName => ?_
  split
  · exact .skip fun token => .skip (p := .step (.resolve _)) fun resolution => add_minds hstart
  · exact .reject⟩

instance (base : Option SymbolId × SymbolKind) (selector : Name) : Heedful (resolveSelector base selector) := by
  obtain ⟨owner, kind⟩ := base
  cases owner with
  | none => exact inferInstanceAs (Heedful (Pure.pure _))
  | some owner =>
    unfold resolveSelector
    dsimp only
    split
    · exact ⟨fun _ => .skip (p := .step (.resolveMember owner selector)) fun _ => .done trivial⟩
    · infer_instance

theorem select_minds {start : Nat} (hstart : seen start) (base : NodeId) (selector : Name) :
    (select start base selector).Minds seen fun _ => True :=
  .skip fun named => .skip fun found => add_minds hstart

instance : Heedful expandedName := ⟨fun seen => by
  refine position_minds.bind fun start hstart => .skip fun isName => ?_
  split
  · refine .skip fun node => .loop (fun _ => True) trivial fun node _ => ?_
    have : Heedful (followedBy .dot .identifier) := followedBy_heedful (by decide)
    refine .skip fun more => ?_
    split
    · exact .skip fun _ => .skip fun token => (select_minds hstart _ _).bind fun _ _ => .done trivial
    · exact .done trivial
  · exact .reject⟩

instance (mark : NodeId) (kind : SymbolKind) : Heedful (checkTypeMark mark kind) := by
  have : Heedful (find (.undeclaredTypeMark mark)) := find_heedful rfl
  have : Heedful (find (.notAType mark kind)) := find_heedful rfl
  unfold checkTypeMark
  infer_instance

instance : Heedful typeMark := ⟨fun seen => by
  refine .skip fun isName => ?_
  split
  · exact .skip fun node => .skip fun named => .skip fun _ => .done trivial
  · exact .reject⟩

end Grammar

end AdaSyntax
