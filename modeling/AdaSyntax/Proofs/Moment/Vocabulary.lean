import AdaSyntax.Proofs.Moment.Basic

namespace AdaSyntax

variable {inv : SymbolTable.Invariant} {α : Type}

namespace Op

theorem Maintains.of_symbols {op : Op α} (h : ∀ parser : Parser, (parser.perform op).2.symbols = parser.symbols) :
    op.Maintains inv :=
  ⟨fun {parser} hparser => h parser ▸ hparser.holds⟩

instance : kind.Maintains inv := .of_symbols fun _ => rfl

instance : position.Maintains inv := .of_symbols fun _ => rfl

instance (first second : TokenKind) : (followedBy first second).Maintains inv := .of_symbols fun _ => rfl

instance (kinds : List TokenKind) : (aheadInGroup kinds).Maintains inv := .of_symbols fun _ => rfl

instance (kinds : List TokenKind) : (aheadInParentheses kinds).Maintains inv := .of_symbols fun _ => rfl

instance : lookaheadClass.Maintains inv := .of_symbols fun _ => rfl

instance : take.Maintains inv := .of_symbols Parser.take_symbols

instance (token : TokenKind) : (expect token).Maintains inv := .of_symbols fun parser => parser.expect_symbols token

instance (token : TokenKind) : (expectChoice token).Maintains inv :=
  .of_symbols fun parser => parser.expectChoice_symbols token

instance (start : Nat) (payload : Payload Nat) : (add start payload).Maintains inv := .of_symbols fun _ => rfl

instance (start : Nat) : (reserve start).Maintains inv := .of_symbols fun _ => rfl

instance (id : NodeId) (start : Nat) (payload : Payload Nat) : (fill id start payload).Maintains inv :=
  .of_symbols fun parser => parser.fillNode_symbols id _ _

instance (id : NodeId) : (inspect id).Maintains inv := .of_symbols fun _ => rfl

instance (name : Name) : (resolve name).Maintains inv := .of_symbols fun _ => rfl

instance (owner : SymbolId) (name : Name) : (resolveMember owner name).Maintains inv := .of_symbols fun _ => rfl

instance (id : SymbolId) : (kindOf id).Maintains inv := .of_symbols fun _ => rfl

instance (id : SymbolId) : (shapeOf id).Maintains inv := .of_symbols fun _ => rfl

instance (id : SymbolId) : (declaredHere id).Maintains inv := .of_symbols fun _ => rfl

instance (name : Name) : (libraryUnit name).Maintains inv := .of_symbols fun _ => rfl

instance (label : Option SymbolId) : (enclosingLoop label).Maintains inv := .of_symbols fun _ => rfl

instance (finding : Finding) : (find finding).Maintains inv :=
  .of_symbols fun parser => (parser.find_reports finding).symbols_eq

instance (name : DefiningName Nat) (kind : SymbolKind) (node : NodeId) (shape : Option TypeShape) :
    (declare name kind node shape).Maintains inv := ⟨fun {parser} hparser => by
  have hsymbols : (parser.perform (declare name kind node shape)).2.symbols = (parser.symbols.declare _).2.2 :=
    Parser.reportDeclared_symbols ..
  exact hsymbols ▸ inv.declare _ hparser.holds⟩

end Op

namespace Program

instance : Maintains inv kind := inferInstanceAs (Maintains inv (.step .kind))

instance : Maintains inv position := inferInstanceAs (Maintains inv (.step .position))

instance (token : TokenKind) : Maintains inv (isAt token) := by unfold isAt; infer_instance

instance (kinds : List TokenKind) : Maintains inv (isAtAny kinds) := by unfold isAtAny; infer_instance

instance (first second : TokenKind) : Maintains inv (followedBy first second) := by unfold followedBy; infer_instance

instance : Maintains inv take := by unfold take; infer_instance

instance : Maintains inv advance := by unfold advance; infer_instance

instance (token : TokenKind) : Maintains inv (accept token) := by unfold accept; infer_instance

instance (token : TokenKind) : Maintains inv (expect token) := by unfold expect; infer_instance

instance (token : TokenKind) : Maintains inv (expectChoice token) := by unfold expectChoice; infer_instance

instance (kinds : List TokenKind) : Maintains inv (expectAll kinds) := by
  induction kinds with
  | nil => unfold expectAll; infer_instance
  | cons kind kinds ih => unfold expectAll; infer_instance

instance (start : Nat) (payload : Payload Nat) : Maintains inv (add start payload) := by unfold add; infer_instance

instance (start : Nat) : Maintains inv (reserve start) := by unfold reserve; infer_instance

instance (id : NodeId) (start : Nat) (payload : Payload Nat) : Maintains inv (fill id start payload) := by
  unfold fill; infer_instance

instance (id : NodeId) : Maintains inv (inspect id) := by unfold inspect; infer_instance

instance (id : NodeId) : Maintains inv (classify id) := by unfold classify; infer_instance

instance (finding : Finding) : Maintains inv (find finding) := by unfold find; infer_instance

instance (name : DefiningName Nat) (kind : SymbolKind) (node : NodeId) : Maintains inv (declare name kind node) := by
  unfold declare; infer_instance

instance (name : DefiningName Nat) (kind : SymbolKind) (node : NodeId) (shape : TypeShape) :
    Maintains inv (declareType name kind node shape) := by
  unfold declareType; infer_instance

instance (names : List (DefiningName Nat)) (kind : SymbolKind) (node : NodeId) :
    Maintains inv (declareAll names kind node) := by
  induction names with
  | nil => unfold declareAll; infer_instance
  | cons name names ih => unfold declareAll; infer_instance

instance (condition : Bool) (body : Program α) [body.Maintains inv] : Maintains inv (attemptIf condition body) := by
  unfold attemptIf; infer_instance

theorem rule_maintains {rule : Rule} (h : inv.allows (.rule rule) = true) : Maintains inv (Program.rule rule) :=
  call_maintains h

theorem tryRules_maintains {rules : List Rule} (h : ∀ rule ∈ rules, inv.allows (.rule rule) = true) :
    Maintains inv (tryRules rules) := by
  induction rules with
  | nil => unfold tryRules; infer_instance
  | cons first rest ih =>
    obtain ⟨hfirst, hrest⟩ := List.forall_mem_cons.mp h
    have := rule_maintains hfirst
    have := ih hrest
    refine .skip fun found => ?_
    split <;> infer_instance

theorem firstOf_maintains {rules : List Rule} (h : ∀ rule ∈ rules, inv.allows (.rule rule) = true) :
    Maintains inv (firstOf rules) := by
  have := tryRules_maintains h
  refine .skip fun found => ?_
  split <;> infer_instance

instance (separator : TokenKind) (item : Program α) [item.Maintains inv] : Maintains inv (separated separator item) := by
  unfold separated; infer_instance

instance (kind : TokenKind) (item : Program α) [item.Maintains inv] : Maintains inv (whileAt kind item) := by
  unfold whileAt; infer_instance

instance (kind : TokenKind) (body : Program α) [body.Maintains inv] : Maintains inv (after kind body) := by
  unfold after; infer_instance

instance : Maintains inv definingIdentifier := by unfold definingIdentifier; infer_instance

instance (expected : Name) : Maintains inv (endName expected) := by unfold endName; infer_instance

end Program

end AdaSyntax
