import AdaSyntax.Proofs.Parser.Draft
import AdaSyntax.Proofs.Parser.Owned

namespace AdaSyntax

def Op.isQuery {α : Type} : Op α → Bool
  | .kind | .position | .followedBy .. | .aheadInGroup .. | .aheadInParentheses .. | .lookaheadClass
  | .inspect .. | .resolve .. | .resolveMember .. | .kindOf .. | .shapeOf .. | .declaredHere ..
  | .libraryUnit .. | .enclosingLoop .. => true
  | _ => false

namespace Parser

theorem perform_query {α : Type} {op : Op α} (parser : Parser) (h : op.isQuery = true) :
    ∃ value, parser.perform op = (.matched value, parser) := by
  cases op <;> first | exact ⟨_, rfl⟩ | cases h

theorem Spans.reportDeclared {parser : Parser} {node : NodeId} {place : Nat} {symbols : SymbolTable}
    (h : parser.Spans node place) (id : SymbolId) (declared : Declared) :
    (({ parser with symbols } : Parser).reportDeclared id declared).Spans node place := by
  rcases ({ parser with symbols } : Parser).reportDeclared_reports id declared with heq | ⟨diagnostic, heq⟩ <;>
    rw [heq] <;> exact h

theorem withPosition_outcome {fail : Parser → Prop} {done : TokenAt → Parser → Prop} {position : Nat}
    {result : Reply Token × Parser}
    (h : Outcome fail (fun token later => done ⟨token.kind, token.text, position⟩ later) result) :
    Outcome fail done (withPosition position result) := by
  obtain ⟨reply, later⟩ := result
  cases reply <;> exact h

section

variable {base parser : Parser} {yield : Yield} {done : Token → Parser → Prop}

theorem take_outcome (hfails : parser.RevertsTo base)
    (hdone : ∀ token cursor, parser.cursor.advance = .ok (token, cursor) → done token { parser with cursor }) :
    Outcome (·.RevertsTo base) done parser.take := by
  unfold take
  cases hadvance : parser.cursor.advance with
  | ok next => exact hdone _ _ hadvance
  | error error => exact hfails

theorem expectChoice_outcome (hfails : parser.RevertsTo base) (kind : TokenKind)
    (hdone : ∀ token cursor, parser.cursor.advance = .ok (token, cursor) → done token { parser with cursor }) :
    Outcome (·.RevertsTo base) done (parser.expectChoice kind) := by
  unfold expectChoice
  split
  · exact take_outcome hfails hdone
  · exact (parser.recordMismatch_revertsTo _).trans hfails

theorem expect_outcome (hfails : parser.RevertsTo base) (kind : TokenKind)
    (hdone : ∀ token cursor, parser.cursor.advance = .ok (token, cursor) → done token { parser with cursor }) :
    Outcome (·.RevertsTo base) done (parser.expect kind) := by
  unfold expect
  split
  · exact take_outcome hfails hdone
  · split
    · exact hfails
    · exact (parser.recordMismatch_revertsTo _).trans hfails

end

namespace Made

variable {base parser : Parser} {moved : Bool} {yield yield' : Yield}

theorem place_token {token : Token} {cursor : Cursor} (h : parser.symbols.Proper)
    (hadvance : parser.cursor.advance = .ok (token, cursor)) :
    Made parser { parser with cursor } true (.place parser.position) :=
  (refl h).place hadvance

theorem reportDeclared {id : SymbolId} (h : Made base parser moved yield) (declared : Declared)
    (hloud : yield.silent = false) (hid : base.symbols.symbols.size ≤ id.index ∨ yield.files = true) :
    Made base (parser.reportDeclared id declared) moved yield := by
  obtain ⟨nodes, hcourse⟩ := h.course
  have hposition : (parser.reportDeclared id declared).position = parser.position :=
    congrArg Cursor.position (parser.reportDeclared_reports id declared).cursor_eq
  exact ⟨h.proper, ⟨nodes, hcourse.declared declared hloud hid⟩, hposition ▸ h.reaches⟩

theorem bind {id : SymbolId} (h : Made base parser moved yield) (hid : base.symbols.symbols.size ≤ id.index) :
    Made base (parser.bind id).2 moved yield.loud :=
  (h.change (.bind hid)).reportDeclared _ rfl (.inl hid)

theorem file (h : Made base parser moved yield) (id : SymbolId) :
    Made base (parser.bind id).2 moved yield.filing :=
  (h.change (.file id)).reportDeclared _ rfl (.inr rfl)

theorem declare {declaration : Declaration} (h : Made base parser moved yield)
    (hchange : Change base parser yield (.declare declaration) yield') (hloud : yield'.silent = false) :
    Made base (parser.declare declaration).2 moved yield' :=
  (h.change hchange).reportDeclared _ hloud (.inl h.symbols_le)

theorem awaits {hole : Hole} (h : Made base parser moved yield) (hhole : hole ∈ yield.holes) :
    parser.Awaits hole.node hole.start := by
  obtain ⟨nodes, hbuilt⟩ := h.built
  exact (hbuilt.holes hole hhole).1

theorem place_mem {place : Nat} (h : Made base parser moved yield) (hplace : place ∈ yield.places) :
    base.position ≤ place ∧ place < parser.position := by
  obtain ⟨nodes, hbuilt⟩ := h.built
  exact hbuilt.places place hplace

end Made

theorem Awaits.spans {parser : Parser} {node : NodeId} {start place : Nat} (h : parser.Awaits node start)
    (hle : start ≤ place) (hlt : place < parser.position) : parser.Spans node place :=
  ⟨hlt, _, start, h.2, hle, rfl, fun hfilled => by cases hfilled⟩

theorem Made.spans_of_awaits {base parser : Parser} {moved : Bool} {yield : Yield} {node : NodeId}
    {start place : Nat} (h : Made base parser moved yield) (hawaits : base.Awaits node start)
    (hplace : place ∈ yield.places) : parser.Spans node place := by
  obtain ⟨nodes, hbuilt⟩ := h.built
  obtain ⟨hle, hlt⟩ := hbuilt.places place hplace
  have hreverts := hbuilt.reverts
  exact (hawaits.mono hreverts.tokens hbuilt.reaches hreverts.nodes).spans (Nat.le_trans hawaits.1 hle) hlt

theorem Made.spans {base parser later : Parser} {moved : Bool} {yield : Yield} {node : NodeId}
    {payload : Payload Range} {place : Nat} (h : Made base parser moved yield)
    (hplace : place ∈ yield.places) (hcursor : later.cursor = parser.cursor)
    (hnode : later.tree.get? node =
      some ⟨parser.rangeFrom (parser.place base.position).start, payload⟩) : later.Spans node place := by
  obtain ⟨hle, hlt⟩ := h.place_mem hplace
  have hposition : later.position = parser.position := congrArg Cursor.position hcursor
  have hsize : base.position < parser.cursor.tokens.size :=
    Nat.lt_of_le_of_lt h.reaches.le parser.cursor.position_lt
  refine ⟨hposition ▸ hlt, _, base.position, hnode, hle, ?_, fun _ => ⟨parser.position, hlt, ?_, ?_⟩⟩
  · rw [hcursor, rangeFrom_eq parser hsize]
    rfl
  · exact Nat.le_of_eq hposition.symm
  · rw [hcursor, rangeFrom_eq parser hsize]
    exact Nat.le_max_right _ _

end Parser

namespace Program

variable {calls : ∀ {α : Type}, Production α → Parser → Reply α × Parser} {α : Type}

theorem Reads.query {op : Op α} (h : op.isQuery = true) : Reads calls (.step op) :=
  fun parser => parser.perform_query h

theorem Leads.position {origin parser : Parser} {next : Nat → Program α} {done : α → Parser → Prop}
    (hnext : Leads calls origin (next parser.position) parser done) :
    Leads calls origin (Program.step .position >>= next) parser done :=
  ⟨hnext.outcome⟩

theorem inspect_computes (id : NodeId) :
    Computes calls (.step (.inspect id)) fun parser => (parser.tree.payload id).map fun _ => () :=
  fun _ => rfl

theorem resolve_computes (name : Name) :
    Computes calls (.step (.resolve name)) fun parser => parser.symbols.resolve name :=
  fun _ => rfl

theorem resolveMember_computes (owner : SymbolId) (name : Name) :
    Computes calls (.step (.resolveMember owner name)) fun parser =>
      parser.symbols.resolveMember owner name :=
  fun _ => rfl

theorem enclosingLoop_computes (label : Option SymbolId) :
    Computes calls (.step (.enclosingLoop label)) fun parser => parser.symbols.enclosingLoop label :=
  fun _ => rfl

theorem takeToken_builds : Builds calls (.step .take) true fun token => .place token.position :=
  fun parser hproper => ⟨Parser.withPosition_outcome <| Parser.take_outcome (.refl parser)
    fun _ _ hadvance => Parser.Made.place_token hproper hadvance⟩

theorem expectToken_builds (kind : TokenKind) :
    Builds calls (.step (.expect kind)) true fun token => .place token.position :=
  fun parser hproper => ⟨Parser.withPosition_outcome <| Parser.expect_outcome (.refl parser) kind
    fun _ _ hadvance => Parser.Made.place_token hproper hadvance⟩

theorem expectChoiceToken_passes (kind : TokenKind) :
    Passes calls (.step (.expectChoice kind)) true :=
  fun parser hproper => ⟨Parser.withPosition_outcome <| Parser.expectChoice_outcome (.refl parser) kind
    fun _ _ hadvance => (Parser.Made.refl hproper).advance hadvance⟩

theorem take_passes : Passes calls (.step .take) true :=
  takeToken_builds.weaken fun _ => .unplaced .empty _

theorem expectToken_passes (kind : TokenKind) : Passes calls (.step (.expect kind)) true :=
  (expectToken_builds kind).weaken fun _ => .unplaced .empty _

theorem find_passes {finding : Finding}
    (hfind : ∀ parser : Parser, ∃ diagnostic, diagnostic.code.isPlain = true ∧
      parser.find finding = parser.report diagnostic) :
    Passes calls (.step (.find finding)) false := by
  intro parser hproper
  obtain ⟨diagnostic, hcode, heq⟩ := hfind parser
  refine ⟨?_⟩
  change Parser.Made parser (parser.find finding) false .empty
  rw [heq]
  exact (Parser.Made.refl hproper).report hcode

theorem addImport_passes (package : SymbolId) (kind : ImportKind) :
    Passes calls (.step (.addImport package kind)) false :=
  fun _ hproper => ⟨(Parser.Made.refl hproper).change (.addImport package kind)⟩

namespace Draft

variable {origin base parser : Parser} {moved : Bool} {yield : Yield}

theorem openRegion {kind : RegionKind} (h : Draft origin base parser moved yield)
    (owner : Option SymbolId) (hkind : kind ≠ .loop) :
    Leads calls origin (.step (.openRegion kind owner)) parser fun _ later =>
      Draft origin base later moved (yield.opening kind.bracket) :=
  ⟨h.made.change (.openRegion owner hkind), h.reverts⟩

theorem openLoop {hole : Hole} {owner : Option SymbolId} (h : Draft origin base parser moved yield)
    (hholes : yield.holes = [hole]) (howner : hole.labels = owner.toList) :
    Leads calls origin (.step (.openRegion .loop owner)) parser fun _ later =>
      Draft origin base later moved (yield.opening (.loop hole.node)) :=
  ⟨h.made.change (.openLoop hholes howner), h.reverts⟩

theorem closeRegion (h : Draft origin base parser moved yield)
    (hopened : yield.opened ≠ []) :
    Leads calls origin (.step .closeRegion) parser fun _ later =>
      Draft origin base later moved yield.closing := by
  have hchange := h.made.change (.closeRegion hopened)
  refine ⟨?_⟩
  change Outcome _ _ (parser.perform .closeRegion)
  simp only [Parser.perform, SymbolTable.change] at hchange ⊢
  cases hclose : parser.symbols.closeRegion <;> rw [hclose] at hchange <;> exact ⟨hchange, h.reverts⟩

theorem closeOwned (h : Draft origin base parser moved yield) (hopened : yield.opened ≠ [])
    (hfiles : yield.files = false) :
    Leads calls origin (.step .closeRegion) parser fun members later =>
      Draft origin base later moved yield.closing ∧ ∀ id ∈ members.all, base.symbols.symbols.size ≤ id.index := by
  have hclosed : Leads calls origin (.step .closeRegion) parser fun _ later =>
      Draft origin base later moved yield.closing := h.closeRegion hopened
  obtain ⟨nodes, hcourse⟩ := h.made.course
  obtain ⟨count, hcount⟩ := Nat.exists_eq_succ_of_ne_zero (mt List.length_eq_zero_iff.mp hopened)
  have howned := (hcount ▸ (hcourse.owns h.made.proper hfiles).bound).closeRegion.2
  refine ⟨?_⟩
  have houtcome := hclosed.outcome
  change Outcome _ _ (parser.perform .closeRegion) at houtcome ⊢
  simp only [Parser.perform] at houtcome ⊢
  cases hclose : parser.symbols.closeRegion with
  | none =>
    rw [hclose] at houtcome
    exact ⟨houtcome, nofun⟩
  | some closed =>
    rw [hclose] at houtcome
    refine ⟨houtcome, fun id hid => howned id ?_⟩
    rwa [SymbolTable.closeRegion_members hclose] at hid

theorem markPrivate (h : Draft origin base parser moved yield) (hopened : yield.opened ≠ []) :
    Leads calls origin (.step .markPrivate) parser fun _ later => Draft origin base later moved yield :=
  ⟨h.made.change (.markPrivate hopened), h.reverts⟩

theorem publish (h : Draft origin base parser moved yield) {owner : SymbolId}
    (howner : base.symbols.symbols.size ≤ owner.index) (members : Members) :
    Leads calls origin (.step (.publish owner members)) parser fun _ later =>
      Draft origin base later moved yield :=
  ⟨h.made.change (.publish members howner), h.reverts⟩

theorem publishAlias (h : Draft origin base parser moved yield) {synonym : SymbolId}
    (hsynonym : base.symbols.symbols.size ≤ synonym.index) (target : SymbolId) :
    Leads calls origin (.step (.publishAlias synonym target)) parser fun _ later =>
      Draft origin base later moved yield :=
  ⟨h.made.change (.publishAlias target hsynonym), h.reverts⟩

theorem spans {node : NodeId} {place : Nat} {labels : List SymbolId} {range : Option NodeId}
    (h : Draft origin base parser moved yield) (hhole : ⟨node, base.position, labels, range⟩ ∈ yield.holes)
    (hplace : place ∈ yield.places) : parser.Spans node place :=
  (h.made.awaits hhole).spans (h.made.place_mem hplace).1 (h.made.place_mem hplace).2

theorem declare {name : DefiningName Nat} {kind : SymbolKind} {node : NodeId}
    (h : Draft origin base parser moved yield) (hspans : parser.Spans node name.place)
    (shape : Option TypeShape) (hkind : kind.isHeld = false) :
    Leads calls origin (.step (.declare name kind node shape)) parser fun id later =>
      Draft origin base later moved yield.loud ∧
        base.symbols.symbols.size ≤ id.index ∧
        ∀ node place, parser.Spans node place → later.Spans node place :=
  ⟨⟨h.made.declare (.declare hkind rfl rfl hspans) rfl, h.reverts⟩, h.made.symbols_le,
    fun _ _ hspans => Parser.Spans.reportDeclared hspans _ _⟩

theorem bind {id : SymbolId} (h : Draft origin base parser moved yield)
    (hid : base.symbols.symbols.size ≤ id.index) :
    Leads calls origin (.step (.bind id)) parser fun _ later => Draft origin base later moved yield.loud :=
  ⟨h.made.bind hid, h.reverts⟩

theorem file (h : Draft origin base parser moved yield) (id : SymbolId) :
    Leads calls origin (.step (.bind id)) parser fun _ later =>
      Draft origin base later moved yield.filing ∧
        ∀ node place, parser.Spans node place → later.Spans node place :=
  ⟨⟨h.made.file id, h.reverts⟩, fun _ _ hspans => Parser.Spans.reportDeclared hspans _ _⟩

theorem declareLabel {name : DefiningName Nat} {hole : Hole} (h : Draft origin base parser moved yield)
    (hholes : yield.holes = [hole]) (hspans : parser.Spans hole.node name.place)
    (hopened : yield.opened = []) :
    Leads calls origin (.step (.declare name .label hole.node none)) parser fun id later =>
      Draft origin base later moved (yield.labeling hole id) :=
  ⟨h.made.declare (.label hholes hopened rfl rfl rfl hspans) rfl, h.reverts⟩

theorem declareParameter {name : DefiningName Nat} {hole : Hole} {range : NodeId}
    (h : Draft origin base parser moved yield) (hholes : yield.holes = [hole]) (hfirst : hole.range = none)
    (hpieces : yield.pieces = [⟨range, .expression⟩]) (hspans : parser.Spans hole.node name.place) :
    Leads calls origin (.step (.declare name .loopParameter hole.node none)) parser fun _ later =>
      Draft origin base later moved (yield.ranging hole range) :=
  ⟨h.made.declare (.parameter hholes hfirst hpieces rfl rfl rfl hspans) rfl, h.reverts⟩

theorem make {payload : Payload Nat} (h : Draft origin base parser true yield) (role : Role)
    (hfits : payload.Fits yield ⟨parser.tree.size⟩ role) (hexit : payload.isExit = false)
    (hresolved : payload.Resolved parser.symbols) :
    Draft origin base (parser.added base.position payload) true (yield.fold ⟨parser.tree.size⟩ role) := by
  obtain ⟨nodes, hcourse⟩ := h.made.course
  exact ⟨⟨h.made.proper, ⟨_, hcourse.add hfits hexit hresolved (.inl rfl) h.made.reaches⟩, h.made.reaches⟩,
    h.reverts⟩

theorem addName {use : NameUse} (h : Draft origin base parser true yield) (role : Role)
    (hfits : (Payload.name use).Fits yield ⟨parser.tree.size⟩ role)
    (hresolved : (Payload.name use).Resolved parser.symbols) :
    Leads calls origin (.step (.add base.position (.name use))) parser fun node later =>
      Draft origin base later true (yield.fold node role) :=
  ⟨h.make role hfits rfl hresolved⟩

theorem add {payload : Payload Nat} (h : Draft origin base parser true yield) (role : Role)
    (hpieces : yield.pieces = payload.pieces ⟨parser.tree.size⟩ role) (hplain : payload.isPlain role = true) :
    Leads calls origin (.step (.add base.position payload)) parser fun node later =>
      Draft origin base later true (yield.fold node role) :=
  ⟨h.make role (Payload.fits_of_isPlain hpieces hplain) (Payload.isExit_of_isPlain hplain)
    (Payload.resolved_of_isPlain hplain _)⟩

theorem exit {target condition : Option NodeId} (h : Draft origin base parser true yield)
    (hfits : (Payload.stmt (.exit target condition)).Fits yield ⟨parser.tree.size⟩ (.statement []))
    (hopened : yield.opened = []) (hsilent : yield.silent = true) :
    Draft origin base
      ((parser.added base.position (.stmt (.exit target condition))).checkExit ⟨parser.tree.size⟩ target) true
      (yield.fold ⟨parser.tree.size⟩ (.statement [])) := by
  obtain ⟨nodes, hcourse⟩ := h.made.course
  have hcursor := (parser.added base.position (.stmt (.exit target condition))).checkExit_reports
    ⟨parser.tree.size⟩ target
  have hposition : (Parser.checkExit _ _ _).position = parser.position := congrArg Cursor.position hcursor.cursor_eq
  exact ⟨⟨h.made.proper, ⟨_, hcourse.exit hfits hopened hsilent h.made.reaches⟩, hposition ▸ h.made.reaches⟩,
    h.reverts⟩

theorem define {payload : Payload Nat} (h : Draft origin base parser true yield) (role : Role)
    (hpieces : yield.pieces = payload.pieces ⟨parser.tree.size⟩ role) (hplain : payload.isPlain role = true) :
    Leads calls origin (.step (.add base.position payload)) parser fun node later =>
      Draft origin base later true (yield.clearing.fold node role) ∧
        ∀ place ∈ yield.places, later.Spans node place :=
  ⟨(h.make role (Payload.fits_of_isPlain hpieces hplain) (Payload.isExit_of_isPlain hplain)
      (Payload.resolved_of_isPlain hplain _)).weaken (.clear _),
    fun _ hplace => h.made.spans hplace rfl (parser.tree.get?_add_self _ _)⟩

end Draft

structure DraftNext (origin base parser : Parser) (yield : Yield) : Prop where
  made : Parser.MadeNext base parser yield
  reverts : base.RevertsTo origin

namespace DraftNext

variable {origin base parser : Parser} {yield : Yield}

theorem expect (h : DraftNext origin base parser yield) (kind : TokenKind) :
    Leads calls origin (.step (.expect kind)) parser fun _ later =>
      Draft origin base later true yield :=
  ⟨Parser.withPosition_outcome <| Parser.expect_outcome (h.made.reverts.trans h.reverts) kind
    fun _ _ hadvance => ⟨h.made.next _ _ hadvance, h.reverts⟩⟩

end DraftNext

namespace Draft

variable {origin base parser : Parser} {moved : Bool} {yield : Yield}

theorem next (h : Draft origin base parser moved yield) : DraftNext origin base parser yield :=
  ⟨.of_made h.made, h.reverts⟩

theorem addNext {payload : Payload Nat} (h : Draft origin base parser moved yield) (role : Role)
    (hpieces : yield.pieces = payload.pieces ⟨parser.tree.size⟩ role) (hplain : payload.isPlain role = true) :
    Leads calls origin (.step (.add base.position payload)) parser fun node later =>
      DraftNext origin base later (yield.fold node role) := by
  obtain ⟨nodes, hcourse⟩ := h.made.course
  have hreverts := h.made.reverts
  refine ⟨⟨{ hreverts with nodes := hreverts.nodes.trans ?_ }, fun token cursor hadvance => ?_⟩, h.reverts⟩
  · simp
  · have hnext : parser.cursor.advance = .ok (token, cursor) := hadvance
    have hposition : cursor.position = parser.position + 1 := (Cursor.advance_eq hnext).2
    have hmoved : base.position < cursor.position :=
      Nat.lt_of_le_of_lt h.made.reaches.le (hposition ▸ Nat.lt_succ_self _)
    have hadded := hcourse.add (Payload.fits_of_isPlain hpieces hplain) (Payload.isExit_of_isPlain hplain)
      (Payload.resolved_of_isPlain hplain _) (.inr ⟨token, hnext⟩) hmoved
    exact ⟨h.made.proper, ⟨_, hadded⟩, hmoved⟩

theorem reserve (h : Draft origin base parser moved yield) :
    Leads calls origin (.step (.reserve base.position)) parser fun node later =>
      Draft origin base later moved (yield.reserving node base.position) := by
  obtain ⟨nodes, hcourse⟩ := h.made.course
  exact ⟨⟨h.made.proper, ⟨nodes, hcourse.reserve⟩, h.made.reaches⟩, h.reverts⟩

theorem fill {node : NodeId} {labels : List SymbolId} {range : Option NodeId} {payload : Payload Nat}
    (h : Draft origin base parser true yield) (role : Role)
    (hholes : yield.holes = [⟨node, base.position, labels, range⟩])
    (hpieces : yield.pieces = payload.pieces node role) (hplain : payload.isPlain role = true)
    (hcompletes : payload.Completes range) :
    Leads calls origin (.step (.fill node base.position payload)) parser fun _ later =>
      Draft origin base later true (yield.clearing.filling.fold node role) ∧
        ∀ place ∈ yield.places, later.Spans node place := by
  obtain ⟨nodes, hcourse⟩ := h.made.course
  have hfits := Payload.fits_of_isPlain hpieces hplain
  have hawaits := h.made.awaits (hholes ▸ List.mem_singleton_self _)
  have hfilled : (payload.map parser.place).isPlaceholder = false := by
    rw [Payload.isPlaceholder_map]
    exact Role.admits_filled hfits.admits
  refine ⟨?_⟩
  change Outcome _ _ (parser.perform (.fill node base.position payload))
  simp only [Parser.perform, Parser.fillNode, Tree.fill_eq hawaits.2 hfilled]
  have hlt : node.index < parser.tree.size := (Array.getElem?_eq_some_iff.mp hawaits.2).1
  exact ⟨⟨⟨h.made.proper, ⟨_, (hcourse.fill hholes rfl hfits hcompletes h.made.reaches).weaken (.clear _)⟩,
    h.made.reaches⟩, h.reverts⟩, fun _ hplace => h.made.spans hplace rfl (Tree.get?_replace_self _ hlt)⟩

end Draft

end Program

end AdaSyntax
