import AdaSyntax.Proofs.Discipline.Intact

namespace AdaSyntax

variable {α : Type}

@[simp] theorem Stage.holes_after (stage : Stage) (consumes : Bool) : (stage.after consumes).holes = stage.holes := by
  cases consumes <;> rfl

theorem Payload.Admissible.closed {payload : Payload Nat} {nodes symbols : Nat}
    (h : payload.Admissible (.upTo nodes symbols)) : payload.Closed nodes symbols :=
  ⟨h.children, h.symbol⟩

namespace Parser

variable {origin parser : Parser} {stage : Stage}

theorem Intact.affords (h : Intact origin stage.holes parser) {op : Op α}
    (hasks : op.Asks (.upTo parser.tree.size parser.symbols.symbols.size) stage) : parser.Affords op := by
  cases op with
  | add start payload =>
    refine ⟨hasks.closed.children, fun id hid => ?_, nofun⟩
    exact hasks.closed.symbol id (Option.mem_toList.mp hid)
  | fill id start payload =>
    obtain ⟨hhead, hadmissible⟩ := hasks
    have hmem : id ∈ stage.holes := List.mem_of_head? hhead
    refine ⟨List.forall_mem_cons.mpr ⟨h.reserved.lt_size hmem, hadmissible.closed.children⟩, fun symbol hsymbol => ?_,
      fun hole hhole => ?_⟩
    · exact hadmissible.closed.symbol symbol (Option.mem_toList.mp hsymbol)
    · obtain rfl : id = hole := Option.some.inj hhole
      exact ((h.reserved.mem_iff id).mp hmem).2
  | inspect id => exact ⟨List.forall_mem_singleton.mpr hasks, nofun, nofun⟩
  | declare name kind node shape => exact ⟨List.forall_mem_singleton.mpr hasks, nofun, nofun⟩
  | find finding => exact ⟨hasks, nofun, nofun⟩
  | resolveMember owner name | kindOf owner | shapeOf owner | declaredHere owner | bind owner
  | addImport owner kind => exact ⟨nofun, List.forall_mem_singleton.mpr hasks, nofun⟩
  | enclosingLoop label | openRegion kind label =>
    exact ⟨nofun, fun id hid => hasks id (Option.mem_toList.mp hid), nofun⟩
  | publish owner members => exact ⟨nofun, List.forall_mem_cons.mpr hasks, nofun⟩
  | publishAlias synonym target =>
    exact ⟨nofun, List.forall_mem_cons.mpr ⟨hasks.1, List.forall_mem_singleton.mpr hasks.2⟩, nofun⟩
  | _ => exact ⟨nofun, nofun, nofun⟩

section

variable {holes : List NodeId}

theorem Intact.take_upholds (h : Intact origin holes parser) :
    Upholds origin (fun _ later => Intact origin holes later) parser.take := by
  unfold take
  cases hadvance : parser.cursor.advance with
  | ok next => exact .matched (h.advance hadvance)
  | error error =>
    refine .abort h.reverts ?_
    unfold Cursor.advance at hadvance
    split at hadvance
    · obtain rfl := Except.error.inj hadvance
      rfl
    · cases hadvance

theorem Intact.expectChoice_upholds (h : Intact origin holes parser) (kind : TokenKind) :
    Upholds origin (fun _ later => Intact origin holes later) (parser.expectChoice kind) := by
  unfold expectChoice
  split
  · exact h.take_upholds
  · exact .mismatch ((parser.recordMismatch_revertsTo _).trans h.reverts)

theorem Intact.expect_upholds (h : Intact origin holes parser) (kind : TokenKind) :
    Upholds origin (fun _ later => Intact origin holes later) (parser.expect kind) := by
  unfold expect
  split
  · exact h.take_upholds
  · split
    · exact .abort h.reverts rfl
    · exact .mismatch ((parser.recordMismatch_revertsTo _).trans h.reverts)

theorem Upholds.withPosition {position : Nat} {finished : Parser → Prop} {result : Reply Token × Parser}
    (h : Upholds origin (fun _ later => finished later) result) :
    Upholds origin (fun _ later => finished later) (withPosition position result) := by
  obtain ⟨reply, later⟩ := result
  cases reply with
  | matched token => exact .matched h.outcome
  | mismatch => exact .mismatch h.outcome
  | fatal error => exact .abort h.outcome (h.fatal error rfl)
  | exhausted => exact .exhausted h.outcome

theorem Intact.add (h : Intact origin holes parser) (range : Range) {payload : Payload Range}
    (hclosed : payload.Closed parser.tree.size parser.symbols.symbols.size) (hfilled : payload.isPlaceholder = false) :
    Intact origin holes { parser with tree := (parser.tree.add range payload).2 } where
  reverts := by
    have hgrown : ({ parser with tree := (parser.tree.add range payload).2 } : Parser).RevertsTo parser :=
      ⟨rfl, List.prefix_rfl, .refl _, by simp [Tree.add], rfl, rfl, rfl⟩
    exact hgrown.trans h.reverts
  proper := h.proper
  closed := h.closed.add hclosed
  reserved := h.reserved.add range hfilled

theorem Intact.reserve (h : Intact origin holes parser) (range : Range) :
    Intact origin (⟨parser.tree.size⟩ :: holes) { parser with tree := (parser.tree.reserve range).2 } where
  reverts := by
    have hgrown : ({ parser with tree := (parser.tree.reserve range).2 } : Parser).RevertsTo parser :=
      ⟨rfl, List.prefix_rfl, .refl _, by simp [Tree.reserve, Tree.add], rfl, rfl, rfl⟩
    exact hgrown.trans h.reverts
  proper := h.proper
  closed := h.closed.add ⟨nofun, nofun⟩
  reserved := h.reserved.reserve h.size_le range

theorem Intact.table (h : Intact origin holes parser) (change : TableChange) (hdeclares : change.declares = false)
    (hsymbols : ∀ id ∈ change.symbols, parser.symbols.Has id) :
    Intact origin holes { parser with symbols := parser.symbols.change change } :=
  h.of_change change (h.closed.change hdeclares hsymbols)

theorem Intact.declare (h : Intact origin holes parser) (declaration : Declaration)
    (hnode : ∀ id ∈ declaration.node, id.index < parser.tree.size) :
    Intact origin holes (parser.declare declaration).2 :=
  (h.of_change (.declare declaration) (h.closed.declare hnode)).reportDeclared _ _

theorem knows_declare (parser : Parser) (declaration : Declaration) :
    (parser.declare declaration).2.Knows fun know => know.symbol (parser.declare declaration).1 := by
  intro nodes symbols _ hsymbols
  have hlater : (parser.declare declaration).2.symbols = (parser.symbols.declare declaration).2.2 :=
    reportDeclared_symbols _ _ _
  rw [hlater] at hsymbols
  exact Nat.lt_of_lt_of_le (parser.symbols.has_declare declaration) hsymbols

theorem Intact.fillNode {id : NodeId} (h : Intact origin (id :: holes) parser) (start : Nat) {payload : Payload Range}
    (hclosed : payload.Closed parser.tree.size parser.symbols.symbols.size) (hfilled : payload.isPlaceholder = false) :
    ∃ later, parser.fillNode id start payload = (.matched (), later) ∧ Intact origin holes later ∧
      later.tree.size = parser.tree.size ∧ later.symbols = parser.symbols := by
  have hlt := h.reserved.lt_size List.mem_cons_self
  obtain ⟨hbase, ⟨range, reserved⟩, hget, hreserved⟩ := (h.reserved.mem_iff id).mp List.mem_cons_self
  obtain rfl : reserved = .placeholder := by
    cases reserved <;> first | rfl | cases hreserved
  refine ⟨{ parser with tree := parser.tree.replace id ⟨parser.rangeFrom start, payload⟩ }, ?_, ?_, ?_, rfl⟩
  · simp only [Parser.fillNode, Tree.fill_eq hget hfilled]
  · have hreverts := h.reverts
    exact ⟨⟨hreverts.tokens, hreverts.log, hreverts.symbols, Tree.prefix_replace _ hreverts.nodes hbase,
      hreverts.options, hreverts.depth, hreverts.contexts⟩, h.proper, h.closed.replace hclosed hlt,
      h.reserved.replace hfilled⟩
  · exact Tree.size_replace _ _ _

end

theorem Knows.resolution {resolution : Resolution} {name : Name} (h : parser.symbols.Denotes name resolution) :
    parser.Knows fun know => ∀ id ∈ resolution.symbol, know.symbol id :=
  fun _ _ _ hsymbols id hid => Nat.lt_of_lt_of_le (h.has id hid) hsymbols

theorem Closed.knows_payload (h : parser.Closed) (id : NodeId) : parser.Knows fun know =>
    (∀ child ∈ (parser.tree.payload id).children, know.made child) ∧
      ∀ symbol ∈ (parser.tree.payload id).classify.1, know.symbol symbol := by
  intro nodes symbols hnodes hsymbols
  cases hget : parser.tree.get? id with
  | none => simp [Tree.payload, hget, Payload.children, Payload.classify]
  | some node =>
    rw [Tree.payload_of_get? hget]
    have hclosed := (h.nodes id node hget).mono hnodes hsymbols
    exact ⟨hclosed.children, hclosed.symbol⟩

theorem Closed.knows_libraryUnit (h : parser.Closed) (name : Name) : parser.Knows fun know =>
    ∀ id ∈ (parser.symbols.library.bindings.get name).head?, know.symbol id := by
  intro nodes symbols _ hsymbols id hid
  have hlibrary : parser.symbols.library ∈ parser.symbols.regions := by
    unfold SymbolTable.library SymbolTable.regions
    rw [List.getLastD_eq_getLast?]
    cases hlast : parser.symbols.enclosing.getLast? with
    | none => simp
    | some region => exact List.mem_cons_of_mem _ (List.mem_of_getLast? hlast)
  have hnames := (h.symbols.filed.regions _ hlibrary).bindings.get (List.mem_of_head? hid)
  exact Nat.lt_of_lt_of_le hnames.has hsymbols

theorem Closed.knows_members (h : parser.Closed) : parser.Knows fun know =>
    ∀ id ∈ parser.symbols.innermost.members.all, know.symbol id :=
  fun _ _ _ hsymbols id hid => Nat.lt_of_lt_of_le (h.symbols.members List.mem_cons_self id hid) hsymbols

theorem Intact.closeRegion_upholds (h : Intact origin stage.holes parser) :
    Upholds origin (fun members later => later.Knows (Op.closeRegion.Tells · members) ∧
      Intact origin (Op.closeRegion.next stage members).holes later) (parser.perform .closeRegion) := by
  have hlater := h.table .closeRegion rfl nofun
  have hmembers := h.closed.knows_members
  simp only [Parser.perform, SymbolTable.change] at hlater ⊢
  cases henclosing : parser.symbols.enclosing with
  | nil =>
    simp only [SymbolTable.closeRegion, henclosing] at hlater ⊢
    exact .matched ⟨fun _ _ _ _ => by simp [Op.Tells, Members.all], hlater⟩
  | cons region rest =>
    simp only [SymbolTable.closeRegion, henclosing] at hlater ⊢
    exact .matched ⟨hmembers.mono (Nat.le_refl _) (Nat.le_refl _), hlater⟩

theorem Intact.query (h : Intact origin stage.holes parser) {op : Op α} {value : α}
    (hrun : parser.perform op = (.matched value, parser)) (hnext : (op.next stage value).holes = stage.holes)
    (htells : parser.Knows (op.Tells · value)) :
    Upholds origin (fun value later => later.Knows (op.Tells · value) ∧
      Intact origin (op.next stage value).holes later) (parser.perform op) := by
  rw [hrun]
  exact .matched ⟨htells, hnext ▸ h⟩

theorem Intact.perform (h : Intact origin stage.holes parser) {op : Op α}
    (hasks : op.Asks (.upTo parser.tree.size parser.symbols.symbols.size) stage) :
    Upholds origin (fun value later => later.Knows (op.Tells · value) ∧
      Intact origin (op.next stage value).holes later) (parser.perform op) := by
  have haffords := h.affords hasks
  cases op with
  | take => exact h.take_upholds.withPosition.mono fun _ later hlater => ⟨fun _ _ _ _ => trivial, hlater⟩
  | expect kind =>
    exact (h.expect_upholds kind).withPosition.mono fun _ later hlater => ⟨fun _ _ _ _ => trivial, hlater⟩
  | expectChoice kind =>
    exact (h.expectChoice_upholds kind).withPosition.mono fun _ later hlater => ⟨fun _ _ _ _ => trivial, hlater⟩
  | add start payload =>
    have hfilled : (payload.map parser.place).isPlaceholder = false :=
      (payload.isPlaceholder_map _).trans hasks.filled
    have hlater := h.add (parser.rangeFrom (parser.place start).start) (hasks.closed.map parser.place) hfilled
    refine .matched ⟨fun nodes symbols hnodes _ => ?_, hlater⟩
    have hid : parser.tree.size < nodes := Nat.lt_of_lt_of_le (by simp [Tree.size]) hnodes
    exact ⟨hid, fun _ _ => hid⟩
  | reserve start =>
    exact .matched ⟨fun nodes symbols hnodes _ => Nat.lt_of_lt_of_le (by simp [Tree.size]) hnodes, h.reserve _⟩
  | fill id start payload =>
    obtain ⟨hhead, hadmissible⟩ := hasks
    obtain ⟨rest, hholes⟩ := List.head?_eq_some_iff.mp hhead
    have hfilled : (payload.map parser.place).isPlaceholder = false :=
      (payload.isPlaceholder_map _).trans hadmissible.filled
    rw [hholes] at h
    obtain ⟨later, hrun, hlater, hsize, -⟩ :=
      h.fillNode (parser.place start).start (hadmissible.closed.map parser.place) hfilled
    have hid := h.reserved.lt_size List.mem_cons_self
    change Upholds _ _ (parser.fillNode _ _ _)
    rw [hrun]
    refine .matched ⟨fun nodes symbols hnodes _ => ?_, ?_⟩
    · have hid' := Nat.lt_of_lt_of_le hid (hsize ▸ hnodes)
      exact ⟨hid', fun _ _ => hid'⟩
    · change Intact origin stage.holes.tail later
      rw [hholes]
      exact hlater
  | inspect id =>
    refine h.query rfl rfl ((h.closed.knows_payload id).imp fun nodes symbols hknows => ?_)
    rw [Op.Tells, Payload.children_map, Payload.classify_map]
    exact hknows
  | resolve name => exact h.query rfl rfl (.resolution (h.closed.symbols.filed.denotes_resolve name))
  | resolveMember owner name =>
    exact h.query rfl rfl (.resolution (h.closed.symbols.filed.denotes_resolveMember owner name))
  | libraryUnit name => exact h.query rfl rfl (h.closed.knows_libraryUnit name)
  | declare name kind node shape =>
    have hlater := h.declare { name := name.name, kind, node := some node, range := parser.place name.place, shape }
      fun id hid => Option.mem_some.mp hid ▸ hasks
    exact .matched ⟨knows_declare _ _, hlater⟩
  | bind id =>
    exact .matched ⟨fun _ _ _ _ => trivial, (h.table (.bind id) rfl haffords.symbols).reportDeclared _ _⟩
  | openRegion kind owner =>
    exact .matched ⟨fun _ _ _ _ => trivial, h.table (.openRegion kind owner) rfl haffords.symbols⟩
  | closeRegion => exact h.closeRegion_upholds
  | markPrivate => exact .matched ⟨fun _ _ _ _ => trivial, h.table .markPrivate rfl haffords.symbols⟩
  | addImport package kind =>
    exact .matched ⟨fun _ _ _ _ => trivial, h.table (.addImport package kind) rfl haffords.symbols⟩
  | publish owner members =>
    exact .matched ⟨fun _ _ _ _ => trivial, h.table (.publish owner members) rfl haffords.symbols⟩
  | publishAlias synonym target =>
    exact .matched ⟨fun _ _ _ _ => trivial, h.table (.publishAlias synonym target) rfl haffords.symbols⟩
  | find finding => exact .matched ⟨fun _ _ _ _ => trivial, h.reports (parser.find_reports finding)⟩
  | _ => exact h.query rfl rfl fun _ _ _ _ => trivial

theorem Knows.perform {claim : Knowledge → Prop} (h : parser.Knows claim) (hproper : parser.symbols.Proper) (op : Op α) :
    (parser.perform op).2.Knows claim := by
  refine h.mono (parser.perform_allows op).continues.tree.size_le ?_
  rcases parser.perform_symbols op with heq | ⟨change, heq⟩
  · exact Nat.le_of_eq (congrArg (·.symbols.size) heq.symm)
  · rw [heq]
    simpa using (SymbolTable.change_revertsTo hproper change).symbols.length_le

theorem Intact.dropItem {holes : List NodeId} (h : Intact origin holes parser) (context : Context) (code : Code)
    (first : Nat) (outer : Option Mismatch) : Intact origin holes (parser.dropItem context code first outer) := by
  obtain ⟨diagnostic, cursor, furthest, heq, hmoves, -⟩ := parser.dropItem_eq context code first outer
  rw [heq]
  refine h.of_same ⟨hmoves.tokens, ?_, .refl _, List.prefix_rfl, rfl, rfl, rfl⟩ rfl rfl
  simp [Parser.report, DiagnosticLog.report]

end Parser

end AdaSyntax
