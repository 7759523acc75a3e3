import AdaSyntax.Proofs.Parser.Reachable

/-!
Attempts of anything at all. A body may do whatever can be done to a parser, and go back to any checkpoint
taken inside of it. Of what lies before such a body only reserved nodes can change, by being filled, and
an attempt that fails does not empty them again: it takes back all else, but leaves them filled.
-/

namespace AdaSyntax

namespace Tree

/-- No node was lost, and only reserved ones were changed, by filling them. -/
structure Fills (later earlier : Tree) : Prop where
  size_le : earlier.size ≤ later.size
  get? : ∀ id node, earlier.get? id = some node →
    later.get? id = some node ∨ node.payload.isPlaceholder = true ∧ (later.payload id).isPlaceholder = false

/-- The node is reserved, and not filled yet. -/
structure IsReserved (tree : Tree) (id : NodeId) : Prop where
  lt : id.index < tree.size
  isPlaceholder : (tree.payload id).isPlaceholder = true

theorem lt_of_get? {tree : Tree} {id : NodeId} {node : Node} (h : tree.get? id = some node) :
    id.index < tree.size :=
  (Array.getElem?_eq_some_iff.mp h).1

theorem exists_get? {tree : Tree} {id : NodeId} (h : id.index < tree.size) : ∃ node, tree.get? id = some node :=
  ⟨_, Array.getElem?_eq_getElem h⟩

theorem ext_get? {first second : Tree} (h : ∀ id, first.get? id = second.get? id) : first = second :=
  congrArg Tree.mk (Array.ext_getElem? fun index => h ⟨index⟩)

theorem size_truncate (tree : Tree) (size : Nat) : (tree.truncate size).size = min size tree.size := by
  simp [truncate, Tree.size]

theorem truncate_isPrefix (tree : Tree) (size : Nat) :
    (tree.truncate size).nodes.toList <+: tree.nodes.toList := by
  simpa [truncate] using List.take_prefix _ _

theorem get?_truncate {tree : Tree} {size : Nat} {id : NodeId} (hsize : id.index < size)
    (htree : id.index < tree.size) : (tree.truncate size).get? id = tree.get? id :=
  (get?_of_isPrefix (tree.truncate_isPrefix size) (by rw [size_truncate]; omega)).symm

namespace Fills

variable {first second third : Tree}

theorem refl (tree : Tree) : tree.Fills tree := ⟨Nat.le_refl _, fun _ _ h => .inl h⟩

theorem trans (h : third.Fills second) (h' : second.Fills first) : third.Fills first where
  size_le := Nat.le_trans h'.size_le h.size_le
  get? id node hnode := by
    rcases h'.get? id node hnode with hsame | ⟨hreserved, hfilled⟩
    · exact h.get? id node hsame
    · refine .inr ⟨hreserved, ?_⟩
      obtain ⟨found, hfound⟩ := exists_get? (Nat.lt_of_lt_of_le (lt_of_get? hnode) h'.size_le)
      rw [payload_of_get? hfound] at hfilled
      rcases h.get? id found hfound with hkept | ⟨hempty, -⟩
      · rwa [payload_of_get? hkept]
      · rw [hfilled] at hempty
        cases hempty

theorem of_isPrefix (h : first.nodes.toList <+: second.nodes.toList) : second.Fills first where
  size_le := size_le_of_isPrefix h
  get? _ _ hnode := .inl <| (get?_of_isPrefix h (lt_of_get? hnode)).trans hnode

theorem fill {id : NodeId} {range : Range} {payload : Payload Range}
    (h : first.fill id range payload = .ok second) : second.Fills first := by
  unfold Tree.fill at h
  cases hnode : first.get? id with
  | none => simp [hnode] at h
  | some reserved =>
    rw [hnode] at h
    dsimp only at h
    split at h
    · rename_i hfill
      obtain ⟨hreserved, hfilled⟩ : reserved.payload.isPlaceholder = true ∧ payload.isPlaceholder = false := by
        simpa using hfill
      obtain rfl : first.replace id ⟨range, payload⟩ = second := Except.ok.inj h
      refine ⟨Nat.le_of_eq (size_replace ..).symm, fun other node hother => ?_⟩
      by_cases hid : other = id
      · subst hid
        obtain rfl := Option.some.inj (hnode.symm.trans hother)
        rw [payload_of_get? (get?_replace_self ⟨range, payload⟩ (lt_of_get? hnode))]
        exact .inr ⟨hreserved, hfilled⟩
      · exact .inl ((get?_replace_of_ne _ hid).trans hother)
    · cases h

theorem truncate {size : Nat} (h : second.Fills first) (hsize : first.size ≤ size) :
    (second.truncate size).Fills first where
  size_le := by
    rw [size_truncate]
    exact Nat.le_min.mpr ⟨hsize, h.size_le⟩
  get? id node hnode := by
    have hlt := lt_of_get? hnode
    have hget := get?_truncate (Nat.lt_of_lt_of_le hlt hsize) (Nat.lt_of_lt_of_le hlt h.size_le)
    rw [hget, payload_congr hget]
    exact h.get? id node hnode

theorem truncate_eq_iff (h : second.Fills first) :
    second.truncate first.size = first ↔ ∀ id, first.IsReserved id → second.IsReserved id := by
  have hsize := h.size_le
  constructor
  · rintro heq id ⟨hlt, hreserved⟩
    have hlt' := Nat.lt_of_lt_of_le hlt hsize
    have hget := get?_truncate hlt hlt'
    rw [heq] at hget
    exact ⟨hlt', payload_congr hget ▸ hreserved⟩
  · intro hkept
    refine ext_get? fun id => ?_
    by_cases hlt : id.index < first.size
    · obtain ⟨node, hnode⟩ := exists_get? hlt
      rw [get?_truncate hlt (Nat.lt_of_lt_of_le hlt hsize), hnode]
      rcases h.get? id node hnode with hsame | ⟨hreserved, hfilled⟩
      · exact hsame
      · have hempty := (hkept id ⟨hlt, payload_of_get? hnode ▸ hreserved⟩).isPlaceholder
        rw [hfilled] at hempty
        cases hempty
    · have hnone : ∀ tree : Tree, tree.size = first.size → tree.get? id = none := fun tree htree =>
        Array.getElem?_eq_none (Nat.le_trans (Nat.le_of_eq htree) (Nat.le_of_not_lt hlt))
      have hcut : (second.truncate first.size).size = first.size := by
        rw [size_truncate]
        exact Nat.min_eq_left hsize
      rw [hnone _ hcut, hnone _ rfl]

end Fills

end Tree

namespace Parser

structure Covers (later base : Parser) : Prop where
  tokens : later.cursor.tokens = base.cursor.tokens
  log : base.log.records.toList <+: later.log.records.toList
  symbols : later.symbols.RevertsTo base.symbols
  tree : later.tree.Fills base.tree

namespace Covers

variable {first second third : Parser}

theorem refl (parser : Parser) : parser.Covers parser :=
  ⟨rfl, List.prefix_rfl, .refl _, .refl _⟩

theorem trans (h : third.Covers second) (h' : second.Covers first) : third.Covers first where
  tokens := h.tokens.trans h'.tokens
  log := h'.log.trans h.log
  symbols := h.symbols.trans h'.symbols
  tree := h.tree.trans h'.tree

end Covers

theorem report_covers (parser : Parser) (diagnostic : Diagnostic) : (parser.report diagnostic).Covers parser :=
  ⟨rfl, by simp [report, DiagnosticLog.report], .refl _, .refl _⟩

theorem recordMismatch_covers (parser : Parser) (expected : String) :
    (parser.recordMismatch expected).Covers parser := by
  obtain ⟨furthest, heq⟩ := parser.recordMismatch_eq expected
  rw [heq]
  exact ⟨rfl, List.prefix_rfl, .refl _, .refl _⟩

theorem take_covers (parser : Parser) : parser.take.2.Covers parser := by
  unfold take
  cases hadvance : parser.cursor.advance with
  | error error => exact .refl _
  | ok next => exact ⟨(Cursor.advance_eq hadvance).1, List.prefix_rfl, .refl _, .refl _⟩

theorem addNode_covers (parser : Parser) (start : Nat) (payload : Payload Range) :
    (parser.addNode start payload).2.Covers parser :=
  ⟨rfl, List.prefix_rfl, .refl _, .of_isPrefix (by simp [addNode, Tree.add])⟩

theorem reserveNode_covers (parser : Parser) (start : Nat) : (parser.reserveNode start).2.Covers parser :=
  ⟨rfl, List.prefix_rfl, .refl _, .of_isPrefix (by simp [reserveNode, Tree.reserve, Tree.add])⟩

theorem fillNode_covers (parser : Parser) (id : NodeId) (start : Nat) (payload : Payload Range) :
    (parser.fillNode id start payload).2.Covers parser := by
  unfold fillNode
  cases hfill : parser.tree.fill id (parser.rangeFrom start) payload with
  | error error => exact .refl _
  | ok tree => exact ⟨rfl, List.prefix_rfl, .refl _, .fill hfill⟩

theorem reportDeclared_covers (parser : Parser) (id : SymbolId) (declared : Declared) :
    (parser.reportDeclared id declared).Covers parser := by
  rcases parser.reportDeclared_reports id declared with heq | ⟨diagnostic, heq⟩ <;> rw [heq]
  · exact .refl _
  · exact parser.report_covers diagnostic

theorem symbols_covers {parser : Parser} (h : parser.symbols.Proper) (change : TableChange) :
    Covers { parser with symbols := parser.symbols.change change } parser :=
  ⟨rfl, List.prefix_rfl, SymbolTable.change_revertsTo h change, .refl _⟩

theorem perform_covers {α : Type} {parser : Parser} (h : parser.symbols.Proper) (op : Op α) :
    (parser.perform op).2.Covers parser := by
  cases op with
  | take => exact parser.take_covers
  | expect kind =>
    show (parser.expect kind).2.Covers parser
    unfold expect
    split
    · exact parser.take_covers
    · split
      · exact .refl _
      · exact parser.recordMismatch_covers _
  | expectChoice kind =>
    show (parser.expectChoice kind).2.Covers parser
    unfold expectChoice
    split
    · exact parser.take_covers
    · exact parser.recordMismatch_covers _
  | add start payload => exact parser.addNode_covers _ _
  | reserve start => exact parser.reserveNode_covers _
  | fill id start payload => exact parser.fillNode_covers id _ _
  | declare name kind node shape =>
    exact (reportDeclared_covers ..).trans (symbols_covers h (.declare _))
  | bind id => exact (reportDeclared_covers ..).trans (symbols_covers h (.bind id))
  | openRegion kind owner => exact symbols_covers h (.openRegion kind owner)
  | closeRegion =>
    have hclose := symbols_covers h .closeRegion
    simp only [SymbolTable.change] at hclose
    simp only [perform]
    revert hclose
    cases parser.symbols.closeRegion with
    | none => exact fun _ => .refl _
    | some closed => exact id
  | markPrivate => exact symbols_covers h .markPrivate
  | addImport package kind => exact symbols_covers h (.addImport package kind)
  | publish owner members => exact symbols_covers h (.publish owner members)
  | publishAlias synonym target => exact symbols_covers h (.publishAlias synonym target)
  | find finding =>
    rcases parser.find_reports finding with heq | ⟨diagnostic, heq⟩ <;> simp only [perform, heq]
    · exact .refl _
    · exact parser.report_covers diagnostic
  | _ => exact .refl _

theorem Act.covers {parser later : Parser} (h : parser.symbols.Proper) (hact : Act parser later) :
    later.Covers parser := by
  cases hact with
  | perform op => exact perform_covers h op
  | reject expected => exact parser.recordMismatch_covers expected
  | report diagnostic => exact parser.report_covers diagnostic
  | descend hdescend =>
    obtain rfl := eq_deeper_of_descend hdescend
    exact ⟨rfl, List.prefix_rfl, .refl _, .refl _⟩
  | addNode start payload => exact parser.addNode_covers start payload
  | reserveNode start => exact parser.reserveNode_covers start
  | fillNode id start payload => exact parser.fillNode_covers id start payload
  | declare declaration => exact (reportDeclared_covers ..).trans (symbols_covers h (.declare declaration))
  | _ => exact ⟨rfl, List.prefix_rfl, .refl _, .refl _⟩

theorem restore_covers {base marked later : Parser} (hmarked : marked.Covers base) (h : later.Covers base) :
    (later.restore marked.checkpoint).2.Covers base := by
  unfold restore
  split
  · exact h
  · rename_i cursor hrewind
    have htokens : cursor.tokens = base.cursor.tokens := by
      unfold Cursor.rewind at hrewind
      split at hrewind
      · cases hrewind
        exact h.tokens
      · cases hrewind
    split
    · exact ⟨htokens, h.log, h.symbols, h.tree⟩
    · rename_i log hrollback
      refine ⟨htokens, ?_, ?_, h.tree.truncate hmarked.tree.size_le⟩
      · unfold DiagnosticLog.rollback at hrollback
        split at hrollback
        · cases hrollback
        · cases hrollback
          have hle : base.log.records.toList.length ≤ marked.checkpoint.log := hmarked.log.length_le
          simpa using List.prefix_take_iff.mpr ⟨h.log, hle⟩
      · have hle : base.symbols.symbols.size ≤ marked.symbols.symbols.size := by
          simpa using hmarked.symbols.symbols.length_le
        exact h.symbols.rollback_of_le hle hmarked.symbols.journal

/-- Comes from `base` by acts, and by going back to checkpoints that were taken on the way. -/
inductive Since (base : Parser) : Parser → Prop where
  | refl : Since base base
  | act {parser later : Parser} (h : Since base parser) (hact : Act parser later) : Since base later
  | restore {parser marked : Parser} (h : Since base parser) (hmarked : Since base marked) :
      Since base (parser.restore marked.checkpoint).2

namespace Since

variable {base later : Parser}

theorem recoverable (h : base.Since later) (hbase : base.symbols.Recoverable) :
    later.symbols.Recoverable := by
  induction h with
  | refl => exact hbase
  | act _ hact ih => exact hact.move.recoverable ih
  | restore _ _ ih _ => exact (Move.restore _).recoverable ih

theorem covers (h : base.Since later) (hbase : base.symbols.Recoverable) : later.Covers base := by
  induction h with
  | refl => exact .refl _
  | act hparser hact ih => exact (hact.covers (hparser.recoverable hbase).proper).trans ih
  | restore _ _ ih ihmarked => exact restore_covers ihmarked ih

end Since

def MarkedSince (base : Parser) (checkpoint : Checkpoint) : Prop :=
  ∃ marked, base.Since marked ∧ checkpoint = marked.checkpoint

theorem since_kept (base : Parser) : Kept base.Since base.MarkedSince where
  act h hact := h.act hact
  checkpoint h := ⟨_, h, rfl⟩
  restore h hmark := by
    obtain ⟨marked, hmarked, rfl⟩ := hmark
    exact h.restore hmarked

def obey (commands : List Command) (parser : Parser) : Reply Answer × Parser :=
  let result := Session.runBody 0 commands { parser }
  (result.1, result.2.parser)

theorem since_obey (commands : List Command) (parser : Parser) : parser.Since (obey commands parser).2 :=
  (Session.runBody_holds parser.since_kept 0 commands { parser }
    ⟨.refl, fun _ hentry => (List.not_mem_nil hentry).elim⟩).parser

theorem Covers.restore {base later : Parser} (h : later.Covers base) :
    later.restore base.checkpoint =
      (none, { later with
        cursor := base.cursor, log := base.log
        symbols := { base.symbols with nextRegion := later.symbols.nextRegion }
        tree := later.tree.truncate base.tree.size }) := by
  simp only [Parser.restore, checkpoint, position, Cursor.rewind_eq h.tokens,
    DiagnosticLog.rollback_eq h.log, h.symbols.rollback]

theorem settle_covers {α : Type} {base : Parser} {result : Reply α × Parser} (h : result.2.Covers base)
    (hfailed : (settle base.checkpoint result).1.value? = none) :
    settle base.checkpoint result =
      (result.1, { result.2 with
        cursor := base.cursor, log := base.log
        symbols := { base.symbols with nextRegion := result.2.symbols.nextRegion }
        tree := result.2.tree.truncate base.tree.size }) := by
  obtain ⟨reply, later⟩ := result
  cases reply with
  | matched value => cases hfailed
  | _ => simp only [settle, h.restore]

theorem nested_covers {α : Type} {parser : Parser} {body : Parser → Reply α × Parser}
    (h : (body parser.deeper).2.Covers parser.deeper) : (parser.nested body).2.Covers parser := by
  unfold nested
  cases hdescend : parser.descend with
  | error error => exact .refl _
  | ok deeper =>
    obtain rfl := eq_deeper_of_descend hdescend
    exact ⟨h.tokens, h.log, h.symbols, h.tree⟩

/-- An attempt that does not match, whatever its body does, restores cursor, log, symbols and regions, and
drops all nodes that were added; the older nodes are as the body left them, so that the tree is restored
just in case the body has filled none of the nodes that were reserved before it. -/
theorem attempt_takes_back {α : Type} {parser : Parser} (hreachable : parser.Reachable)
    {body : Parser → Reply α × Parser} (hbody : parser.deeper.Since (body parser.deeper).2)
    (hfailed : (parser.attempt body).1.value? = none) :
    let inner := parser.nested body
    let later := (parser.attempt body).2
    (parser.attempt body).1 = inner.1 ∧
      later.cursor = parser.cursor ∧ later.log = parser.log ∧
      (∃ next, parser.symbols.nextRegion ≤ next ∧
        later.symbols = { parser.symbols with nextRegion := next }) ∧
      later.tree = inner.2.tree.truncate parser.tree.size ∧ later.tree.Fills parser.tree ∧
      (later.tree = parser.tree ↔ ∀ id, parser.tree.IsReserved id → inner.2.tree.IsReserved id) := by
  intro inner later
  have hrecoverable : parser.deeper.symbols.Recoverable := hreachable.recoverable
  have hinner : inner.2.Covers parser := nested_covers (hbody.covers hrecoverable)
  have heq : parser.attempt body = _ := settle_covers hinner hfailed
  dsimp only [later]
  rw [heq]
  exact ⟨rfl, rfl, rfl, ⟨_, hinner.symbols.nextRegion, rfl⟩, rfl, hinner.tree.truncate (Nat.le_refl _),
    hinner.tree.truncate_eq_iff⟩

def identifierAlone : Cursor where
  tokens := #[.ofText .identifier "X" 0, .endOfFile 1]
  position := 0
  position_lt := by decide
  last_kind := by decide

def withReserved : Parser := ((Parser.new identifierAlone { predefined := false }).reserveNode 0).2

theorem withReserved_reachable : withReserved.Reachable := (Reachable.new _ _).move (.reserveNode 0)

def busyBody : List Command :=
  [.step (.checkpoint "start"), .step .take, .step (.declare { name := .ofText "X", kind := .object }),
    .step (.restore "start"), .step (.fill ⟨0⟩ 0 (.stmt .null)), .attempt [.step (.reserve 0)],
    .step (.reject "a statement")]

theorem attempt_takes_back_busyBody :
    let inner := withReserved.nested (obey busyBody)
    let later := (withReserved.attempt (obey busyBody)).2
    withReserved.Reachable ∧ (withReserved.attempt (obey busyBody)).1.value? = none ∧
      later.cursor = withReserved.cursor ∧ later.log = withReserved.log ∧
      inner.2.tree.size = 2 ∧ later.tree = inner.2.tree.truncate withReserved.tree.size := by
  have hfailed : (withReserved.attempt (obey busyBody)).1.value? = none :=
    Option.isNone_iff_eq_none.mp (by decide +kernel)
  obtain ⟨-, hcursor, hlog, -, htree, -⟩ :=
    attempt_takes_back withReserved_reachable (since_obey busyBody _) hfailed
  exact ⟨withReserved_reachable, hfailed, hcursor, hlog, by decide +kernel, htree⟩

/-- The node that was reserved before the attempt stays filled after it. -/
theorem attempt_keeps_filled :
    let body := obey [.step (.fill ⟨0⟩ 0 (.stmt .null)), .step (.reject "a statement")]
    withReserved.Reachable ∧ withReserved.deeper.Since (body withReserved.deeper).2 ∧
      (withReserved.attempt body).1.value? = none ∧
      withReserved.tree.payload ⟨0⟩ = .placeholder ∧
      (withReserved.attempt body).2.tree.payload ⟨0⟩ = .stmt .null :=
  ⟨withReserved_reachable, since_obey _ _, Option.isNone_iff_eq_none.mp (by decide +kernel),
    by decide +kernel, by decide +kernel⟩

end Parser

end AdaSyntax
