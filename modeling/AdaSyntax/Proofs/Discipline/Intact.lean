import AdaSyntax.Proofs.Discipline.Gives
import AdaSyntax.Proofs.Parser.Closed
import AdaSyntax.Proofs.Parser.Continues

namespace AdaSyntax

def Knowledge.upTo (nodes symbols : Nat) : Knowledge where
  made id := id.index < nodes
  whole id := id.index < nodes
  shallow id := id.index < nodes
  symbol id := id.index < symbols
  whole_of_shallow := id
  made_of_whole := id

theorem Knowledge.upTo_below (nodes symbols : Nat) : (upTo nodes symbols).Below (upTo nodes symbols) :=
  ⟨id, id, id⟩

structure Tree.Reserves (tree : Tree) (base : Nat) (holes : List NodeId) : Prop where
  nodup : holes.Nodup
  mem_iff : ∀ id, id ∈ holes ↔
    base ≤ id.index ∧ ∃ node, tree.get? id = some node ∧ node.payload.isPlaceholder = true

namespace Tree.Reserves

variable {tree later : Tree} {base : Nat} {holes : List NodeId}

theorem nil (tree : Tree) : tree.Reserves tree.size [] where
  nodup := .nil
  mem_iff id := by
    refine ⟨nofun, fun hid => ?_⟩
    obtain ⟨hle, node, hnode, -⟩ := hid
    exact absurd (Array.getElem?_eq_some_iff.mp hnode).1 (Nat.not_lt.mpr hle)

theorem lt_size (h : tree.Reserves base holes) {id : NodeId} (hid : id ∈ holes) : id.index < tree.size := by
  obtain ⟨-, node, hnode, -⟩ := (h.mem_iff id).mp hid
  exact (Array.getElem?_eq_some_iff.mp hnode).1

theorem append (h : tree.Reserves base holes) (h' : later.Reserves tree.size []) (hgrown : tree.nodes.toList <+: later.nodes.toList) :
    later.Reserves base holes where
  nodup := h.nodup
  mem_iff id := by
    rw [h.mem_iff]
    by_cases hid : id.index < tree.size
    · rw [get?_of_isPrefix hgrown hid]
    · have hold : tree.get? id = none := Array.getElem?_eq_none (Nat.not_lt.mp hid)
      have hnone := h'.mem_iff id
      simp only [List.not_mem_nil, false_iff] at hnone
      refine ⟨fun hid' => ?_, fun hid' => absurd ⟨Nat.not_lt.mp hid, hid'.2⟩ hnone⟩
      obtain ⟨-, node, hnode, -⟩ := hid'
      rw [hold] at hnode
      cases hnode

theorem add (h : tree.Reserves base holes) (range : Range) {payload : Payload Range}
    (hfilled : payload.isPlaceholder = false) : (tree.add range payload).2.Reserves base holes where
  nodup := h.nodup
  mem_iff id := by
    rw [h.mem_iff]
    refine and_congr_right fun _ => ⟨fun hid => ?_, fun hid => ?_⟩
    · obtain ⟨node, hnode, hreserved⟩ := hid
      exact ⟨node, (get?_add_of_lt _ _ _ (Array.getElem?_eq_some_iff.mp hnode).1).trans hnode, hreserved⟩
    · obtain ⟨node, hnode, hreserved⟩ := hid
      rcases get?_add_cases hnode with ⟨-, rfl⟩ | hold
      · rw [hfilled] at hreserved
        cases hreserved
      · exact ⟨node, hold, hreserved⟩

theorem reserve (h : tree.Reserves base holes) (hbase : base ≤ tree.size) (range : Range) :
    (tree.reserve range).2.Reserves base (⟨tree.size⟩ :: holes) where
  nodup := List.nodup_cons.mpr ⟨fun hid => absurd (h.lt_size hid) (Nat.lt_irrefl _), h.nodup⟩
  mem_iff id := by
    rw [List.mem_cons, h.mem_iff]
    constructor
    · rintro (rfl | ⟨hle, node, hnode, hreserved⟩)
      · exact ⟨hbase, _, tree.get?_add_self _ _, rfl⟩
      · exact ⟨hle, node, (get?_add_of_lt _ _ _ (Array.getElem?_eq_some_iff.mp hnode).1).trans hnode, hreserved⟩
    · rintro ⟨hle, node, hnode, hreserved⟩
      rcases get?_add_cases hnode with ⟨hid, -⟩ | hold
      · exact .inl hid
      · exact .inr ⟨hle, node, hold, hreserved⟩

theorem replace {id : NodeId} (h : tree.Reserves base (id :: holes)) {node : Node}
    (hfilled : node.payload.isPlaceholder = false) : (tree.replace id node).Reserves base holes where
  nodup := (List.nodup_cons.mp h.nodup).2
  mem_iff other := by
    have hlt := h.lt_size List.mem_cons_self
    by_cases hother : other = id
    · rw [hother, get?_replace_self node hlt]
      refine ⟨fun hid => absurd hid (List.nodup_cons.mp h.nodup).1, fun hid => ?_⟩
      obtain ⟨-, found, hfound, hreserved⟩ := hid
      rw [← Option.some.inj hfound, hfilled] at hreserved
      cases hreserved
    · rw [get?_replace_of_ne node hother, ← h.mem_iff, List.mem_cons]
      exact ⟨.inr, fun hid => hid.resolve_left hother⟩

end Tree.Reserves

namespace Parser

variable {α : Type}

def Knows (parser : Parser) (claim : Knowledge → Prop) : Prop :=
  ∀ nodes symbols, parser.tree.size ≤ nodes → parser.symbols.symbols.size ≤ symbols → claim (.upTo nodes symbols)

structure Intact (origin : Parser) (holes : List NodeId) (parser : Parser) : Prop where
  reverts : parser.RevertsTo origin
  proper : parser.symbols.Proper
  closed : parser.Closed
  reserved : parser.tree.Reserves origin.tree.size holes

structure Upholds (origin : Parser) (finished : α → Parser → Prop) (result : Reply α × Parser) : Prop where
  outcome : Outcome (·.RevertsTo origin) finished result
  fatal : ∀ error, result.1 = .fatal error → error.isInternal = false

namespace Knows

variable {parser later : Parser} {claim claim' : Knowledge → Prop}

theorem here (h : parser.Knows claim) : claim (.upTo parser.tree.size parser.symbols.symbols.size) :=
  h _ _ (Nat.le_refl _) (Nat.le_refl _)

theorem mono (h : parser.Knows claim) (hnodes : parser.tree.size ≤ later.tree.size)
    (hsymbols : parser.symbols.symbols.size ≤ later.symbols.symbols.size) : later.Knows claim :=
  fun _ _ hle hle' => h _ _ (Nat.le_trans hnodes hle) (Nat.le_trans hsymbols hle')

theorem of_reverts (h : parser.Knows claim) (hlater : later.RevertsTo parser) : later.Knows claim :=
  h.mono (Tree.size_le_of_isPrefix hlater.nodes) (by simpa using hlater.symbols.symbols.length_le)

theorem deeper (h : parser.Knows claim) : parser.deeper.Knows claim := h

theorem forgetMismatch (h : parser.Knows claim) : parser.forgetMismatch.Knows claim := h

theorem of_resumes (h : parser.Knows claim) (hlater : later.Resumes parser) : later.Knows claim := by
  obtain ⟨next, furthest, -, rfl⟩ := hlater
  exact h

theorem imp (h : parser.Knows claim) (hclaim : ∀ nodes symbols, claim (.upTo nodes symbols) →
    claim' (.upTo nodes symbols)) : parser.Knows claim' :=
  fun _ _ hle hle' => hclaim _ _ (h _ _ hle hle')

end Knows

namespace Upholds

variable {origin later : Parser} {finished finished' : α → Parser → Prop} {result : Reply α × Parser}

theorem matched {value : α} (h : finished value later) : Upholds origin finished (.matched value, later) :=
  ⟨h, nofun⟩

theorem mismatch (h : later.RevertsTo origin) : Upholds origin finished (.mismatch, later) :=
  ⟨h, nofun⟩

theorem abort {error : Fatal} (h : later.RevertsTo origin) (herror : error.isInternal = false) :
    Upholds origin finished (.fatal error, later) :=
  ⟨h, fun _ heq => Reply.fatal.inj heq ▸ herror⟩

theorem exhausted (h : later.RevertsTo origin) : Upholds origin finished (.exhausted, later) :=
  ⟨h, nofun⟩

theorem mono (h : Upholds origin finished result)
    (hfinished : ∀ value parser, finished value parser → finished' value parser) :
    Upholds origin finished' result :=
  ⟨h.outcome.mono (fun _ h => h) hfinished, h.fatal⟩

theorem imp (h : Upholds origin finished result)
    (hfinished : ∀ value parser, result = (.matched value, parser) → finished value parser → finished' value parser) :
    Upholds origin finished' result := by
  obtain ⟨reply, later⟩ := result
  cases reply with
  | matched value => exact .matched (hfinished value later rfl h.outcome)
  | _ => exact ⟨h.outcome, h.fatal⟩

end Upholds

namespace Intact

variable {origin parser later : Parser} {holes : List NodeId}

theorem refl (hproper : parser.symbols.Proper) (hclosed : parser.Closed) : Intact parser [] parser :=
  ⟨.refl parser, hproper, hclosed, .nil _⟩

theorem size_le (h : Intact origin holes parser) : origin.tree.size ≤ parser.tree.size :=
  Tree.size_le_of_isPrefix h.reverts.nodes

theorem trans (h : Intact origin holes parser) (h' : Intact parser [] later) : Intact origin holes later where
  reverts := h'.reverts.trans h.reverts
  proper := h'.proper
  closed := h'.closed
  reserved := h.reserved.append h'.reserved h'.reverts.nodes

theorem ascend (h : Intact parser.deeper [] later) : Intact parser [] later.ascend :=
  ⟨h.reverts.ascend, h.proper, h.closed.of_same rfl rfl, h.reserved⟩

theorem deeper (h : Intact origin holes parser) : Intact parser.deeper [] parser.deeper :=
  .refl h.proper (h.closed.of_same rfl rfl)

theorem of_same (h : Intact origin holes parser) (hreverts : later.RevertsTo parser)
    (hsymbols : later.symbols = parser.symbols) (htree : later.tree = parser.tree) : Intact origin holes later where
  reverts := hreverts.trans h.reverts
  proper := hsymbols ▸ h.proper
  closed := h.closed.of_same hsymbols htree
  reserved := htree ▸ h.reserved

theorem forgetMismatch (h : Intact origin holes parser) : Intact origin holes parser.forgetMismatch :=
  h.of_same ⟨rfl, List.prefix_rfl, .refl _, List.prefix_rfl, rfl, rfl, rfl⟩ rfl rfl

theorem advance {token : Token} {cursor : Cursor} (h : Intact origin holes parser)
    (hadvance : parser.cursor.advance = .ok (token, cursor)) : Intact origin holes { parser with cursor } :=
  h.of_same ⟨(Cursor.advance_eq hadvance).1, List.prefix_rfl, .refl _, List.prefix_rfl, rfl, rfl, rfl⟩ rfl rfl

theorem reports (h : Intact origin holes parser) (hlater : later.Reports parser) : Intact origin holes later := by
  rcases hlater with rfl | ⟨diagnostic, rfl⟩
  · exact h
  · refine h.of_same ⟨rfl, ?_, .refl _, List.prefix_rfl, rfl, rfl, rfl⟩ rfl rfl
    simp [Parser.report, DiagnosticLog.report]

theorem reportDeclared (h : Intact origin holes parser) (id : SymbolId) (declared : Declared) :
    Intact origin holes (parser.reportDeclared id declared) :=
  h.reports (parser.reportDeclared_reports id declared)

theorem of_change (h : Intact origin holes parser) (change : TableChange)
    (hclosed : ({ parser with symbols := parser.symbols.change change } : Parser).Closed) :
    Intact origin holes { parser with symbols := parser.symbols.change change } where
  reverts := by
    have hchange : ({ parser with symbols := parser.symbols.change change } : Parser).RevertsTo parser :=
      ⟨rfl, List.prefix_rfl, SymbolTable.change_revertsTo h.proper change, List.prefix_rfl, rfl, rfl, rfl⟩
    exact hchange.trans h.reverts
  proper := h.proper.change change
  closed := hclosed
  reserved := h.reserved

theorem resume (h : Intact origin holes parser) (hlater : later.Resumes parser) : Intact origin holes later := by
  obtain ⟨next, furthest, hnext, heq⟩ := hlater
  have hreverts : later.RevertsTo parser := by
    rw [heq]
    exact ⟨rfl, List.prefix_rfl, .of_counter hnext, List.prefix_rfl, rfl, rfl, rfl⟩
  refine ⟨hreverts.trans h.reverts, ?_, ?_, ?_⟩
  · rw [heq]
    exact h.proper
  · rw [heq]
    exact ⟨h.closed.symbols.of_counter next, h.closed.declared, h.closed.nodes⟩
  · rw [heq]
    exact h.reserved

end Intact

end Parser

end AdaSyntax
