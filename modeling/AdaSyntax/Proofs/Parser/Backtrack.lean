import AdaSyntax.Parser.Program
import AdaSyntax.Proofs.Scope.Journal

namespace AdaSyntax

def Outcome {α : Type} (fail : Parser → Prop) (done : α → Parser → Prop) : Reply α × Parser → Prop
  | (.matched value, parser) => done value parser
  | (_, parser) => fail parser

theorem Outcome.mono {α : Type} {fail fail' : Parser → Prop} {done done' : α → Parser → Prop}
    {result : Reply α × Parser} (h : Outcome fail done result)
    (hfail : ∀ parser, fail parser → fail' parser)
    (hdone : ∀ value parser, done value parser → done' value parser) :
    Outcome fail' done' result := by
  obtain ⟨reply, parser⟩ := result
  cases reply with
  | matched value => exact hdone value parser h
  | _ => exact hfail parser h

namespace Cursor

theorem ext_of_tokens {first second : Cursor} (htokens : first.tokens = second.tokens)
    (hposition : first.position = second.position) : first = second := by
  cases first
  cases second
  cases htokens
  cases hposition
  rfl

theorem rewind_eq {later earlier : Cursor} (h : later.tokens = earlier.tokens) :
    later.rewind earlier.position = .ok earlier := by
  have hlt : earlier.position < later.tokens.size := h ▸ earlier.position_lt
  simp only [rewind, hlt, dif_pos]
  exact congrArg Except.ok (ext_of_tokens h rfl)

end Cursor

theorem DiagnosticLog.rollback_eq {later earlier : DiagnosticLog}
    (h : earlier.records.toList <+: later.records.toList) :
    later.rollback earlier.length = .ok earlier := by
  obtain ⟨added, hadded⟩ := h
  have hsize : ¬later.length < earlier.length := by
    have := congrArg List.length hadded
    simp at this
    simp only [length]
    omega
  have hrecords : later.records.shrink earlier.records.size = earlier.records := by
    apply Array.toList_inj.mp
    simp [← hadded, ← Array.length_toList]
  unfold rollback
  rw [if_neg hsize, length, hrecords]

theorem Tree.truncate_eq {later earlier : Tree} (h : earlier.nodes.toList <+: later.nodes.toList) :
    later.truncate earlier.size = earlier := by
  obtain ⟨added, hadded⟩ := h
  have hnodes : later.nodes.shrink earlier.nodes.size = earlier.nodes := by
    apply Array.toList_inj.mp
    simp [← hadded, ← Array.length_toList]
  simp only [truncate, size, hnodes]

namespace Parser

structure RevertsTo (later earlier : Parser) : Prop where
  tokens : later.cursor.tokens = earlier.cursor.tokens
  log : earlier.log.records.toList <+: later.log.records.toList
  symbols : later.symbols.RevertsTo earlier.symbols
  nodes : earlier.tree.nodes.toList <+: later.tree.nodes.toList
  options : later.options = earlier.options
  depth : later.depth = earlier.depth
  contexts : later.contexts = earlier.contexts

def Resumes (later earlier : Parser) : Prop :=
  ∃ next furthest, earlier.symbols.nextRegion ≤ next ∧
    later = { earlier with symbols := { earlier.symbols with nextRegion := next }, furthest }

namespace RevertsTo

theorem refl (parser : Parser) : parser.RevertsTo parser :=
  ⟨rfl, List.prefix_rfl, .refl _, List.prefix_rfl, rfl, rfl, rfl⟩

theorem trans {first second third : Parser} (h : third.RevertsTo second)
    (h' : second.RevertsTo first) : third.RevertsTo first where
  tokens := h.tokens.trans h'.tokens
  log := h'.log.trans h.log
  symbols := h.symbols.trans h'.symbols
  nodes := h'.nodes.trans h.nodes
  options := h.options.trans h'.options
  depth := h.depth.trans h'.depth
  contexts := h.contexts.trans h'.contexts

theorem restore {later earlier : Parser} (h : later.RevertsTo earlier) :
    ∃ resumed, later.restore earlier.checkpoint = (none, resumed) ∧ resumed.Resumes earlier := by
  have hsymbols := h.symbols.rollback
  have htree := Tree.truncate_eq h.nodes
  refine ⟨{ earlier with
    symbols := { earlier.symbols with nextRegion := later.symbols.nextRegion }
    furthest := later.furthest }, ?_, _, _, h.symbols.nextRegion, rfl⟩
  simp only [Parser.restore, checkpoint, position, Cursor.rewind_eq h.tokens,
    DiagnosticLog.rollback_eq h.log, hsymbols, htree, h.options, h.depth, h.contexts]

end RevertsTo

theorem settle_outcome {α : Type} {earlier : Parser} {done : α → Parser → Prop}
    {result : Reply α × Parser} (h : Outcome (·.RevertsTo earlier) done result) :
    Outcome (·.Resumes earlier) done (settle earlier.checkpoint result) := by
  obtain ⟨reply, parser⟩ := result
  cases reply with
  | matched value => exact h
  | _ =>
    obtain ⟨resumed, hrestore, hresumes⟩ := RevertsTo.restore h
    simp only [settle, hrestore]
    exact hresumes

def deeper (parser : Parser) : Parser := { parser with depth := parser.depth + 1 }

theorem eq_deeper_of_descend {parser deeper : Parser} (h : parser.descend = .ok deeper) :
    deeper = parser.deeper := by
  unfold descend at h
  split at h
  · cases h
  · exact (Except.ok.inj h).symm

theorem nested_congr {α : Type} {parser : Parser} {body body' : Parser → Reply α × Parser}
    (h : body parser.deeper = body' parser.deeper) : parser.nested body = parser.nested body' := by
  unfold nested
  cases hdescend : parser.descend with
  | error error => rfl
  | ok deeper =>
    obtain rfl := eq_deeper_of_descend hdescend
    simp only [h]

theorem attempt_congr {α : Type} {parser : Parser} {body body' : Parser → Reply α × Parser}
    (h : body parser.deeper = body' parser.deeper) : parser.attempt body = parser.attempt body' :=
  congrArg (settle _) (nested_congr h)

theorem RevertsTo.ascend {parser later : Parser} (h : later.RevertsTo parser.deeper) :
    later.ascend.RevertsTo parser :=
  ⟨h.tokens, h.log, h.symbols, h.nodes, h.options, by simp [Parser.ascend, h.depth, deeper],
    h.contexts⟩

theorem nested_outcome {α : Type} {parser : Parser} {body : Parser → Reply α × Parser}
    {done : α → Parser → Prop}
    (h : Outcome (·.RevertsTo parser.deeper) (fun value later => done value later.ascend)
      (body parser.deeper)) : Outcome (·.RevertsTo parser) done (parser.nested body) := by
  unfold nested descend
  by_cases hdepth : parser.options.maxDepth ≤ parser.depth
  · simp only [hdepth, if_true]
    exact .refl parser
  · simp only [hdepth, if_false]
    change Outcome _ _ ((body parser.deeper).1, (body parser.deeper).2.ascend)
    revert h
    generalize body parser.deeper = result
    obtain ⟨reply, later⟩ := result
    intro h
    cases reply with
    | matched value => exact h
    | _ => exact RevertsTo.ascend h

theorem attempt_outcome {α : Type} {parser : Parser} {body : Parser → Reply α × Parser}
    {done : α → Parser → Prop}
    (h : Outcome (·.RevertsTo parser.deeper) (fun value later => done value later.ascend)
      (body parser.deeper)) : Outcome (·.Resumes parser) done (parser.attempt body) :=
  settle_outcome (nested_outcome h)

end Parser

end AdaSyntax
