import AdaSyntax.Proofs.Grammar.Production
import AdaSyntax.Proofs.Parser.Kept
import AdaSyntax.Proofs.Scope.Renumber

namespace AdaSyntax

namespace Parser

inductive Move (parser : Parser) : Parser → Prop where
  | perform {α : Type} (op : Op α) : Move parser (parser.perform op).2
  | reject (expected : String) : Move parser (parser.recordMismatch expected)
  | report (diagnostic : Diagnostic) : Move parser (parser.report diagnostic)
  | descend {deeper : Parser} (h : parser.descend = .ok deeper) : Move parser deeper
  | ascend : Move parser parser.ascend
  | pushContext (context : Context) : Move parser (parser.pushContext context)
  | popContext : Move parser parser.popContext
  | forgetMismatch : Move parser parser.forgetMismatch
  | mergeMismatch (outer : Option Mismatch) : Move parser (parser.mergeMismatch outer)
  | restore (checkpoint : Checkpoint) : Move parser (parser.restore checkpoint).2
  | addNode (start : Nat) (payload : Payload Range) : Move parser (parser.addNode start payload).2
  | reserveNode (start : Nat) : Move parser (parser.reserveNode start).2
  | fillNode (id : NodeId) (start : Nat) (payload : Payload Range) :
      Move parser (parser.fillNode id start payload).2
  | declare (declaration : Declaration) : Move parser (parser.declare declaration).2

theorem Act.move {parser later : Parser} (h : Act parser later) : Move parser later := by
  cases h with
  | perform op => exact .perform op
  | reject expected => exact .reject expected
  | report diagnostic => exact .report diagnostic
  | descend h => exact .descend h
  | ascend => exact .ascend
  | pushContext context => exact .pushContext context
  | popContext => exact .popContext
  | forgetMismatch => exact .forgetMismatch
  | mergeMismatch outer => exact .mergeMismatch outer
  | addNode start payload => exact .addNode start payload
  | reserveNode start => exact .reserveNode start
  | fillNode id start payload => exact .fillNode id start payload
  | declare declaration => exact .declare declaration

/-- Reached from a new parser of some token stream. -/
inductive Reachable : Parser → Prop where
  | new (cursor : Cursor) (options : Options) : Reachable (.new cursor options)
  | move {parser later : Parser} (h : Reachable parser) (hmove : Move parser later) : Reachable later

theorem reportDeclared_symbols (parser : Parser) (id : SymbolId) (declared : Declared) :
    (parser.reportDeclared id declared).symbols = parser.symbols := by
  rcases parser.reportDeclared_reports id declared with heq | ⟨diagnostic, heq⟩ <;> rw [heq]
  rfl

theorem take_symbols (parser : Parser) : parser.take.2.symbols = parser.symbols := by
  unfold take
  split <;> rfl

theorem recordMismatch_symbols (parser : Parser) (expected : String) :
    (parser.recordMismatch expected).symbols = parser.symbols := by
  obtain ⟨furthest, heq⟩ := parser.recordMismatch_eq expected
  rw [heq]

theorem expectChoice_symbols (parser : Parser) (kind : TokenKind) :
    (parser.expectChoice kind).2.symbols = parser.symbols := by
  unfold expectChoice
  split
  · exact parser.take_symbols
  · exact parser.recordMismatch_symbols _

theorem expect_symbols (parser : Parser) (kind : TokenKind) :
    (parser.expect kind).2.symbols = parser.symbols := by
  unfold expect
  split
  · exact parser.take_symbols
  · split
    · rfl
    · exact parser.recordMismatch_symbols _

theorem fillNode_symbols (parser : Parser) (id : NodeId) (start : Nat) (payload : Payload Range) :
    (parser.fillNode id start payload).2.symbols = parser.symbols := by
  unfold fillNode
  split <;> rfl

theorem perform_symbols {α : Type} (parser : Parser) (op : Op α) :
    (parser.perform op).2.symbols = parser.symbols ∨
      ∃ change, (parser.perform op).2.symbols = parser.symbols.change change := by
  cases op with
  | take => exact .inl parser.take_symbols
  | expect kind => exact .inl (parser.expect_symbols kind)
  | expectChoice kind => exact .inl (parser.expectChoice_symbols kind)
  | fill id start payload => exact .inl (parser.fillNode_symbols id _ _)
  | declare name kind node shape => exact .inr ⟨.declare _, reportDeclared_symbols ..⟩
  | bind id => exact .inr ⟨.bind id, reportDeclared_symbols ..⟩
  | openRegion kind owner => exact .inr ⟨.openRegion kind owner, rfl⟩
  | closeRegion =>
    refine .inr ⟨.closeRegion, ?_⟩
    simp only [perform, SymbolTable.change]
    cases parser.symbols.closeRegion <;> rfl
  | markPrivate => exact .inr ⟨.markPrivate, rfl⟩
  | addImport package kind => exact .inr ⟨.addImport package kind, rfl⟩
  | publish owner members => exact .inr ⟨.publish owner members, rfl⟩
  | publishAlias synonym target => exact .inr ⟨.publishAlias synonym target, rfl⟩
  | find finding =>
    refine .inl ?_
    simp only [perform]
    rcases parser.find_reports finding with heq | ⟨diagnostic, heq⟩ <;> rw [heq]
    rfl
  | _ => exact .inl rfl

theorem restore_symbols (parser : Parser) (checkpoint : Checkpoint) :
    (parser.restore checkpoint).2.symbols = parser.symbols ∨
      (parser.restore checkpoint).2.symbols = parser.symbols.rollback checkpoint.scopes := by
  unfold restore
  split
  · exact .inl rfl
  · split
    · exact .inl rfl
    · exact .inr rfl

theorem Move.symbols {parser later : Parser} (hmove : Move parser later) :
    later.symbols = parser.symbols ∨ (∃ change, later.symbols = parser.symbols.change change) ∨
      ∃ mark, later.symbols = parser.symbols.rollback mark := by
  cases hmove with
  | perform op => exact (parser.perform_symbols op).imp_right .inl
  | reject expected => exact .inl (parser.recordMismatch_symbols expected)
  | descend hdescend =>
    unfold Parser.descend at hdescend
    split at hdescend
    · cases hdescend
    · cases hdescend
      exact .inl rfl
  | restore checkpoint => exact (parser.restore_symbols checkpoint).imp_right fun h => .inr ⟨_, h⟩
  | fillNode id start payload => exact .inl (parser.fillNode_symbols id start payload)
  | declare declaration => exact .inr (.inl ⟨.declare declaration, reportDeclared_symbols ..⟩)
  | _ => exact .inl rfl

theorem Move.recoverable {parser later : Parser} (hmove : Move parser later)
    (h : parser.symbols.Recoverable) : later.symbols.Recoverable := by
  rcases hmove.symbols with heq | ⟨change, heq⟩ | ⟨mark, heq⟩ <;> rw [heq]
  · exact h
  · exact h.change change
  · exact h.rollback mark

namespace Reachable

variable {parser later : Parser}

theorem recoverable (h : parser.Reachable) : parser.symbols.Recoverable := by
  induction h with
  | new cursor options =>
    simp only [Parser.new]
    split
    · exact SymbolTable.predefined_recoverable
    · exact SymbolTable.empty_recoverable
  | move _ hmove ih => exact hmove.recoverable ih

theorem proper (h : parser.Reachable) : parser.symbols.Proper :=
  h.recoverable.proper

theorem numbered (h : parser.Reachable) : parser.symbols.Numbered := by
  induction h with
  | new cursor options =>
    simp only [Parser.new]
    split
    · exact .predefined
    · exact .empty
  | move _ hmove ih =>
    rcases hmove.symbols with heq | ⟨change, heq⟩ | ⟨mark, heq⟩ <;> rw [heq]
    · exact ih
    · exact ih.change change
    · exact ih.rollback mark

theorem kept : Kept Reachable fun _ => True where
  act h hact := h.move hact.move
  checkpoint _ := trivial
  restore h _ := h.move (.restore _)

theorem execute {α : Type} (program : Program α) (h : parser.Reachable) :
    (program.execute parser).2.Reachable :=
  kept.execute program h

theorem run (level : Nat) (command : Command) {session : Session} (h : session.parser.Reachable) :
    (session.run level command).2.parser.Reachable :=
  (Session.run_holds kept level command session ⟨h, fun _ _ => trivial⟩).parser

end Reachable

end Parser

end AdaSyntax
