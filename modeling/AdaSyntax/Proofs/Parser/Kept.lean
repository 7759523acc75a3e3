import AdaSyntax.Proofs.Parser.Draft
import AdaSyntax.Session.Run

namespace AdaSyntax

namespace Parser

inductive Act (parser : Parser) : Parser → Prop where
  | perform {α : Type} (op : Op α) : Act parser (parser.perform op).2
  | reject (expected : String) : Act parser (parser.recordMismatch expected)
  | report (diagnostic : Diagnostic) : Act parser (parser.report diagnostic)
  | descend {deeper : Parser} (h : parser.descend = .ok deeper) : Act parser deeper
  | ascend : Act parser parser.ascend
  | pushContext (context : Context) : Act parser (parser.pushContext context)
  | popContext : Act parser parser.popContext
  | forgetMismatch : Act parser parser.forgetMismatch
  | mergeMismatch (outer : Option Mismatch) : Act parser (parser.mergeMismatch outer)
  | addNode (start : Nat) (payload : Payload Range) : Act parser (parser.addNode start payload).2
  | reserveNode (start : Nat) : Act parser (parser.reserveNode start).2
  | fillNode (id : NodeId) (start : Nat) (payload : Payload Range) :
      Act parser (parser.fillNode id start payload).2
  | declare (declaration : Declaration) : Act parser (parser.declare declaration).2

structure Kept (holds : Parser → Prop) (marks : Checkpoint → Prop) : Prop where
  act {parser later : Parser} : holds parser → Act parser later → holds later
  checkpoint {parser : Parser} : holds parser → marks parser.checkpoint
  restore {parser : Parser} {checkpoint : Checkpoint} :
    holds parser → marks checkpoint → holds (parser.restore checkpoint).2

namespace Kept

variable {holds : Parser → Prop} {marks : Checkpoint → Prop} {α σ : Type} {parser : Parser}
  (kept : Kept holds marks)

include kept

theorem skip (h : holds parser) : holds parser.skip := by
  have heq : parser.skip = (parser.perform .take).2 := by
    simp only [Parser.skip, Parser.perform, withPosition, Parser.take]
    cases parser.cursor.advance <;> rfl
  rw [heq]
  exact kept.act h (.perform .take)

theorem skipPast (closers : List TokenKind) (fuel : Nat) (h : holds parser) :
    holds (Parser.skipPast closers fuel parser) := by
  induction fuel generalizing parser with
  | zero => exact h
  | succ fuel ih =>
    rw [Parser.skipPast]
    split
    · exact h
    · split
      · exact kept.skip h
      · exact ih (kept.skip h)

theorem resynchronize (closers : List TokenKind) (h : holds parser) :
    holds (parser.resynchronize closers) := by
  unfold Parser.resynchronize
  split
  · exact kept.skip h
  · exact kept.skipPast _ _ (kept.skip h)

theorem dropItem (context : Context) (code : Code) (first : Nat) (outer : Option Mismatch)
    (h : holds parser) : holds (parser.dropItem context code first outer) := by
  have hreport : holds (parser.reportUnrecognized context code first) := kept.act h (.report _)
  exact kept.act (kept.resynchronize _ hreport) (.mergeMismatch outer)

theorem settle {checkpoint : Checkpoint} {result : Reply α × Parser} (hmark : marks checkpoint)
    (h : holds result.2) : holds (Parser.settle checkpoint result).2 := by
  obtain ⟨reply, later⟩ := result
  have hrestore := kept.restore h hmark
  cases reply with
  | matched value => exact h
  | _ =>
    simp only [Parser.settle]
    revert hrestore
    generalize later.restore checkpoint = restored
    obtain ⟨error, restored⟩ := restored
    intro hrestore
    cases error <;> exact hrestore

theorem nested {body : Parser → Reply α × Parser}
    (hbody : ∀ parser : Parser, holds parser → holds (body parser).2) (h : holds parser) :
    holds (parser.nested body).2 := by
  unfold Parser.nested
  cases hdescend : parser.descend with
  | error error => exact h
  | ok deeper => exact kept.act (hbody deeper (kept.act h (.descend hdescend))) .ascend

theorem attempt {body : Parser → Reply α × Parser}
    (hbody : ∀ parser : Parser, holds parser → holds (body parser).2) (h : holds parser) :
    holds (parser.attempt body).2 :=
  kept.settle (kept.checkpoint h) (kept.nested hbody h)

omit kept in
theorem repeatUntil {body : σ → Parser → Reply (σ ⊕ α) × Parser}
    (hbody : ∀ state (parser : Parser), holds parser → holds (body state parser).2)
    (fuel : Nat) (state : σ) (h : holds parser) :
    holds (Parser.repeatUntil body fuel state parser).2 := by
  induction fuel generalizing state parser with
  | zero => exact h
  | succ fuel ih =>
    have hround := hbody state parser h
    rw [Parser.repeatUntil]
    generalize body state parser = result at hround ⊢
    obtain ⟨reply, later⟩ := result
    cases reply with
    | matched value =>
      cases value with
      | inl state => exact ih state hround
      | inr value => exact hround
    | _ => exact hround

theorem parseItems {item : Parser → Reply NodeId × Parser}
    (hitem : ∀ parser : Parser, holds parser → holds (item parser).2) (context : Context) (code : Code)
    (fuel : Nat) (items : List NodeId) (h : holds parser) :
    holds (Parser.parseItems context code item fuel items parser).2 := by
  induction fuel generalizing items parser with
  | zero => exact h
  | succ fuel ih =>
    rw [Parser.parseItems]
    split
    · exact h
    · have hattempt := kept.attempt hitem (kept.act h .forgetMismatch)
      dsimp only
      generalize parser.forgetMismatch.attempt item = result at hattempt ⊢
      obtain ⟨reply, later⟩ := result
      cases reply with
      | matched node => exact ih _ (kept.act hattempt (.mergeMismatch _))
      | mismatch => exact ih _ (kept.dropItem _ _ _ _ hattempt)
      | fatal error => exact hattempt
      | exhausted => exact hattempt

theorem run {calls : ∀ {α : Type}, Production α → Parser → Reply α × Parser}
    (hcalls : ∀ {α : Type} (production : Production α) (parser : Parser), holds parser →
      holds (calls production parser).2)
    (program : Program α) (parser : Parser) (h : holds parser) :
    holds (program.run calls parser).2 := by
  induction program generalizing parser with
  | pure value => exact h
  | bind first next ihfirst ihnext =>
    have hfirst := ihfirst parser h
    change holds (Program.run calls (first >>= next) parser).2
    rw [Program.run_bind]
    generalize first.run calls parser = result at hfirst ⊢
    obtain ⟨reply, later⟩ := result
    cases reply with
    | matched value => exact ihnext value later hfirst
    | _ => exact hfirst
  | step op => exact kept.act h (.perform op)
  | reject expected => exact kept.act h (.reject expected)
  | fail => exact h
  | call production => exact hcalls production parser h
  | attempt body ih =>
    have hattempt := kept.attempt ih h
    rw [Program.run_attempt]
    generalize parser.attempt (body.run calls) = result at hattempt ⊢
    obtain ⟨reply, later⟩ := result
    cases reply <;> exact hattempt
  | nested body ih => exact kept.nested ih h
  | loop body state ih => exact Kept.repeatUntil ih _ state h
  | items context code item ih =>
    have hitems := kept.parseItems ih context code (parser.cursor.remaining + 1) []
      (kept.act h (.pushContext context))
    exact kept.act hitems .popContext

theorem call (budget : Nat) (production : Production α) (parser : Parser) (h : holds parser) :
    holds (Grammar.call budget production parser).2 := by
  induction budget generalizing α parser with
  | zero => exact h
  | succ budget ih => exact kept.run ih (Grammar.ofProduction production) parser h

theorem execute (program : Program α) (h : holds parser) : holds (program.execute parser).2 :=
  kept.run (kept.call _) program parser h

end Kept

end Parser

namespace Session

open AdaSyntax.Parser

structure Holds (holds : Parser → Prop) (marks : Checkpoint → Prop) (session : Session) : Prop where
  parser : holds session.parser
  checkpoints : ∀ entry ∈ session.checkpoints, marks entry.2

variable {holds : Parser → Prop} {marks : Checkpoint → Prop} {α : Type} {session : Session}

theorem Holds.change {later : Parser} (h : session.Holds holds marks) (hlater : holds later) :
    Holds holds marks { session with parser := later } :=
  ⟨hlater, h.checkpoints⟩

theorem mem_of_lookup {entries : List (String × Checkpoint)} {label : String} {checkpoint : Checkpoint}
    (h : entries.lookup label = some checkpoint) : (label, checkpoint) ∈ entries := by
  obtain ⟨front, back, heq, -⟩ := List.lookup_eq_some_iff.mp h
  simp [heq]

theorem restore_holds {checkpoint : Checkpoint} (kept : Kept holds marks) (hmark : marks checkpoint)
    (h : session.Holds holds marks) : (session.restore checkpoint).2.Holds holds marks := by
  have hrestore := kept.restore h.parser hmark
  unfold restore
  generalize session.parser.restore checkpoint = restored at hrestore ⊢
  obtain ⟨error, restored⟩ := restored
  cases error <;> exact h.change hrestore

theorem perform_holds (kept : Kept holds marks) (step : Step) (h : session.Holds holds marks) :
    (session.perform step).2.Holds holds marks := by
  cases step with
  | take => exact h.change (kept.act h.parser (.perform .take))
  | expect kind => exact h.change (kept.act h.parser (.perform (.expect kind)))
  | expectChoice kind => exact h.change (kept.act h.parser (.perform (.expectChoice kind)))
  | accept kind => exact h.change (kept.execute (Program.accept kind) h.parser)
  | definingIdentifier => exact h.change (kept.execute Program.definingIdentifier h.parser)
  | endName expected => exact h.change (kept.execute (Program.endName expected) h.parser)
  | parse rule => exact h.change (kept.execute (Program.rule rule) h.parser)
  | attemptRule rule =>
    exact h.change (kept.attempt (fun _ h => kept.execute (Program.rule rule) h) h.parser)
  | firstOf rules => exact h.change (kept.execute (Program.firstOf rules) h.parser)
  | recoverRules context code rules =>
    exact h.change (kept.execute (Program.items context code (Program.firstOf rules)) h.parser)
  | reject expected => exact h.change (kept.act h.parser (.reject expected))
  | checkpoint label =>
    refine ⟨h.parser, fun entry hentry => ?_⟩
    rcases List.mem_cons.mp hentry with rfl | hentry
    · exact kept.checkpoint h.parser
    · exact h.checkpoints entry hentry
  | restore label =>
    simp only [perform]
    cases hlookup : session.checkpoints.lookup label with
    | none => exact h
    | some checkpoint => exact restore_holds kept (h.checkpoints _ (mem_of_lookup hlookup)) h
  | reportUnrecognized context code first => exact h.change (kept.act h.parser (.report _))
  | report diagnostic => exact h.change (kept.act h.parser (.report diagnostic))
  | note code message range => exact h.change (kept.act h.parser (.report _))
  | warn code message range => exact h.change (kept.act h.parser (.report _))
  | add start payload => exact h.change (kept.act h.parser (.addNode start payload))
  | reserve start => exact h.change (kept.act h.parser (.reserveNode start))
  | fill id start payload => exact h.change (kept.act h.parser (.fillNode id start payload))
  | declare declaration => exact h.change (kept.act h.parser (.declare declaration))
  | bind id => exact h.change (kept.act h.parser (.perform (.bind id)))
  | markPosition label => exact ⟨h.parser, h.checkpoints⟩
  | _ => exact h

theorem settle_holds {checkpoint : Checkpoint} {result : Reply α × Session} (kept : Kept holds marks)
    (hmark : marks checkpoint) (h : result.2.Holds holds marks) :
    (settle checkpoint result).2.Holds holds marks :=
  h.change (kept.settle hmark h.parser)

theorem nested_holds {body : Session → Reply α × Session} (kept : Kept holds marks)
    (hbody : ∀ session : Session, session.Holds holds marks → (body session).2.Holds holds marks)
    (h : session.Holds holds marks) : (session.nested body).2.Holds holds marks := by
  unfold nested
  cases hdescend : session.parser.descend with
  | error error => exact h
  | ok deeper =>
    have hinner := hbody { session with parser := deeper } (h.change (kept.act h.parser (.descend hdescend)))
    exact hinner.change (kept.act hinner.parser .ascend)

theorem attempt_holds {body : Session → Reply α × Session} (kept : Kept holds marks)
    (hbody : ∀ session : Session, session.Holds holds marks → (body session).2.Holds holds marks)
    (h : session.Holds holds marks) : (session.attempt body).2.Holds holds marks :=
  settle_holds kept (kept.checkpoint h.parser) (nested_holds kept hbody h)

theorem items_holds {item : Session → Reply NodeId × Session} (kept : Kept holds marks)
    (hitem : ∀ session : Session, session.Holds holds marks → (item session).2.Holds holds marks)
    (context : Context) (code : Code) (fuel : Nat) (ids : List NodeId) (h : session.Holds holds marks) :
    (items context code item fuel ids session).2.Holds holds marks := by
  induction fuel generalizing ids session with
  | zero => exact h
  | succ fuel ih =>
    rw [items]
    split
    · exact h
    · have hattempt := attempt_holds kept hitem (h.change (kept.act h.parser .forgetMismatch))
      dsimp only at hattempt ⊢
      generalize ({ session with parser := session.parser.forgetMismatch } : Session).attempt item = result
        at hattempt ⊢
      obtain ⟨reply, later⟩ := result
      cases reply with
      | matched id => exact ih _ (hattempt.change (kept.act hattempt.parser (.mergeMismatch _)))
      | mismatch => exact ih _ (hattempt.change (kept.dropItem _ _ _ _ hattempt.parser))
      | fatal error => exact hattempt
      | exhausted => exact hattempt

theorem item_holds {body : Session → Reply Answer × Session} (kept : Kept holds marks)
    (hbody : ∀ session : Session, session.Holds holds marks → (body session).2.Holds holds marks)
    (h : session.Holds holds marks) : (item body session).2.Holds holds marks := by
  have hafter := hbody session h
  unfold item
  generalize body session = result at hafter ⊢
  obtain ⟨reply, later⟩ := result
  cases reply with
  | matched answer => exact hafter.change (kept.act hafter.parser (.reserveNode _))
  | _ => exact hafter

theorem recoverItems_holds {body : Session → Reply Answer × Session} (kept : Kept holds marks)
    (hbody : ∀ session : Session, session.Holds holds marks → (body session).2.Holds holds marks)
    (context : Context) (code : Code) (h : session.Holds holds marks) :
    (session.recoverItems context code body).2.Holds holds marks := by
  have hitems := items_holds kept (fun _ h => item_holds kept hbody h) context code
    (session.parser.cursor.remaining + itemLimit) [] (h.change (kept.act h.parser (.pushContext context)))
  exact hitems.change (kept.act hitems.parser .popContext)

theorem record_holds (command : Command) (level : Nat) {result : Reply Answer × Session}
    (h : result.2.Holds holds marks) : (record command level result).2.Holds holds marks :=
  ⟨h.parser, h.checkpoints⟩

mutual

theorem run_holds (kept : Kept holds marks) (level : Nat) (command : Command) (session : Session)
    (h : session.Holds holds marks) : (run level command session).2.Holds holds marks := by
  cases command with
  | step step =>
    rw [run]
    exact record_holds _ _ (perform_holds kept step h)
  | attempt body =>
    rw [run]
    exact record_holds _ _ (attempt_holds kept (runBody_holds kept (level + 1) body) h)
  | nested body =>
    rw [run]
    exact record_holds _ _ (nested_holds kept (runBody_holds kept (level + 1) body) h)
  | recoverItems context code body =>
    rw [run]
    exact record_holds _ _ (recoverItems_holds kept (runBody_holds kept (level + 1) body) context code h)

theorem runBody_holds (kept : Kept holds marks) (level : Nat) (body : List Command) (session : Session)
    (h : session.Holds holds marks) : (runBody level body session).2.Holds holds marks := by
  cases body with
  | nil => exact h
  | cons command rest =>
    have hcommand := run_holds kept level command session h
    rw [runBody]
    generalize run level command session = result at hcommand ⊢
    obtain ⟨reply, later⟩ := result
    cases reply with
    | matched answer => exact runBody_holds kept level rest later hcommand
    | _ => exact hcommand

end

end Session

end AdaSyntax
