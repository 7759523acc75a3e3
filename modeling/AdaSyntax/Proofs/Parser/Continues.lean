import AdaSyntax.Proofs.Parser.Reachable
import AdaSyntax.Proofs.Parser.Recovery

namespace AdaSyntax

/-- No node was lost, and no complete one was changed. -/
structure Tree.Retains (later earlier : Tree) : Prop where
  size_le : earlier.size ≤ later.size
  get? : ∀ id node, earlier.get? id = some node → node.payload.isPlaceholder = false →
    later.get? id = some node

namespace Tree.Retains

variable {first second third : Tree}

theorem refl (tree : Tree) : tree.Retains tree :=
  ⟨Nat.le_refl _, fun _ _ h _ => h⟩

theorem trans (h : third.Retains second) (h' : second.Retains first) : third.Retains first where
  size_le := Nat.le_trans h'.size_le h.size_le
  get? id node hnode hfilled := h.get? id node (h'.get? id node hnode hfilled) hfilled

theorem of_isPrefix (h : first.nodes.toList <+: second.nodes.toList) : second.Retains first where
  size_le := size_le_of_isPrefix h
  get? id node hnode _ := by
    rwa [get?_of_isPrefix h (Array.getElem?_eq_some_iff.mp hnode).1]

theorem fill {id : NodeId} {range : Range} {payload : Payload Range}
    (h : first.fill id range payload = .ok second) : second.Retains first := by
  unfold Tree.fill at h
  cases hnode : first.get? id with
  | none =>
    rw [hnode] at h
    cases h
  | some node =>
    rw [hnode] at h
    dsimp only at h
    split at h
    · rename_i hreserved
      obtain rfl := Except.ok.inj h
      refine ⟨Nat.le_of_eq (size_replace first id ⟨range, payload⟩).symm, fun other found hfound hfilled => ?_⟩
      refine (get?_replace_of_ne _ ?_).trans hfound
      rintro rfl
      rw [hnode] at hfound
      obtain rfl := Option.some.inj hfound
      rw [hfilled] at hreserved
      cases hreserved
    · cases h

theorem truncate (h : second.Retains first) : (second.truncate first.size).Retains first := by
  have hsize : (second.truncate first.size).size = first.size := by
    have := h.size_le
    simp only [Tree.size, Tree.truncate, Array.size_shrink] at this ⊢
    omega
  have hprefix : (second.truncate first.size).nodes.toList <+: second.nodes.toList := by
    simpa [Tree.truncate] using List.take_prefix _ _
  refine ⟨Nat.le_of_eq hsize.symm, fun id node hnode hfilled => ?_⟩
  have hlt : id.index < first.size := (Array.getElem?_eq_some_iff.mp hnode).1
  exact (get?_of_isPrefix hprefix (Nat.lt_of_lt_of_eq hlt hsize.symm)).symm.trans
    (h.get? id node hnode hfilled)

end Tree.Retains

def Fatal.isInternal : Fatal → Bool
  | endOfStream _ | depthExceeded .. => false
  | _ => true

namespace Parser

/-- `later` goes on where `earlier` was. -/
structure Continues (later earlier : Parser) : Prop where
  moves : earlier.cursor.MovesTo later.cursor
  options : later.options = earlier.options
  depth : later.depth = earlier.depth
  tree : later.tree.Retains earlier.tree

def EndsAt (parser : Parser) (offset : Nat) : Prop :=
  ∃ last, parser.cursor.MovesTo last ∧ last.kind = .endOfFile ∧ last.current.range.start = offset

def Raises (parser : Parser) : Fatal → Prop
  | .endOfStream offset => parser.EndsAt offset
  | .depthExceeded limit _ => limit = parser.options.maxDepth
  | _ => True

structure Allows {α : Type} (parser : Parser) (result : Reply α × Parser) : Prop where
  continues : result.2.Continues parser
  raises : ∀ error, result.1 = .fatal error → parser.Raises error

namespace Continues

variable {first second third : Parser}

theorem refl (parser : Parser) : parser.Continues parser :=
  ⟨.refl _, rfl, rfl, .refl _⟩

theorem trans (h : third.Continues second) (h' : second.Continues first) : third.Continues first where
  moves := h'.moves.trans h.moves
  options := h.options.trans h'.options
  depth := h.depth.trans h'.depth
  tree := h.tree.trans h'.tree

theorem raises (h : second.Continues first) {error : Fatal} (herror : second.Raises error) :
    first.Raises error := by
  cases error with
  | endOfStream offset =>
    obtain ⟨last, hmoves, hlast⟩ := herror
    exact ⟨last, h.moves.trans hmoves, hlast⟩
  | depthExceeded limit offset => exact Eq.trans herror (congrArg Options.maxDepth h.options)
  | _ => trivial

theorem position_le (h : second.Continues first) : first.position ≤ second.position := h.moves.le

theorem remaining_add (h : second.Continues first) :
    second.cursor.remaining + second.position = first.cursor.remaining + first.position := by
  have htokens : second.cursor.tokens.size = first.cursor.tokens.size := congrArg Array.size h.moves.tokens
  have hfirst := first.cursor.position_lt
  have hsecond := second.cursor.position_lt
  simp only [Cursor.remaining, Parser.position]
  omega

end Continues

namespace Allows

variable {α : Type} {first second : Parser} {result : Reply α × Parser}

theorem of_continues {reply : Reply α} (h : second.Continues first) (hreply : ∀ error, reply ≠ .fatal error) :
    first.Allows (reply, second) :=
  ⟨h, fun _ herror => absurd herror (hreply _)⟩

theorem fatal {error : Fatal} (h : second.Continues first) (herror : first.Raises error) :
    first.Allows (Reply.fatal (α := α) error, second) :=
  ⟨h, fun _ heq => Reply.fatal.inj heq ▸ herror⟩

theorem trans (h : second.Allows result) (h' : second.Continues first) : first.Allows result where
  continues := h.continues.trans h'
  raises error herror := h'.raises (h.raises error herror)

theorem reply {β : Type} {reply' : Reply β} (h : first.Allows result)
    (hreply : ∀ error, reply' = .fatal error → result.1 = .fatal error) : first.Allows (reply', result.2) :=
  ⟨h.continues, fun error herror => h.raises error (hreply error herror)⟩

end Allows

section

variable {α σ : Type} (parser : Parser)

theorem recordMismatch_continues (expected : String) : (parser.recordMismatch expected).Continues parser := by
  obtain ⟨furthest, heq⟩ := parser.recordMismatch_eq expected
  rw [heq]
  exact ⟨.refl _, rfl, rfl, .refl _⟩

theorem report_continues (diagnostic : Diagnostic) : (parser.report diagnostic).Continues parser :=
  ⟨.refl _, rfl, rfl, .refl _⟩

theorem reportDeclared_continues (id : SymbolId) (declared : Declared) :
    (parser.reportDeclared id declared).Continues parser := by
  rcases parser.reportDeclared_reports id declared with heq | ⟨diagnostic, heq⟩ <;> rw [heq]
  · exact .refl _
  · exact parser.report_continues diagnostic

theorem take_allows : parser.Allows parser.take := by
  unfold take
  cases hadvance : parser.cursor.advance with
  | ok next => exact .of_continues ⟨.advance hadvance, rfl, rfl, .refl _⟩ (by simp)
  | error error =>
    refine .fatal (.refl _) ?_
    unfold Cursor.advance at hadvance
    split at hadvance
    · rename_i hkind
      obtain rfl := Except.error.inj hadvance
      exact ⟨parser.cursor, .refl _, hkind, rfl⟩
    · cases hadvance

theorem expectChoice_allows (kind : TokenKind) : parser.Allows (parser.expectChoice kind) := by
  unfold expectChoice
  split
  · exact parser.take_allows
  · exact .of_continues (parser.recordMismatch_continues _) (by simp)

theorem expect_allows (kind : TokenKind) : parser.Allows (parser.expect kind) := by
  unfold expect
  split
  · exact parser.take_allows
  · split
    · rename_i hend
      exact .fatal (.refl _) ⟨parser.cursor, .refl _, by simpa [Cursor.atEnd] using hend, rfl⟩
    · exact .of_continues (parser.recordMismatch_continues _) (by simp)

theorem withPosition_allows {position : Nat} {result : Reply Token × Parser} (h : parser.Allows result) :
    parser.Allows (withPosition position result) := by
  refine ⟨h.continues, fun error herror => h.raises error ?_⟩
  obtain ⟨reply, later⟩ := result
  cases reply <;> simp_all [withPosition, Reply.map]

theorem fillNode_allows (id : NodeId) (start : Nat) (payload : Payload Range) :
    parser.Allows (parser.fillNode id start payload) := by
  unfold fillNode
  cases hfill : parser.tree.fill id (parser.rangeFrom start) payload with
  | ok tree => exact .of_continues ⟨.refl _, rfl, rfl, .fill hfill⟩ (by simp)
  | error error =>
    refine .fatal (.refl _) ?_
    unfold Tree.fill at hfill
    split at hfill
    · obtain rfl := Except.error.inj hfill
      trivial
    · split at hfill
      · cases hfill
      · obtain rfl := Except.error.inj hfill
        trivial

theorem perform_allows (op : Op α) : parser.Allows (parser.perform op) := by
  have hgrown : ∀ range payload, Tree.Retains (parser.tree.add range payload).2 parser.tree :=
    fun range payload => .of_isPrefix (by simp [Tree.add])
  cases op with
  | take => exact parser.withPosition_allows parser.take_allows
  | expect kind => exact parser.withPosition_allows (parser.expect_allows kind)
  | expectChoice kind => exact parser.withPosition_allows (parser.expectChoice_allows kind)
  | add start payload => exact .of_continues ⟨.refl _, rfl, rfl, hgrown _ _⟩ (by simp)
  | reserve start => exact .of_continues ⟨.refl _, rfl, rfl, hgrown _ _⟩ (by simp)
  | fill id start payload => exact parser.fillNode_allows id _ _
  | declare name kind node shape =>
    exact .of_continues ((reportDeclared_continues _ _ _).trans ⟨.refl _, rfl, rfl, .refl _⟩) (by simp)
  | bind id =>
    exact .of_continues ((reportDeclared_continues _ _ _).trans ⟨.refl _, rfl, rfl, .refl _⟩) (by simp)
  | closeRegion =>
    simp only [perform]
    cases parser.symbols.closeRegion with
    | none => exact .of_continues (.refl _) (by simp)
    | some closed => exact .of_continues ⟨.refl _, rfl, rfl, .refl _⟩ (by simp)
  | find finding =>
    refine .of_continues ?_ (by simp)
    rcases parser.find_reports finding with heq | ⟨diagnostic, heq⟩ <;> rw [heq]
    · exact .refl _
    · exact parser.report_continues diagnostic
  | _ => exact .of_continues ⟨.refl _, rfl, rfl, .refl _⟩ (by simp)

end

section

variable {α σ : Type} {parser : Parser}

theorem restore_allows {later : Parser} (h : later.Continues parser) :
    (later.restore parser.checkpoint).2.Continues parser ∧
      (later.restore parser.checkpoint).2.cursor = parser.cursor ∧
      ∀ error, (later.restore parser.checkpoint).1 = some error → parser.Raises error := by
  simp only [restore, checkpoint, position, Cursor.rewind_eq h.moves.tokens]
  unfold DiagnosticLog.rollback
  split
  · rename_i hlog
    split at hlog
    · obtain rfl := Except.error.inj hlog
      exact ⟨⟨.refl _, h.options, h.depth, h.tree⟩, rfl, fun _ herror => Option.some.inj herror ▸ trivial⟩
    · cases hlog
  · exact ⟨⟨.refl _, h.options, h.depth, h.tree.truncate⟩, rfl, fun _ herror => by cases herror⟩

theorem settle_cursor {result : Reply α × Parser} (h : result.2.Continues parser)
    (hfailed : ∀ value, result.1 ≠ .matched value) :
    (settle parser.checkpoint result).2.cursor = parser.cursor := by
  obtain ⟨reply, later⟩ := result
  have hrestore := (restore_allows h).2.1
  cases reply with
  | matched value => exact absurd rfl (hfailed value)
  | _ =>
    simp only [settle]
    generalize later.restore parser.checkpoint = restored at hrestore ⊢
    obtain ⟨error, restored⟩ := restored
    cases error <;> exact hrestore

theorem settle_allows {result : Reply α × Parser} (h : parser.Allows result) :
    parser.Allows (settle parser.checkpoint result) := by
  obtain ⟨reply, later⟩ := result
  obtain ⟨hcontinues, -, hraises⟩ := restore_allows h.continues
  cases reply with
  | matched value => exact h
  | _ =>
    simp only [settle]
    generalize later.restore parser.checkpoint = restored at hcontinues hraises ⊢
    obtain ⟨error, restored⟩ := restored
    cases error with
    | none => exact ⟨hcontinues, h.raises⟩
    | some error => exact .fatal hcontinues (hraises error rfl)

theorem nested_allows {body : Parser → Reply α × Parser} (h : ∀ parser : Parser, parser.Allows (body parser)) :
    parser.Allows (parser.nested body) := by
  unfold nested
  cases hdescend : parser.descend with
  | error error =>
    refine .fatal (.refl _) ?_
    unfold descend at hdescend
    split at hdescend
    · obtain rfl := Except.error.inj hdescend
      rfl
    · cases hdescend
  | ok deeper =>
    obtain rfl := eq_deeper_of_descend hdescend
    obtain ⟨hcontinues, hraises⟩ := h parser.deeper
    have hdepth : (body parser.deeper).2.ascend.depth = parser.depth :=
      congrArg (· - 1) hcontinues.depth
    refine ⟨⟨hcontinues.moves, hcontinues.options, hdepth, hcontinues.tree⟩, fun error herror => ?_⟩
    have hraised := hraises error herror
    cases error <;> exact hraised

theorem attempt_allows {body : Parser → Reply α × Parser} (h : ∀ parser : Parser, parser.Allows (body parser)) :
    parser.Allows (parser.attempt body) :=
  settle_allows (nested_allows h)

theorem attempt_cursor {body : Parser → Reply α × Parser} (h : ∀ parser : Parser, parser.Allows (body parser))
    (hfailed : ∀ value, (parser.attempt body).1 ≠ .matched value) :
    (parser.attempt body).2.cursor = parser.cursor := by
  refine settle_cursor (nested_allows h).continues fun value hvalue => hfailed value ?_
  simp only [attempt]
  generalize parser.nested body = result at hvalue
  obtain ⟨reply, later⟩ := result
  cases hvalue
  rfl

theorem repeatUntil_allows {body : σ → Parser → Reply (σ ⊕ α) × Parser}
    (h : ∀ state (parser : Parser), parser.Allows (body state parser)) (fuel : Nat) (state : σ) :
    parser.Allows (repeatUntil body fuel state parser) := by
  induction fuel generalizing state parser with
  | zero => exact .of_continues (.refl _) (by simp)
  | succ fuel ih =>
    have hround := h state parser
    rw [repeatUntil]
    generalize body state parser = result at hround ⊢
    obtain ⟨reply, later⟩ := result
    cases reply with
    | matched value =>
      cases value with
      | inl state => exact (ih state).trans hround.continues
      | inr value => exact hround.reply (by simp)
    | mismatch => exact hround.reply (by simp)
    | fatal error => exact hround.reply (by simp)
    | exhausted => exact hround.reply (by simp)

theorem dropItem_continues (parser : Parser) (context : Context) (code : Code) (first : Nat)
    (outer : Option Mismatch) : (parser.dropItem context code first outer).Continues parser := by
  obtain ⟨diagnostic, cursor, furthest, heq, hmoves, -⟩ := parser.dropItem_eq context code first outer
  rw [heq]
  exact ⟨hmoves, rfl, rfl, .refl _⟩

theorem mergeMismatch_continues (parser : Parser) (outer : Option Mismatch) :
    (parser.mergeMismatch outer).Continues parser :=
  ⟨.refl _, rfl, rfl, .refl _⟩

theorem parseItems_allows {item : Parser → Reply NodeId × Parser}
    (h : ∀ parser : Parser, parser.Allows (item parser)) (context : Context) (code : Code) (fuel : Nat)
    (items : List NodeId) : parser.Allows (parseItems context code item fuel items parser) := by
  induction fuel generalizing items parser with
  | zero => exact .of_continues (.refl _) (by simp)
  | succ fuel ih =>
    rw [parseItems]
    split
    · exact .of_continues (.refl _) (by simp)
    · have hforget : parser.forgetMismatch.Continues parser := ⟨.refl _, rfl, rfl, .refl _⟩
      have hattempt : parser.Allows (parser.forgetMismatch.attempt item) := (attempt_allows h).trans hforget
      dsimp only
      generalize parser.forgetMismatch.attempt item = result at hattempt ⊢
      obtain ⟨reply, later⟩ := result
      cases reply with
      | matched node => exact (ih _).trans ((later.mergeMismatch_continues _).trans hattempt.continues)
      | mismatch => exact (ih _).trans ((later.dropItem_continues ..).trans hattempt.continues)
      | fatal error => exact hattempt.reply (by simp)
      | exhausted => exact hattempt.reply (by simp)

theorem parseList_allows {item : Parser → Reply NodeId × Parser}
    (h : ∀ parser : Parser, parser.Allows (item parser)) (context : Context) (code : Code) :
    parser.Allows (parser.parseList context code item) := by
  have hitems : (parser.pushContext context).Allows _ :=
    parseItems_allows h context code (parser.cursor.remaining + 1) []
  have hlater : (parser.parseList context code item).2.Continues (parser.pushContext context) :=
    ⟨hitems.continues.moves, hitems.continues.options, hitems.continues.depth, hitems.continues.tree⟩
  refine ⟨hlater.trans ⟨.refl _, rfl, rfl, .refl _⟩, fun error herror => ?_⟩
  have hraised := hitems.raises error herror
  cases error <;> exact hraised

end

end Parser

section

open AdaSyntax.Parser

variable {calls : ∀ {α : Type}, Production α → Parser → Reply α × Parser} {α : Type}

theorem Program.run_allows
    (hcalls : ∀ {α : Type} (production : Production α) (parser : Parser),
      parser.Allows (calls production parser))
    (program : Program α) (parser : Parser) : parser.Allows (program.run calls parser) := by
  induction program generalizing parser with
  | pure value => exact .of_continues (.refl _) (by simp)
  | bind first next ihfirst ihnext =>
    have hfirst := ihfirst parser
    change parser.Allows (Program.run calls (first >>= next) parser)
    rw [Program.run_bind]
    generalize first.run calls parser = result at hfirst ⊢
    obtain ⟨reply, later⟩ := result
    cases reply with
    | matched value => exact (ihnext value later).trans hfirst.continues
    | mismatch => exact hfirst.reply (by simp)
    | fatal error => exact hfirst.reply (by simp)
    | exhausted => exact hfirst.reply (by simp)
  | step op => exact parser.perform_allows op
  | reject expected => exact .of_continues (parser.recordMismatch_continues expected) (by simp)
  | fail => exact .of_continues (.refl _) (by simp)
  | call production => exact hcalls production parser
  | attempt body ih =>
    have hattempt : parser.Allows (parser.attempt (body.run calls)) := attempt_allows ih
    rw [Program.run_attempt]
    generalize parser.attempt (body.run calls) = result at hattempt ⊢
    obtain ⟨reply, later⟩ := result
    cases reply with
    | matched value => exact hattempt.reply (by simp)
    | mismatch => exact hattempt.reply (by simp)
    | fatal error => exact hattempt.reply (by simp)
    | exhausted => exact hattempt.reply (by simp)
  | nested body ih => exact nested_allows ih
  | loop body state ih => exact repeatUntil_allows ih _ state
  | items context code item ih => exact parseList_allows ih context code

theorem Grammar.call_allows (budget : Nat) (production : Production α) (parser : Parser) :
    parser.Allows (Grammar.call budget production parser) := by
  induction budget generalizing α parser with
  | zero => exact .of_continues (.refl _) (by simp)
  | succ budget ih => exact Program.run_allows ih (Grammar.ofProduction production) parser

theorem Program.execute_allows (program : Program α) (parser : Parser) : parser.Allows (program.execute parser) :=
  program.run_allows (Grammar.call_allows _) parser

end

end AdaSyntax
