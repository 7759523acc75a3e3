import AdaSyntax.Proofs.Copied.Basic
import AdaSyntax.Proofs.Parser.Silent
import AdaSyntax.Proofs.Parser.Steps

namespace AdaSyntax

variable {α β σ : Type} {tokens : Array Token}

namespace Parser

structure Copied (tokens : Array Token) (parser : Parser) : Prop where
  tokens_eq : parser.cursor.tokens = tokens
  texts : ∀ node ∈ parser.tree.nodes.toList, ∀ text ∈ node.payload.texts, AdaSyntax.Copied tokens text

abbrev Copies (tokens : Array Token) (good : α → Prop) : Reply α × Parser → Prop :=
  Outcome (Copied tokens) fun value later => good value ∧ later.Copied tokens

theorem Copied.new (cursor : Cursor) (options : Options) : (new cursor options).Copied cursor.tokens :=
  ⟨rfl, List.forall_mem_nil _⟩

theorem Copies.withPosition {result : Reply Token × Parser}
    (h : Copies tokens (· ∈ tokens) result) (position : Nat) :
    Copies tokens (fun token => ∃ read ∈ tokens, token.text = read.text) (withPosition position result) :=
  withPosition_outcome (h.mono (fun _ hfails => hfails) fun token _ hdone => ⟨⟨token, hdone.1, rfl⟩, hdone.2⟩)

namespace Copied

variable {parser later : Parser} {good : α → Prop}

theorem of_same (h : parser.Copied tokens) (hcursor : later.cursor.tokens = parser.cursor.tokens)
    (htree : later.tree = parser.tree) : later.Copied tokens :=
  ⟨hcursor.trans h.tokens_eq, htree ▸ h.texts⟩

theorem of_reports (h : parser.Copied tokens) (hreports : later.Reports parser) : later.Copied tokens := by
  rcases hreports with heq | ⟨diagnostic, heq⟩ <;> rw [heq]
  · exact h
  · exact h.of_same rfl rfl

theorem declared (h : parser.Copied tokens) (symbols : SymbolTable) (id : SymbolId) (declared : Declared) :
    (({ parser with symbols } : Parser).reportDeclared id declared).Copied tokens :=
  have hchanged : Copied tokens { parser with symbols } := h.of_same rfl rfl
  hchanged.of_reports (reportDeclared_reports ..)

theorem advance (h : parser.Copied tokens) {token : Token} {cursor : Cursor}
    (hadvance : parser.cursor.advance = .ok (token, cursor)) :
    token ∈ tokens ∧ Copied tokens { parser with cursor } := by
  have hcurrent : parser.current ∈ parser.cursor.tokens := Array.getElem_mem parser.cursor.position_lt
  unfold Cursor.advance at hadvance
  split at hadvance
  · cases hadvance
  · obtain ⟨rfl, rfl⟩ := Prod.mk.inj (Except.ok.inj hadvance)
    exact ⟨h.tokens_eq ▸ hcurrent, h.of_same rfl rfl⟩

theorem recordMismatch (h : parser.Copied tokens) (expected : String) :
    (parser.recordMismatch expected).Copied tokens := by
  obtain ⟨furthest, heq⟩ := parser.recordMismatch_eq expected
  exact h.of_same (heq ▸ rfl) (heq ▸ rfl)

theorem take (h : parser.Copied tokens) : Copies tokens (· ∈ tokens) parser.take := by
  unfold Parser.take
  cases hadvance : parser.cursor.advance with
  | ok next => exact h.advance hadvance
  | error error => exact h

theorem expectChoice (h : parser.Copied tokens) (kind : TokenKind) :
    Copies tokens (· ∈ tokens) (parser.expectChoice kind) := by
  unfold Parser.expectChoice
  split
  · exact h.take
  · exact h.recordMismatch _

theorem expect (h : parser.Copied tokens) (kind : TokenKind) : Copies tokens (· ∈ tokens) (parser.expect kind) := by
  unfold Parser.expect
  split
  · exact h.take
  · split
    · exact h
    · exact h.recordMismatch _

theorem push (h : parser.Copied tokens) {node : Node}
    (htexts : ∀ text ∈ node.payload.texts, AdaSyntax.Copied tokens text) :
    Copied tokens { parser with tree := ⟨parser.tree.nodes.push node⟩ } := by
  refine ⟨h.tokens_eq, fun other hother => ?_⟩
  rcases List.mem_append.mp (Array.toList_push ▸ hother) with hold | hnew
  · exact h.texts other hold
  · rw [List.mem_singleton.mp hnew]
    exact htexts

theorem fillNode (h : parser.Copied tokens) (id : NodeId) (start : Nat) {payload : Payload Range}
    (htexts : ∀ text ∈ payload.texts, AdaSyntax.Copied tokens text) :
    Copies tokens (fun _ => True) (parser.fillNode id start payload) := by
  unfold Parser.fillNode Tree.fill
  cases parser.tree.get? id with
  | none => exact h
  | some reserved =>
    dsimp only
    cases reserved.payload.isPlaceholder && !payload.isPlaceholder with
    | false => exact h
    | true =>
      refine ⟨trivial, h.tokens_eq, fun node hnode => ?_⟩
      rcases List.mem_or_eq_of_mem_set (Array.toList_setIfInBounds ▸ hnode) with hold | rfl
      · exact h.texts node hold
      · exact htexts

theorem perform (h : parser.Copied tokens) (op : Op α) (htexts : ∀ text ∈ op.texts, AdaSyntax.Copied tokens text) :
    Copies tokens (op.Reads tokens) (parser.perform op) := by
  cases op with
  | take => exact h.take.withPosition _
  | expect kind => exact (h.expect kind).withPosition _
  | expectChoice kind => exact (h.expectChoice kind).withPosition _
  | add start payload =>
    refine ⟨trivial, h.push ?_⟩
    rwa [Payload.texts_map]
  | reserve start => exact ⟨trivial, h.push (List.forall_mem_nil _)⟩
  | fill id start payload =>
    refine h.fillNode id _ ?_
    rwa [Payload.texts_map]
  | declare name kind node shape => exact ⟨trivial, h.declared ..⟩
  | bind id => exact ⟨trivial, h.declared ..⟩
  | closeRegion =>
    simp only [Parser.perform]
    cases parser.symbols.closeRegion with
    | none => exact ⟨trivial, h⟩
    | some closed => exact ⟨trivial, h.of_same rfl rfl⟩
  | find finding => exact ⟨trivial, h.of_reports (parser.find_reports finding)⟩
  | _ => exact ⟨trivial, h.of_same rfl rfl⟩

theorem restore (h : parser.Copied tokens) (checkpoint : Checkpoint) : (parser.restore checkpoint).2.Copied tokens := by
  have hrestored := restore_restored parser checkpoint
  generalize parser.restore checkpoint = result at hrestored
  cases hrestored with
  | outside hposition => exact h
  | halfway cursor htokens => exact ⟨htokens.trans h.tokens_eq, h.texts⟩
  | back cursor log htokens =>
    exact ⟨htokens.trans h.tokens_eq, fun node hnode => h.texts node ((Tree.truncate_isPrefix _ _).mem hnode)⟩

theorem settle (checkpoint : Checkpoint) {result : Reply α × Parser} (h : Copies tokens good result) :
    Copies tokens good (settle checkpoint result) := by
  obtain ⟨reply, later⟩ := result
  cases reply with
  | matched value => exact h
  | _ =>
    have hrestored := restore h checkpoint
    simp only [Parser.settle]
    generalize later.restore checkpoint = restored at hrestored ⊢
    obtain ⟨error, restored⟩ := restored
    cases error <;> exact hrestored

theorem nested (h : parser.Copied tokens) {body : Parser → Reply α × Parser}
    (hbody : ∀ parser : Parser, parser.Copied tokens → Copies tokens good (body parser)) :
    Copies tokens good (parser.nested body) := by
  unfold Parser.nested
  cases hdescend : parser.descend with
  | error error => exact h
  | ok inner =>
    obtain rfl := eq_deeper_of_descend hdescend
    have hinner := hbody parser.deeper (h.of_same rfl rfl)
    dsimp only
    generalize body parser.deeper = result at hinner ⊢
    obtain ⟨reply, later⟩ := result
    cases reply with
    | matched value => exact ⟨hinner.1, hinner.2.of_same rfl rfl⟩
    | _ => exact of_same hinner rfl rfl

theorem attempt (h : parser.Copied tokens) {body : Parser → Reply α × Parser}
    (hbody : ∀ parser : Parser, parser.Copied tokens → Copies tokens good (body parser)) :
    Copies tokens good (parser.attempt body) :=
  settle _ (h.nested hbody)

theorem repeatUntil {body : σ → Parser → Reply (σ ⊕ α) × Parser} {keeps : σ → Prop}
    (hbody : ∀ state, keeps state → ∀ parser : Parser, parser.Copied tokens →
      Copies tokens (Sum.elim keeps good) (body state parser))
    (fuel : Nat) {state : σ} (hstate : keeps state) (h : parser.Copied tokens) :
    Copies tokens good (Parser.repeatUntil body fuel state parser) := by
  induction fuel generalizing state parser with
  | zero => exact h
  | succ fuel ih =>
    have hround := hbody state hstate parser h
    rw [Parser.repeatUntil]
    generalize body state parser = result at hround ⊢
    obtain ⟨reply, later⟩ := result
    cases reply with
    | matched result =>
      cases result with
      | inl state => exact ih hround.1 hround.2
      | inr value => exact hround
    | _ => exact hround

section

variable {item : Parser → Reply NodeId × Parser}
  (hitem : ∀ parser : Parser, parser.Copied tokens → Copies tokens (fun _ => True) (item parser))

include hitem

theorem itemRound (context : Context) (code : Code) (h : parser.Copied tokens) :
    Copies tokens (fun _ => True) (parser.itemRound context code item) := by
  have hforget : parser.forgetMismatch.Copied tokens := h.of_same rfl rfl
  have hattempt := hforget.attempt hitem
  unfold Parser.itemRound
  generalize parser.forgetMismatch.attempt item = result at hattempt ⊢
  obtain ⟨reply, later⟩ := result
  cases reply with
  | matched node => exact ⟨trivial, hattempt.2.of_same rfl rfl⟩
  | mismatch =>
    obtain ⟨diagnostic, cursor, furthest, heq, hmoves, -⟩ :=
      later.dropItem_eq context code parser.position parser.furthest
    have hlater : Copied tokens { later.report diagnostic with cursor, furthest } := of_same hattempt hmoves.tokens rfl
    exact ⟨trivial, heq ▸ hlater⟩
  | _ => exact hattempt

theorem parseItems (context : Context) (code : Code) (fuel : Nat) (items : List NodeId) (h : parser.Copied tokens) :
    Copies tokens (fun _ => True) (parseItems context code item fuel items parser) := by
  induction fuel generalizing items parser with
  | zero => exact h
  | succ fuel ih =>
    have hround := itemRound hitem context code h
    rw [parseItems_succ]
    split
    · exact ⟨trivial, h⟩
    · generalize parser.itemRound context code item = result at hround ⊢
      obtain ⟨reply, later⟩ := result
      cases reply with
      | matched node => exact ih _ hround.2
      | _ => exact hround

theorem parseList (context : Context) (code : Code) (h : parser.Copied tokens) :
    Copies tokens (fun _ => True) (parser.parseList context code item) := by
  have hpush : (parser.pushContext context).Copied tokens := h.of_same rfl rfl
  have hitems := parseItems hitem context code (parser.cursor.remaining + 1) [] hpush
  rw [Parser.parseList]
  generalize Parser.parseItems context code item _ [] _ = result at hitems ⊢
  obtain ⟨reply, later⟩ := result
  cases reply with
  | matched nodes => exact ⟨trivial, hitems.2.of_same rfl rfl⟩
  | _ => exact of_same hitems rfl rfl

end

end Copied

end Parser

open AdaSyntax.Parser (Copied)

theorem Program.Writes.run {calls : ∀ {α : Type}, Production α → Parser → Reply α × Parser}
    (hcalls : ∀ {α : Type} (production : Production α) (parser : Parser), parser.Copied tokens →
      Parser.Copies tokens (fun _ => True) (calls production parser))
    (program : Program α) {good : α → Prop} (h : program.Writes tokens good) (parser : Parser)
    (hparser : parser.Copied tokens) : Parser.Copies tokens good (program.run calls parser) := by
  induction program generalizing parser with
  | pure value => exact ⟨h, hparser⟩
  | bind first next ihfirst ihnext =>
    have hfirst := ihfirst h parser hparser
    change Parser.Copies tokens good ((first >>= next).run calls parser)
    rw [run_bind]
    generalize first.run calls parser = result at hfirst ⊢
    obtain ⟨reply, later⟩ := result
    cases reply with
    | matched value => exact ihnext value hfirst.1 later hfirst.2
    | _ => exact hfirst
  | step op =>
    exact (hparser.perform op h.1).mono (fun _ hfails => hfails) fun value _ hdone =>
      ⟨h.2 value hdone.1, hdone.2⟩
  | reject expected => exact hparser.recordMismatch expected
  | fail => exact hparser
  | call production =>
    exact (hcalls production parser hparser).mono (fun _ hfails => hfails) fun value _ hdone => ⟨h value, hdone.2⟩
  | attempt body ih =>
    have hattempt := hparser.attempt (ih h.1)
    rw [run_attempt]
    generalize parser.attempt (body.run calls) = result at hattempt ⊢
    obtain ⟨reply, later⟩ := result
    cases reply with
    | mismatch => exact ⟨h.2, hattempt⟩
    | _ => exact hattempt
  | nested body ih => exact hparser.nested (ih h)
  | loop body state ih =>
    obtain ⟨keeps, hstate, hbody⟩ := h
    exact Copied.repeatUntil (fun state hkeeps => ih state (hbody state hkeeps)) _ hstate hparser
  | items context code item ih =>
    exact (Copied.parseList (ih h.1) context code hparser).mono (fun _ hfails => hfails) fun nodes _ hdone =>
      ⟨h.2 nodes, hdone.2⟩

end AdaSyntax
