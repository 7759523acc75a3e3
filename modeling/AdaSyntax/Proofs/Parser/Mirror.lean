import AdaSyntax.Proofs.Parser.Since

namespace AdaSyntax

namespace Reply

variable {α : Type}

def mapFatal (f : Fatal → Fatal) : Reply α → Reply α
  | matched value => .matched value
  | mismatch => .mismatch
  | fatal error => .fatal (f error)
  | exhausted => .exhausted

@[simp] theorem mapFatal_id (reply : Reply α) : reply.mapFatal id = reply := by
  cases reply <;> rfl

end Reply

namespace Parser

structure Mirror where
  image : Parser → Parser
  retell : Fatal → Fatal
  /-- After these errors the two runs may differ. -/
  cuts : Fatal → Prop
  /-- The parsers whose image is looked at. -/
  sees : Parser → Prop

namespace Mirror

variable {α β σ : Type}

def reflect (mirror : Mirror) (result : Reply α × Parser) : Reply α × Parser :=
  (result.1.mapFatal mirror.retell, mirror.image result.2)

def Shows (mirror : Mirror) (result result' : Reply α × Parser) : Prop :=
  (∃ error, result.1 = .fatal error ∧ mirror.cuts error) ∨ result' = mirror.reflect result

structure Basic (mirror : Mirror) : Prop where
  kind (parser : Parser) : (mirror.image parser).kind = parser.kind
  position (parser : Parser) : (mirror.image parser).position = parser.position
  remaining (parser : Parser) : (mirror.image parser).cursor.remaining = parser.cursor.remaining
  furthest (parser : Parser) : (mirror.image parser).furthest = parser.furthest
  withFurthest (parser : Parser) (furthest : Option Mismatch) :
    ({ mirror.image parser with furthest } : Parser) = mirror.image { parser with furthest }
  endOfStream (parser : Parser) :
    Fatal.endOfStream (mirror.image parser).start = mirror.retell (.endOfStream parser.start)
  take (parser : Parser) (position : Nat) :
    withPosition position (mirror.image parser).take = mirror.reflect (withPosition position parser.take)

namespace Basic

variable {mirror : Mirror} (basic : mirror.Basic) (parser : Parser)

include basic

theorem atAny (kinds : List TokenKind) : (mirror.image parser).atAny kinds = parser.atAny kinds :=
  congrArg kinds.contains (basic.kind parser)

theorem atEnd : (mirror.image parser).cursor.atEnd = parser.cursor.atEnd :=
  congrArg (fun kind => decide (kind = TokenKind.endOfFile)) (basic.kind parser)

theorem atListEnd (context : Context) : (mirror.image parser).atListEnd context = parser.atListEnd context := by
  simp only [Parser.atListEnd, basic.atEnd, basic.atAny]

theorem forgetMismatch : (mirror.image parser).forgetMismatch = mirror.image parser.forgetMismatch :=
  basic.withFurthest parser none

theorem mergeMismatch (outer : Option Mismatch) :
    (mirror.image parser).mergeMismatch outer = mirror.image (parser.mergeMismatch outer) := by
  simp only [Parser.mergeMismatch, basic.furthest]
  exact basic.withFurthest parser _

theorem recordMismatch (expected : String) :
    (mirror.image parser).recordMismatch expected = mirror.image (parser.recordMismatch expected) := by
  simp only [Parser.recordMismatch, basic.furthest, basic.position, basic.withFurthest]
  split
  · split <;> rfl
  · rfl

theorem expectChoice (position : Nat) (kind : TokenKind) :
    withPosition position ((mirror.image parser).expectChoice kind) =
      mirror.reflect (withPosition position (parser.expectChoice kind)) := by
  simp only [Parser.expectChoice, basic.kind, basic.recordMismatch]
  split
  · exact basic.take parser position
  · rfl

theorem expect (position : Nat) (kind : TokenKind) :
    withPosition position ((mirror.image parser).expect kind) =
      mirror.reflect (withPosition position (parser.expect kind)) := by
  simp only [Parser.expect, basic.kind, basic.atEnd, basic.endOfStream, basic.recordMismatch]
  split
  · exact basic.take parser position
  · split <;> rfl

theorem skip : (mirror.image parser).skip = mirror.image parser.skip := by
  have hskip : ∀ parser : Parser, parser.skip = (withPosition 0 parser.take).2 := by
    intro parser
    simp only [Parser.skip, Parser.take]
    cases parser.cursor.advance <;> rfl
  rw [hskip, hskip, basic.take]
  rfl

theorem skipPast (closers : List TokenKind) (fuel : Nat) :
    Parser.skipPast closers fuel (mirror.image parser) = mirror.image (Parser.skipPast closers fuel parser) := by
  induction fuel generalizing parser with
  | zero => rfl
  | succ fuel ih =>
    simp only [Parser.skipPast, basic.atEnd, basic.atAny, basic.kind, basic.skip, ih]
    split
    · rfl
    · split <;> rfl

theorem resynchronize (closers : List TokenKind) :
    (mirror.image parser).resynchronize closers = mirror.image (parser.resynchronize closers) := by
  simp only [Parser.resynchronize, basic.kind, basic.remaining, basic.skip, basic.skipPast]
  split <;> rfl

end Basic

structure Faithful (mirror : Mirror) : Prop extends mirror.Basic where
  recoverable {parser : Parser} : mirror.sees parser → parser.symbols.Recoverable
  move {parser later : Parser} : mirror.sees parser → Move parser later → mirror.sees later
  checkpoint (parser : Parser) : (mirror.image parser).checkpoint = parser.checkpoint
  perform {α : Type} (op : Op α) (parser : Parser) :
    (mirror.image parser).perform op = mirror.reflect (parser.perform op)
  descend {parser : Parser} : mirror.sees parser →
    (∃ error, parser.descend = .error error ∧ mirror.cuts error) ∨
      (mirror.image parser).descend = (parser.descend.mapError mirror.retell).map mirror.image
  ascend (parser : Parser) : (mirror.image parser).ascend = mirror.image parser.ascend
  pushContext (parser : Parser) (context : Context) :
    (mirror.image parser).pushContext context = mirror.image (parser.pushContext context)
  popContext (parser : Parser) : (mirror.image parser).popContext = mirror.image parser.popContext
  reportUnrecognized (parser : Parser) (context : Context) (code : Code) (first : Nat) :
    (mirror.image parser).reportUnrecognized context code first =
      mirror.image (parser.reportUnrecognized context code first)
  restore (parser : Parser) (checkpoint : Checkpoint) :
    (mirror.image parser).restore checkpoint =
      ((parser.restore checkpoint).1.map mirror.retell, mirror.image (parser.restore checkpoint).2)

structure Follows (mirror : Mirror) (body : Parser → Reply α × Parser) : Prop where
  shows : ∀ parser, mirror.sees parser → mirror.Shows (body parser) (body (mirror.image parser))
  since : ∀ base parser : Parser, base.Since parser → base.Since (body parser).2

namespace Faithful

variable {mirror : Mirror} (faithful : mirror.Faithful)

include faithful

theorem since {base later : Parser} (hbase : mirror.sees base) (h : base.Since later) :
    mirror.sees later := by
  induction h with
  | refl => exact hbase
  | act _ hact ih => exact faithful.move ih hact.move
  | restore _ _ ih _ => exact faithful.move ih (.restore _)

theorem dropItem (parser : Parser) (context : Context) (code : Code) (first : Nat)
    (outer : Option Mismatch) : (mirror.image parser).dropItem context code first outer =
      mirror.image (parser.dropItem context code first outer) := by
  simp only [Parser.dropItem, faithful.reportUnrecognized, faithful.resynchronize, faithful.mergeMismatch]

theorem settle {parser : Parser} {result result' : Reply α × Parser} (hcovers : result.2.Covers parser)
    (h : mirror.Shows result result') :
    mirror.Shows (Parser.settle parser.checkpoint result) (Parser.settle parser.checkpoint result') := by
  rcases h with ⟨error, herror, hcut⟩ | rfl
  · obtain ⟨reply, later⟩ := result
    obtain rfl : reply = .fatal error := herror
    refine .inl ⟨error, ?_, hcut⟩
    simp only [Parser.settle, hcovers.restore]
  · refine .inr ?_
    obtain ⟨reply, later⟩ := result
    cases reply with
    | matched value => rfl
    | _ =>
      simp only [reflect, Reply.mapFatal, Parser.settle, faithful.restore]
      generalize later.restore parser.checkpoint = restored
      obtain ⟨error, restored⟩ := restored
      cases error <;> rfl

end Faithful

namespace Follows

variable {mirror : Mirror}

theorem reply (reply : Reply α) (h : reply.mapFatal mirror.retell = reply) :
    mirror.Follows fun parser => (reply, parser) where
  shows parser _ := .inr (congrArg (·, mirror.image parser) h.symm)
  since _ _ h := h

theorem next (faithful : mirror.Faithful) {body : Parser → Reply β × Parser}
    {whole : Parser → Reply α × Parser} (hbody : mirror.Follows body)
    (rest : Option β → Parser → Reply α × Parser) (hrest : ∀ found, mirror.Follows (rest found))
    (hwhole : ∀ parser, whole parser =
      match body parser with
      | (.matched value, later) => rest (some value) later
      | (.mismatch, later) => rest none later
      | (.fatal error, later) => (.fatal error, later)
      | (.exhausted, later) => (.exhausted, later)) : mirror.Follows whole where
  shows := by
    intro parser hsees
    have hresult := hbody.shows parser hsees
    have hlater := faithful.since hsees (hbody.since parser parser .refl)
    rw [hwhole, hwhole]
    generalize body parser = result at hresult hlater ⊢
    generalize body (mirror.image parser) = result' at hresult ⊢
    obtain ⟨reply, later⟩ := result
    rcases hresult with ⟨error, herror, hcut⟩ | rfl
    · obtain rfl : reply = .fatal error := herror
      exact .inl ⟨error, rfl, hcut⟩
    · cases reply with
      | matched value => exact (hrest (some value)).shows later hlater
      | mismatch => exact (hrest none).shows later hlater
      | fatal error => exact .inr rfl
      | exhausted => exact .inr rfl
  since := by
    intro base parser h
    have hlater := hbody.since base parser h
    rw [hwhole]
    generalize body parser = result at hlater ⊢
    obtain ⟨reply, later⟩ := result
    cases reply with
    | matched value => exact (hrest (some value)).since base later hlater
    | mismatch => exact (hrest none).since base later hlater
    | _ => exact hlater

theorem nested (faithful : mirror.Faithful) {body : Parser → Reply α × Parser} (h : mirror.Follows body) :
    mirror.Follows (·.nested body) where
  shows := by
    intro parser hsees
    rcases faithful.descend hsees with ⟨error, hdescend, hcut⟩ | himage
    · refine .inl ⟨error, ?_, hcut⟩
      simp only [Parser.nested, hdescend]
    · simp only [Parser.nested, himage]
      cases hdescend : parser.descend with
      | error error => exact .inr rfl
      | ok deeper =>
        have hdeeper := h.shows deeper (faithful.move hsees (.descend hdescend))
        have himage : ((.ok deeper : Except Fatal Parser).mapError mirror.retell).map mirror.image =
            .ok (mirror.image deeper) := rfl
        rw [himage]
        dsimp only
        generalize body deeper = result at hdeeper ⊢
        generalize body (mirror.image deeper) = result' at hdeeper ⊢
        rcases hdeeper with hcut | rfl
        · exact .inl hcut
        · exact .inr (congrArg (Prod.mk _) (faithful.ascend _))
  since base parser hparser := base.since_kept.nested (h.since base) hparser

theorem attempt (faithful : mirror.Faithful) {body : Parser → Reply α × Parser} (h : mirror.Follows body) :
    mirror.Follows (·.attempt body) where
  shows := by
    intro parser hsees
    have hbody := h.since parser.deeper parser.deeper .refl
    have hrecoverable := faithful.recoverable hsees
    have hcovers := nested_covers (hbody.covers hrecoverable)
    simp only [Parser.attempt, faithful.checkpoint]
    exact faithful.settle hcovers ((h.nested faithful).shows parser hsees)
  since base parser hparser := base.since_kept.attempt (h.since base) hparser

theorem repeatUntil (faithful : mirror.Faithful) {body : σ → Parser → Reply (σ ⊕ α) × Parser}
    (h : ∀ state, mirror.Follows (body state)) (fuel : Nat) (state : σ) :
    mirror.Follows (Parser.repeatUntil body fuel state) := by
  induction fuel generalizing state with
  | zero => exact .reply .exhausted rfl
  | succ fuel ih =>
    refine (h state).next faithful (fun found => found.elim (fun parser => (.mismatch, parser)) fun outcome =>
      outcome.elim (Parser.repeatUntil body fuel) fun value parser => (.matched value, parser))
      (fun found => ?_) fun parser => ?_
    · rcases found with _ | state | value
      · exact .reply .mismatch rfl
      · exact ih state
      · exact .reply (.matched value) rfl
    · rw [Parser.repeatUntil]
      generalize body state parser = result
      obtain ⟨reply, later⟩ := result
      cases reply with
      | matched value => cases value <;> rfl
      | _ => rfl

theorem parseItems (faithful : mirror.Faithful) {item : Parser → Reply NodeId × Parser}
    (h : mirror.Follows item) (context : Context) (code : Code) (fuel : Nat) (items : List NodeId) :
    mirror.Follows (Parser.parseItems context code item fuel items) where
  shows := by
    induction fuel generalizing items with
    | zero => exact fun _ _ => .inr rfl
    | succ fuel ih =>
      intro parser hsees
      have hforget := faithful.move hsees .forgetMismatch
      have hattempt := (h.attempt faithful).shows parser.forgetMismatch hforget
      have hlater := faithful.since hforget ((h.attempt faithful).since _ _ .refl)
      rw [Parser.parseItems, Parser.parseItems, faithful.atListEnd, faithful.forgetMismatch,
        faithful.position, faithful.furthest]
      split
      · exact .inr rfl
      · dsimp only at hattempt hlater ⊢
        generalize parser.forgetMismatch.attempt item = result at hattempt hlater ⊢
        generalize (mirror.image parser.forgetMismatch).attempt item = result' at hattempt ⊢
        obtain ⟨reply, later⟩ := result
        rcases hattempt with ⟨error, herror, hcut⟩ | rfl
        · obtain rfl : reply = .fatal error := herror
          exact .inl ⟨error, rfl, hcut⟩
        · cases reply with
          | matched node =>
            simp only [reflect, Reply.mapFatal, faithful.mergeMismatch]
            exact ih _ _ (faithful.move hlater (.mergeMismatch _))
          | mismatch =>
            simp only [reflect, Reply.mapFatal, faithful.dropItem]
            exact ih _ _ (faithful.since hlater (later.since_kept.dropItem _ _ _ _ .refl))
          | fatal error => exact .inr rfl
          | exhausted => exact .inr rfl
  since base parser hparser := base.since_kept.parseItems (h.since base) context code fuel items hparser

theorem parseList (faithful : mirror.Faithful) {item : Parser → Reply NodeId × Parser}
    (h : mirror.Follows item) (context : Context) (code : Code) :
    mirror.Follows fun parser => parser.parseList context code item where
  shows := by
    intro parser hsees
    have hitems := (h.parseItems faithful context code (parser.cursor.remaining + 1) []).shows
      (parser.pushContext context) (faithful.move hsees (.pushContext context))
    simp only [Parser.parseList, faithful.remaining, faithful.pushContext]
    generalize Parser.parseItems context code item _ _ (parser.pushContext context) = result at hitems ⊢
    generalize Parser.parseItems context code item _ _ _ = result' at hitems ⊢
    rcases hitems with hcut | rfl
    · exact .inl hcut
    · exact .inr (congrArg (Prod.mk _) (faithful.popContext _))
  since base parser hparser := by
    have hpush : base.Since (parser.pushContext context) := hparser.act (.pushContext context)
    have hitems := base.since_kept.parseItems (h.since base) context code (parser.cursor.remaining + 1) [] hpush
    exact hitems.act .popContext

theorem run (faithful : mirror.Faithful)
    {calls : ∀ {α : Type}, Production α → Parser → Reply α × Parser}
    (hcalls : ∀ {α : Type} (production : Production α), mirror.Follows (calls production))
    (program : Program α) : mirror.Follows (program.run calls) := by
  induction program with
  | pure value => exact .reply (.matched value) rfl
  | bind first next ihfirst ihnext =>
    refine ihfirst.next faithful (fun found => found.elim (fun parser => (.mismatch, parser)) fun value =>
      (next value).run calls) (fun found => ?_) fun parser => Program.run_bind ..
    cases found with
    | none => exact .reply .mismatch rfl
    | some value => exact ihnext value
  | step op => exact ⟨fun parser _ => .inr (faithful.perform op parser), fun _ _ h => h.act (.perform op)⟩
  | reject expected =>
    exact ⟨fun parser _ => .inr (congrArg (Prod.mk _) (faithful.recordMismatch parser expected)),
      fun _ _ h => h.act (.reject expected)⟩
  | fail => exact .reply .mismatch rfl
  | call production => exact hcalls production
  | attempt body ih =>
    refine (ih.attempt faithful).next faithful (fun found parser => (.matched found, parser))
      (fun found => .reply (.matched found) rfl) fun parser => (Program.run_attempt ..).trans ?_
    generalize parser.attempt (body.run calls) = result
    obtain ⟨reply, later⟩ := result
    cases reply <;> rfl
  | nested body ih => exact ih.nested faithful
  | loop body state ih =>
    refine ⟨fun parser hsees => ?_, fun base parser h =>
      (repeatUntil faithful ih (parser.cursor.remaining + 1) state).since base parser h⟩
    rw [Program.run_loop, Program.run_loop, faithful.remaining]
    exact (repeatUntil faithful ih (parser.cursor.remaining + 1) state).shows parser hsees
  | items context code item ih => exact ih.parseList faithful context code

theorem call (faithful : mirror.Faithful) (budget : Nat) (production : Production α) :
    mirror.Follows (Grammar.call budget production) := by
  induction budget generalizing α with
  | zero => exact .reply .exhausted rfl
  | succ budget ih => exact run faithful ih (Grammar.ofProduction production)

theorem execute (faithful : mirror.Faithful) (program : Program α) : mirror.Follows program.execute where
  shows parser hsees := by
    have hbudget : Grammar.callBudget (mirror.image parser) = Grammar.callBudget parser := by
      simp only [Grammar.callBudget, faithful.remaining]
    simp only [Program.execute, hbudget]
    exact (run faithful (call faithful (Grammar.callBudget parser)) program).shows parser hsees
  since base parser h := (run faithful (call faithful (Grammar.callBudget parser)) program).since base parser h

end Follows

end Mirror

end Parser

end AdaSyntax
