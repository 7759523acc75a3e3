import AdaSyntax.Proofs.Parser.Reach
import AdaSyntax.Proofs.Parser.Since

namespace AdaSyntax

namespace Reply

def isSettled {α : Type} : Reply α → Bool
  | matched _ | mismatch => true
  | _ => false

end Reply

namespace Parser

section

variable {α : Type}

theorem reach_le_merge (outer : Option Mismatch) (parser : Parser) :
    Mismatch.reach outer ≤ (parser.mergeMismatch outer).reach ∧ parser.reach ≤ (parser.mergeMismatch outer).reach := by
  simp only [mergeMismatch_eq, reach, Mismatch.reach_further]
  exact ⟨Nat.le_max_left _ _, Nat.le_max_right _ _⟩

theorem reach_le_dropItem (parser : Parser) (context : Context) (code : Code) (first : Nat)
    (outer : Option Mismatch) : parser.reach ≤ (parser.dropItem context code first outer).reach := by
  obtain ⟨cursor, hcursor, -⟩ := (parser.reportUnrecognized context code first).resynchronize_eq context.closers
  have hmerge := (reach_le_merge outer ((parser.reportUnrecognized context code first).resynchronize context.closers)).2
  rw [hcursor] at hmerge
  rw [dropItem, hcursor]
  exact hmerge

theorem settle_reach {checkpoint : Checkpoint} {result : Reply α × Parser}
    (h : (settle checkpoint result).1.isSettled = true) :
    result.1.isSettled = true ∧ (settle checkpoint result).2.reach = result.2.reach := by
  obtain ⟨reply, later⟩ := result
  have hreach := later.restore_reach checkpoint
  cases reply with
  | matched value => exact ⟨rfl, rfl⟩
  | _ =>
    simp only [settle] at h ⊢
    generalize later.restore checkpoint = restored at h hreach ⊢
    obtain ⟨error, restored⟩ := restored
    cases error with
    | none => first | exact ⟨rfl, hreach⟩ | cases h
    | some error => cases h

theorem nested_reach {body : Parser → Reply α × Parser} {parser : Parser}
    (h : (body parser.deeper).1.isSettled = true → parser.reach ≤ (body parser.deeper).2.reach)
    (hsettled : (parser.nested body).1.isSettled = true) : parser.reach ≤ (parser.nested body).2.reach := by
  unfold Parser.nested at hsettled ⊢
  cases hdescend : parser.descend with
  | error error => exact Nat.le_refl _
  | ok deeper =>
    obtain rfl := eq_deeper_of_descend hdescend
    rw [hdescend] at hsettled
    exact h hsettled

end

structure Tandem where
  alike : Parser → Parser → Prop
  /-- The positions at which both see the same token. -/
  seen : Nat → Prop
  /-- From here on the two may see different tokens, if the tandem is loose. -/
  bound : Nat
  loose : Prop

namespace Tandem

def Strays (t : Tandem) (parser : Parser) : Prop :=
  t.loose ∧ (t.bound ≤ parser.position ∨ t.bound < parser.reach)

structure Sound (t : Tandem) : Prop where
  symbols {first second : Parser} : t.alike first second → second.symbols = first.symbols
  position {first second : Parser} : t.alike first second → second.position = first.position
  furthest {first second : Parser} : t.alike first second → second.furthest = first.furthest
  noted {first second : Parser} : t.alike first second → ∀ mismatch ∈ first.furthest, t.seen mismatch.position
  withFurthest {first second : Parser} {furthest : Option Mismatch} : t.alike first second →
    (∀ mismatch ∈ furthest, t.seen mismatch.position) → t.alike { first with furthest } { second with furthest }
  shows {α : Type} {first second later : Parser} {op : Op α} {value : α} : t.alike first second →
    ¬t.Strays first → first.perform op = (.matched value, later) → op.Shows t.seen value
  perform {α : Type} {first second : Parser} {op : Op α} : t.alike first second → ¬t.Strays first →
    op.Minds t.seen → (second.perform op).1 = (first.perform op).1 ∧
      t.alike (first.perform op).2 (second.perform op).2
  descend {first second : Parser} : t.alike first second → ¬t.Strays first →
    (∃ error, first.descend = .error error ∧ second.descend = .error error) ∨
      first.descend = .ok first.deeper ∧ second.descend = .ok second.deeper
  deeper {first second : Parser} : t.alike first second → t.alike first.deeper second.deeper
  ascend {first second : Parser} : t.alike first second → t.alike first.ascend second.ascend
  pushContext {first second : Parser} (context : Context) : t.alike first second →
    t.alike (first.pushContext context) (second.pushContext context)
  popContext {first second : Parser} : t.alike first second → t.alike first.popContext second.popContext
  atListEnd {first second : Parser} (context : Context) : t.alike first second → ¬t.Strays first →
    second.atListEnd context = first.atListEnd context
  dropItem {first second : Parser} (context : Context) {code : Code} (hcode : code ≠ .undeclaredTypeMark)
    {outer : Option Mismatch} (houter : ∀ mismatch ∈ outer, t.seen mismatch.position) : t.alike first second →
    ¬t.Strays first → t.alike (first.dropItem context code first.position outer) (second.dropItem context code second.position outer)
  restore {base base' later later' : Parser} : t.alike base base' → t.alike later later' →
    later.Covers base → later'.Covers base' →
    t.alike (later.restore base.checkpoint).2 (later'.restore base'.checkpoint).2

variable {t : Tandem} {α β σ : Type} {good : α → Prop}

theorem Sound.further (sound : t.Sound) {first second : Parser} {earlier later : Option Mismatch}
    (h : t.alike first second) (hearlier : ∀ mismatch ∈ earlier, t.seen mismatch.position)
    (hlater : ∀ mismatch ∈ later, t.seen mismatch.position) :
    t.alike { first with furthest := Mismatch.further earlier later }
      { second with furthest := Mismatch.further earlier later } := by
  refine sound.withFurthest h fun mismatch hmem => ?_
  rcases Mismatch.mem_further hmem with hmem | hmem
  · exact hearlier mismatch hmem
  · exact hlater mismatch hmem

theorem Strays.mono {first second : Parser} (h : t.Strays first) (hposition : first.position ≤ second.position)
    (hreach : first.reach ≤ second.reach) : t.Strays second :=
  ⟨h.1, h.2.imp (Nat.le_trans · hposition) (Nat.lt_of_lt_of_le · hreach)⟩

theorem Strays.of_noted {parser restored : Parser} (h : t.Strays parser) (hnoted : parser.Noted)
    (hreach : restored.reach = parser.reach) : t.Strays restored := by
  refine ⟨h.1, .inr ?_⟩
  rw [hreach]
  exact h.2.elim (Nat.lt_of_le_of_lt · hnoted) id

inductive Agrees (t : Tandem) (good : α → Prop) : Reply α × Parser → Reply α × Parser → Prop where
  | exhausted {parser : Parser} {result : Reply α × Parser} : Agrees t good (.exhausted, parser) result
  | exhausted' {parser : Parser} {result : Reply α × Parser} : Agrees t good result (.exhausted, parser)
  | aborted {error : Fatal} {parser : Parser} {result : Reply α × Parser} (hloose : t.loose) :
      Agrees t good (.fatal error, parser) result
  | strays {reply : Reply α} {parser : Parser} {result : Reply α × Parser} (h : t.Strays parser) :
      Agrees t good (reply, parser) result
  | same {reply : Reply α} {first second : Parser} (h : t.alike first second)
      (hgood : ∀ value, reply = .matched value → good value) : Agrees t good (reply, first) (reply, second)

namespace Agrees

variable {good' : α → Prop} {result result' : Reply α × Parser} {first second : Parser}

theorem mono (h : t.Agrees good result result') (hgood : ∀ value, good value → good' value) :
    t.Agrees good' result result' := by
  cases h with
  | exhausted => exact .exhausted
  | exhausted' => exact .exhausted'
  | aborted hloose => exact .aborted hloose
  | strays h => exact .strays h
  | same h hvalue => exact .same h fun value heq => hgood value (hvalue value heq)

theorem nested (sound : t.Sound) {body body' : Parser → Reply α × Parser} (h : t.alike first second)
    (hstrays : ¬t.Strays first) (hbody : t.Agrees good (body first.deeper) (body' second.deeper)) :
    t.Agrees good (first.nested body) (second.nested body') := by
  unfold Parser.nested
  rcases sound.descend h hstrays with ⟨error, hfirst, hsecond⟩ | ⟨hfirst, hsecond⟩ <;> rw [hfirst, hsecond]
  · exact .same h nofun
  · dsimp only
    generalize body first.deeper = result at hbody ⊢
    generalize body' second.deeper = result' at hbody ⊢
    cases hbody with
    | exhausted => exact .exhausted
    | exhausted' => exact .exhausted'
    | aborted hloose => exact .aborted hloose
    | strays hlater => exact .strays hlater
    | same hlater hgood => exact .same (sound.ascend hlater) hgood

theorem settle (sound : t.Sound) (h : t.alike first second) (hcovers : result.2.Covers first)
    (hcovers' : result'.2.Covers second) (hnoted : result.1 = .mismatch → result.2.Noted)
    (hagrees : t.Agrees good result result') :
    t.Agrees good (Parser.settle first.checkpoint result) (Parser.settle second.checkpoint result') := by
  cases hagrees with
  | exhausted => simp only [Parser.settle, hcovers.restore]; exact .exhausted
  | exhausted' => simp only [Parser.settle, hcovers'.restore]; exact .exhausted'
  | aborted hloose => simp only [Parser.settle, hcovers.restore]; exact .aborted hloose
  | @strays reply later _ hlater =>
    cases reply with
    | matched value => exact .strays hlater
    | mismatch =>
      have hrestored := hlater.of_noted (hnoted rfl) (later.restore_reach first.checkpoint)
      simp only [Parser.settle]
      simp only [hcovers.restore] at hrestored ⊢
      exact .strays hrestored
    | fatal error => simp only [Parser.settle, hcovers.restore]; exact .aborted hlater.1
    | exhausted => simp only [Parser.settle, hcovers.restore]; exact .exhausted
  | @same reply later later' hlater hgood =>
    have hrestored := sound.restore h hlater hcovers hcovers'
    cases reply with
    | matched value => exact .same hlater hgood
    | _ =>
      simp only [Parser.settle]
      simp only [hcovers.restore, hcovers'.restore] at hrestored ⊢
      exact .same hrestored fun _ h => by cases h

end Agrees

structure Proceeds (body : Parser → Reply α × Parser) : Prop where
  allows (parser : Parser) : parser.Allows (body parser)
  reach_le (parser : Parser) : (body parser).1.isSettled = true → parser.reach ≤ (body parser).2.reach
  since (base parser : Parser) : base.Since parser → base.Since (body parser).2

def goOn (rest : Option β → Parser → Reply α × Parser) : Reply β × Parser → Reply α × Parser
  | (.matched value, parser) => rest (some value) parser
  | (.mismatch, parser) => rest none parser
  | (.fatal error, parser) => (.fatal error, parser)
  | (.exhausted, parser) => (.exhausted, parser)

def afterRound (loop : σ → Parser → Reply α × Parser) : Option (σ ⊕ α) → Parser → Reply α × Parser
  | some (.inl state), parser => loop state parser
  | some (.inr value), parser => (.matched value, parser)
  | none, parser => (.mismatch, parser)

theorem repeatUntil_succ (body : σ → Parser → Reply (σ ⊕ α) × Parser) (fuel : Nat) (state : σ) (parser : Parser) :
    Parser.repeatUntil body (fuel + 1) state parser =
      goOn (afterRound (Parser.repeatUntil body fuel)) (body state parser) := by
  rw [Parser.repeatUntil]
  generalize body state parser = result
  obtain ⟨reply, later⟩ := result
  cases reply with
  | matched value => cases value <;> rfl
  | _ => rfl

namespace Proceeds

variable {body : Parser → Reply α × Parser}

theorem recoverable (h : Proceeds body) {parser : Parser} (hparser : parser.symbols.Recoverable) :
    (body parser).2.symbols.Recoverable :=
  (h.since parser parser .refl).recoverable hparser

theorem agrees (h : Proceeds body) {parser : Parser} {result : Reply α × Parser} (hstrays : t.Strays parser) :
    t.Agrees good (body parser) result := by
  have hposition := (h.allows parser).continues.position_le
  have hreach := h.reach_le parser
  generalize body parser = result at hposition hreach ⊢
  obtain ⟨reply, later⟩ := result
  cases reply with
  | matched value => exact .strays (hstrays.mono hposition (hreach rfl))
  | mismatch => exact .strays (hstrays.mono hposition (hreach rfl))
  | fatal error => exact .aborted hstrays.1
  | exhausted => exact .exhausted

theorem run (program : Program α) (budget : Nat) : Proceeds (program.run (Grammar.call budget)) where
  allows := program.run_allows (Grammar.call_allows budget)
  reach_le parser hsettled := by
    generalize hrun : program.run (Grammar.call budget) parser = result at hsettled
    obtain ⟨reply, later⟩ := result
    refine Program.reach_le_of_run hrun (fun error heq => ?_) fun heq => ?_ <;> rw [heq] at hsettled <;> cases hsettled
  since base parser h := base.since_kept.run (base.since_kept.call budget) program parser h

theorem reply (reply : Reply α) (h : ∀ error, reply ≠ .fatal error) : Proceeds fun parser => (reply, parser) where
  allows parser := .of_continues (.refl parser) h
  reach_le _ _ := Nat.le_refl _
  since _ _ h := h

theorem attempt (h : Proceeds body) : Proceeds (·.attempt body) where
  allows _ := attempt_allows h.allows
  reach_le parser hsettled := by
    obtain ⟨hnested, hreach⟩ := settle_reach hsettled
    exact Nat.le_trans (nested_reach (h.reach_le parser.deeper) hnested) (Nat.le_of_eq hreach.symm)
  since base parser hparser := base.since_kept.attempt (h.since base) hparser

theorem repeatUntil {body : σ → Parser → Reply (σ ⊕ α) × Parser} (h : ∀ state, Proceeds (body state)) (fuel : Nat)
    (state : σ) : Proceeds (Parser.repeatUntil body fuel state) where
  allows _ := repeatUntil_allows (fun state => (h state).allows) fuel state
  reach_le parser hsettled := by
    induction fuel generalizing state parser with
    | zero => cases hsettled
    | succ fuel ih =>
      have hreach := (h state).reach_le parser
      rw [repeatUntil_succ] at hsettled ⊢
      generalize body state parser = result at hreach hsettled ⊢
      obtain ⟨reply, later⟩ := result
      cases reply with
      | matched value =>
        cases value with
        | inl state => exact Nat.le_trans (hreach rfl) (ih state later hsettled)
        | inr value => exact hreach rfl
      | mismatch => exact hreach rfl
      | fatal error => cases hsettled
      | exhausted => cases hsettled
  since base parser hparser := Kept.repeatUntil (fun state => (h state).since base) fuel state hparser

theorem parseItems {item : Parser → Reply NodeId × Parser} (h : Proceeds item) (context : Context) (code : Code)
    (fuel : Nat) (items : List NodeId) : Proceeds (Parser.parseItems context code item fuel items) where
  allows _ := parseItems_allows h.allows context code fuel items
  reach_le parser hsettled := by
    induction fuel generalizing items parser with
    | zero => cases hsettled
    | succ fuel ih =>
      rw [Parser.parseItems] at hsettled ⊢
      split at hsettled
      next hend => exact Nat.le_of_eq (by rw [if_pos hend])
      next hend =>
        rw [if_neg hend]
        dsimp only at hsettled ⊢
        generalize parser.forgetMismatch.attempt item = result at hsettled ⊢
        obtain ⟨reply, later⟩ := result
        cases reply with
        | matched node => exact Nat.le_trans (reach_le_merge parser.furthest later).1 (ih _ _ hsettled)
        | mismatch => exact Nat.le_trans (reach_le_merge parser.furthest _).1 (ih _ _ hsettled)
        | fatal error => cases hsettled
        | exhausted => cases hsettled
  since base parser hparser := base.since_kept.parseItems (h.since base) context code fuel items hparser

end Proceeds

def Couples (t : Tandem) (good : α → Prop) (body body' : Parser → Reply α × Parser) : Prop :=
  ∀ ⦃first second : Parser⦄, first.symbols.Recoverable → t.alike first second → ¬t.Strays first →
    t.Agrees good (body first) (body' second)

namespace Couples

theorem reply (reply : Reply α) (h : ∀ value, reply = .matched value → good value) :
    t.Couples good (fun parser => (reply, parser)) (fun parser => (reply, parser)) :=
  fun _ _ _ halike _ => .same halike h

theorem agrees {body body' : Parser → Reply α × Parser} (h : t.Couples good body body') (hproceeds : Proceeds body)
    {first second : Parser} (hrecoverable : first.symbols.Recoverable) (halike : t.alike first second) :
    t.Agrees good (body first) (body' second) := by
  by_cases hstrays : t.Strays first
  · exact hproceeds.agrees hstrays
  · exact h hrecoverable halike hstrays

theorem next {body body' : Parser → Reply β × Parser} {whole whole' : Parser → Reply α × Parser}
    {middle : β → Prop} (hbody : t.Couples middle body body') (hproceeds : Proceeds body)
    (rest rest' : Option β → Parser → Reply α × Parser)
    (hrest : ∀ found, (∀ value ∈ found, middle value) → t.Couples good (rest found) (rest' found))
    (hrests : ∀ found, Proceeds (rest found)) (hwhole : ∀ parser, whole parser = goOn rest (body parser))
    (hwhole' : ∀ parser, whole' parser = goOn rest' (body' parser)) : t.Couples good whole whole' := by
  intro first second hrecoverable halike hstrays
  have hagrees := hbody hrecoverable halike hstrays
  have hlater := hproceeds.recoverable hrecoverable
  rw [hwhole, hwhole']
  generalize body first = result at hagrees hlater ⊢
  generalize body' second = result' at hagrees ⊢
  have hstray {reply : Reply β} {later : Parser} {result : Reply α × Parser} (h : t.Strays later) :
      t.Agrees good (goOn rest (reply, later)) result := by
    cases reply with
    | matched value => exact (hrests (some value)).agrees h
    | mismatch => exact (hrests none).agrees h
    | fatal error => exact .aborted h.1
    | exhausted => exact .exhausted
  cases hagrees with
  | exhausted => exact .exhausted
  | exhausted' => exact .exhausted'
  | aborted hloose => exact .aborted hloose
  | strays h => exact hstray h
  | @same reply later later' hsame hgood =>
    cases reply with
    | matched value =>
      exact (hrest (some value) fun _ hfound => Option.some.inj hfound ▸ hgood value rfl).agrees (hrests _) hlater hsame
    | mismatch => exact (hrest none nofun).agrees (hrests _) hlater hsame
    | fatal error => exact .same hsame nofun
    | exhausted => exact .exhausted

theorem attempt (sound : t.Sound) {body body' : Parser → Reply α × Parser} (h : t.Couples good body body')
    (hproceeds : Proceeds body) (hproceeds' : Proceeds body')
    (hnoted : ∀ {parser later : Parser}, body parser = (.mismatch, later) → later.Noted) :
    t.Couples good (·.attempt body) (·.attempt body') := by
  intro first second hrecoverable halike hstrays
  have hcovers := nested_covers ((hproceeds.since first.deeper first.deeper .refl).covers hrecoverable)
  have hcovers' := nested_covers ((hproceeds'.since second.deeper second.deeper .refl).covers
    (sound.symbols halike ▸ hrecoverable))
  have hbody := @h first.deeper second.deeper hrecoverable (sound.deeper halike) hstrays
  refine .settle sound halike hcovers hcovers' (fun hmismatch => ?_) (.nested sound halike hstrays hbody)
  unfold Parser.nested at hmismatch ⊢
  cases hdescend : first.descend with
  | error error => rw [hdescend] at hmismatch; cases hmismatch
  | ok deeper =>
    rw [hdescend] at hmismatch
    dsimp only at hmismatch ⊢
    generalize hrun : body deeper = result at hmismatch ⊢
    obtain ⟨reply, later⟩ := result
    cases reply with
    | mismatch => exact (hnoted hrun : later.Noted)
    | _ => cases hmismatch

theorem repeatUntil {body body' : σ → Parser → Reply (σ ⊕ α) × Parser} {keeps : σ → Prop}
    (h : ∀ state, keeps state → t.Couples (Sum.elim keeps good) (body state) (body' state))
    (hproceeds : ∀ state, Proceeds (body state)) (fuel fuel' : Nat) {state : σ} (hstate : keeps state) :
    t.Couples good (Parser.repeatUntil body fuel state) (Parser.repeatUntil body' fuel' state) := by
  induction fuel generalizing fuel' state with
  | zero => exact fun _ _ _ _ _ => .exhausted
  | succ fuel ih =>
    cases fuel' with
    | zero => exact fun _ _ _ _ _ => .exhausted'
    | succ fuel' =>
      refine next (h state hstate) (hproceeds state) (afterRound (Parser.repeatUntil body fuel))
        (afterRound (Parser.repeatUntil body' fuel')) (fun found hfound => ?_) (fun found => ?_)
        (repeatUntil_succ body fuel state) (repeatUntil_succ body' fuel' state)
      · match found with
        | some (.inl state) => exact ih fuel' (hfound _ rfl)
        | some (.inr value) => exact .reply (.matched value) fun _ heq => Reply.matched.inj heq ▸ hfound _ rfl
        | none => exact .reply .mismatch nofun
      · match found with
        | some (.inl state) => exact .repeatUntil hproceeds fuel state
        | some (.inr value) => exact .reply _ nofun
        | none => exact .reply _ nofun

theorem parseItems (sound : t.Sound) {item item' : Parser → Reply NodeId × Parser}
    (h : t.Couples (fun _ => True) item item') (hproceeds : Proceeds item) (hproceeds' : Proceeds item')
    (hnoted : ∀ {parser later : Parser}, item parser = (.mismatch, later) → later.Noted) (context : Context)
    {code : Code} (hcode : code ≠ .undeclaredTypeMark) (fuel fuel' : Nat) (items : List NodeId) :
    t.Couples (fun _ => True) (Parser.parseItems context code item fuel items)
      (Parser.parseItems context code item' fuel' items) := by
  induction fuel generalizing fuel' items with
  | zero => exact fun _ _ _ _ _ => .exhausted
  | succ fuel ih =>
    cases fuel' with
    | zero => exact fun _ _ _ _ _ => .exhausted'
    | succ fuel' =>
      intro first second hrecoverable halike hstrays
      have hforget : t.alike first.forgetMismatch second.forgetMismatch := sound.withFurthest halike nofun
      have hstrays' : ¬t.Strays first.forgetMismatch := fun hforgot =>
        hstrays ⟨hforgot.1, .inl (hforgot.2.resolve_right (Nat.not_lt_zero _))⟩
      have hattempt := @attempt _ _ _ sound item item' h hproceeds hproceeds' hnoted first.forgetMismatch
        second.forgetMismatch hrecoverable hforget hstrays'
      have hlater := @Proceeds.recoverable _ _ hproceeds.attempt first.forgetMismatch hrecoverable
      have hback := @attempt_cursor _ first.forgetMismatch _ hproceeds.allows
      rw [Parser.parseItems, Parser.parseItems, sound.atListEnd context halike hstrays, sound.position halike,
        sound.furthest halike]
      split
      next => exact .same halike fun _ _ => trivial
      next =>
        dsimp only at hattempt hlater ⊢
        generalize first.forgetMismatch.attempt item = result at hattempt hlater hback ⊢
        generalize second.forgetMismatch.attempt item' = result' at hattempt ⊢
        have hdropped {parser : Parser} (hparser : parser.symbols.Recoverable) :
            (parser.dropItem context code first.position first.furthest).symbols.Recoverable :=
          (parser.since_kept.dropItem context code _ _ .refl).recoverable hparser
        have hrounds := Proceeds.parseItems hproceeds context code fuel
        cases hattempt with
        | exhausted => exact .exhausted
        | exhausted' => exact .exhausted'
        | aborted hloose => exact .aborted hloose
        | @strays reply later _ hstray =>
          cases reply with
          | matched node =>
            exact (hrounds _).agrees (hstray.mono (Nat.le_refl _) (reach_le_merge first.furthest later).2)
          | mismatch => exact (hrounds _).agrees (hstray.mono (later.dropItem_continues ..).position_le
              (later.reach_le_dropItem ..))
          | fatal error => exact .aborted hstray.1
          | exhausted => exact .exhausted
        | @same reply later later' hsame =>
          cases reply with
          | matched node =>
            refine (ih fuel' (node :: items)).agrees (hrounds _) hlater ?_
            rw [mergeMismatch_eq, mergeMismatch_eq, sound.furthest hsame]
            exact sound.further hsame (sound.noted halike) (sound.noted hsame)
          | mismatch =>
            by_cases hstray : t.Strays later
            · exact (hrounds _).agrees (hstray.mono (later.dropItem_continues ..).position_le
                (later.reach_le_dropItem ..))
            · refine (ih fuel' items).agrees (hrounds _) (hdropped hlater) ?_
              have hposition : later.position = first.position := congrArg Cursor.position (hback fun _ h => by cases h)
              have hdrop := sound.dropItem context hcode (sound.noted halike) hsame hstray
              rwa [sound.position hsame, hposition] at hdrop
          | fatal error => exact .same hsame fun _ h => by cases h
          | exhausted => exact .exhausted

theorem parseList (sound : t.Sound) {item item' : Parser → Reply NodeId × Parser}
    (h : t.Couples (fun _ => True) item item') (hproceeds : Proceeds item) (hproceeds' : Proceeds item')
    (hnoted : ∀ {parser later : Parser}, item parser = (.mismatch, later) → later.Noted) (context : Context)
    {code : Code} (hcode : code ≠ .undeclaredTypeMark) :
    t.Couples (fun _ => True) (·.parseList context code item) (·.parseList context code item') := by
  intro first second hrecoverable halike hstrays
  have hitems := parseItems sound h hproceeds hproceeds' hnoted context hcode (first.cursor.remaining + 1)
    (second.cursor.remaining + 1) []
  have hagrees := @hitems (first.pushContext context) (second.pushContext context) hrecoverable
    (sound.pushContext context halike) hstrays
  dsimp only [Parser.parseList]
  generalize Parser.parseItems context code item _ _ _ = result at hagrees ⊢
  generalize Parser.parseItems context code item' _ _ _ = result' at hagrees ⊢
  cases hagrees with
  | exhausted => exact .exhausted
  | exhausted' => exact .exhausted'
  | aborted hloose => exact .aborted hloose
  | strays hlater => exact .strays hlater
  | same hlater hgood => exact .same (sound.popContext hlater) hgood

end Couples

end Tandem

end Parser

namespace Program

open AdaSyntax.Parser AdaSyntax.Parser.Tandem

variable {t : Parser.Tandem} {α : Type} {budget budget' : Nat}

def orMismatch {β : Type} (rest : β → Parser → Reply α × Parser) : Option β → Parser → Reply α × Parser
  | some value, parser => rest value parser
  | none, parser => (.mismatch, parser)

theorem run_bind_eq {β : Type} (first : Program β) (next : β → Program α) (budget : Nat) (parser : Parser) :
    (first >>= next).run (Grammar.call budget) parser =
      goOn (orMismatch fun value => (next value).run (Grammar.call budget)) (first.run (Grammar.call budget) parser) := by
  rw [run_bind]
  generalize first.run (Grammar.call budget) parser = result
  obtain ⟨reply, later⟩ := result
  cases reply <;> rfl

theorem run_attempt_eq (body : Program α) (budget : Nat) (parser : Parser) :
    (Program.attempt body).run (Grammar.call budget) parser =
      goOn (fun found parser => (.matched found, parser)) (parser.attempt (body.run (Grammar.call budget))) := by
  rw [run_attempt]
  generalize parser.attempt (body.run (Grammar.call budget)) = result
  obtain ⟨reply, later⟩ := result
  cases reply <;> rfl

theorem Heeds.couples (sound : t.Sound)
    (hcalls : ∀ {α : Type} (production : Production α),
      t.Couples (fun _ => True) (Grammar.call budget production) (Grammar.call budget' production))
    {program : Program α} {noted noted' : Bool} {done done' : Bool → α → Prop} (h : program.Heeds t.seen noted done)
    (hall : program.Heeds (fun _ => True) noted' done') :
    t.Couples (fun value => (∃ noted, done noted value) ∧ ∃ noted, done' noted value)
      (program.run (Grammar.call budget)) (program.run (Grammar.call budget')) := by
  induction program generalizing noted noted' with
  | pure value => exact .reply _ fun _ heq => Reply.matched.inj heq ▸ ⟨⟨_, h⟩, _, hall⟩
  | bind first next ihfirst ihnext =>
    refine (ihfirst h hall).next (.run first budget) (orMismatch fun value => (next value).run (Grammar.call budget))
      (orMismatch fun value => (next value).run (Grammar.call budget')) (fun found hfound => ?_) (fun found => ?_)
      (fun parser => run_bind_eq first next budget parser) (fun parser => run_bind_eq first next budget' parser)
    · cases found with
      | none => exact .reply _ nofun
      | some value =>
        obtain ⟨⟨_, hnext⟩, _, hallnext⟩ := hfound value rfl
        exact ihnext value hnext hallnext
    · cases found with
      | none => exact .reply _ nofun
      | some value => exact .run (next value) budget
  | step op =>
    intro first second hrecoverable halike hstrays
    obtain ⟨hreply, hlater⟩ := sound.perform halike hstrays h.1
    change t.Agrees _ (first.perform op) (second.perform op)
    generalize hfirst : first.perform op = result at hreply hlater ⊢
    generalize second.perform op = result' at hreply hlater ⊢
    obtain ⟨reply, later⟩ := result
    obtain ⟨reply', later'⟩ := result'
    obtain rfl : reply' = reply := hreply
    refine .same hlater fun value heq => ?_
    subst heq
    exact ⟨⟨_, h.2 value (sound.shows halike hstrays hfirst)⟩, _, hall.2 value (Op.shows_all op value)⟩
  | reject expected =>
    intro first second _ halike hstrays
    refine .same ?_ nofun
    rw [recordMismatch_eq_further, recordMismatch_eq_further, sound.position halike, sound.furthest halike]
    have hhere : t.seen first.position := @Tandem.Sound.shows _ sound _ _ _ _ .position _ halike hstrays rfl
    exact sound.further halike (sound.noted halike) fun mismatch hmem => Option.some.inj hmem ▸ hhere
  | fail => exact .reply _ nofun
  | call production =>
    exact fun first second hrecoverable halike hstrays => (hcalls production hrecoverable halike hstrays).mono
      fun value _ => ⟨⟨_, h value⟩, _, hall value⟩
  | attempt body ih =>
    refine (Couples.attempt sound (ih h.1 hall.1) (.run body budget) (.run body budget') (noted_of_run hall.1)).next
      (Proceeds.run body budget).attempt (fun found parser => (.matched found, parser))
      (fun found parser => (.matched found, parser)) (fun found hfound => .reply _ fun value heq => ?_)
      (fun found => .reply _ nofun) (fun parser => run_attempt_eq body budget parser)
      (fun parser => run_attempt_eq body budget' parser)
    obtain rfl := Reply.matched.inj heq
    cases found with
    | none => exact ⟨⟨_, h.2⟩, _, hall.2⟩
    | some value => exact ⟨⟨_, (hfound value rfl).1.choose_spec⟩, _, (hfound value rfl).2.choose_spec⟩
  | nested body ih =>
    intro first second hrecoverable halike hstrays
    have hbody := @ih _ _ _ _ h hall first.deeper second.deeper hrecoverable (sound.deeper halike) hstrays
    refine (hbody.nested sound halike hstrays).mono fun value hvalue => ?_
    exact ⟨⟨_, hvalue.1.choose_spec⟩, _, hvalue.2.choose_spec⟩
  | loop body state ih =>
    obtain ⟨keeps, hstate, hround⟩ := h
    obtain ⟨keeps', hstate', hround'⟩ := hall
    intro first second hrecoverable halike hstrays
    refine @Couples.repeatUntil _ _ _ _ _ (fun state => (body state).run (Grammar.call budget'))
      (fun state => keeps state ∧ keeps' state) (fun state hstate => ?_) (fun state => .run (body state) budget)
      _ _ _ ⟨hstate, hstate'⟩ first second hrecoverable halike hstrays
    intro first second hrecoverable halike hstrays
    refine (ih state (hround state hstate.1) (hround' state hstate.2) hrecoverable halike hstrays).mono fun result hresult => ?_
    cases result with
    | inl state => exact ⟨hresult.1.choose_spec, hresult.2.choose_spec⟩
    | inr value => exact ⟨⟨_, hresult.1.choose_spec⟩, _, hresult.2.choose_spec⟩
  | items context code item ih =>
    intro first second hrecoverable halike hstrays
    have hitem := (ih h.2.1 hall.2.1)
    have hlist := Couples.parseList sound (fun _ _ h₁ h₂ h₃ => (hitem h₁ h₂ h₃).mono fun _ _ => trivial)
      (.run item budget) (.run item budget') (noted_of_run hall.2.1) context h.1
    exact (hlist hrecoverable halike hstrays).mono fun nodes _ => ⟨⟨_, h.2.2 nodes⟩, _, hall.2.2 nodes⟩

theorem call_couples (sound : t.Sound) (budget budget' : Nat) (production : Production α) :
    t.Couples (fun _ => True) (Grammar.call budget production) (Grammar.call budget' production) := by
  induction budget generalizing α budget' with
  | zero => exact fun _ _ _ _ _ => .exhausted
  | succ budget ih =>
    cases budget' with
    | zero => exact fun _ _ _ _ _ => .exhausted'
    | succ budget' =>
      have hminds (seen : Nat → Prop) : (Grammar.ofProduction production).Minds seen _ := .of_heedful _
      exact fun first second hrecoverable halike hstrays =>
        ((hminds t.seen).couples sound (fun production => ih budget' production) (hminds _) hrecoverable halike hstrays).mono
          fun _ _ => trivial

theorem run_agrees (sound : t.Sound) (program : Program α) [Heedful program] (budget budget' : Nat)
    {first second : Parser} (hrecoverable : first.symbols.Recoverable) (halike : t.alike first second) :
    t.Agrees (fun _ => True) (program.run (Grammar.call budget) first) (program.run (Grammar.call budget') second) := by
  have hcouples := Heeds.couples sound (fun production => call_couples sound budget budget' production)
    (Minds.of_heedful program : program.Minds t.seen _) (Minds.of_heedful program)
  exact (hcouples.agrees (.run program budget) hrecoverable halike).mono fun _ _ => trivial

theorem execute_same (sound : t.Sound) (hloose : ¬t.loose) (program : Program α) [Heedful program]
    (hends : ∀ parser, (program.execute parser).1 ≠ .exhausted) {first second : Parser}
    (hrecoverable : first.symbols.Recoverable) (halike : t.alike first second) :
    (program.execute second).1 = (program.execute first).1 ∧
      t.alike (program.execute first).2 (program.execute second).2 := by
  have hagrees := run_agrees sound program (Grammar.callBudget first) (Grammar.callBudget second) hrecoverable halike
  change t.Agrees _ (program.execute first) (program.execute second) at hagrees
  have hfirst := hends first
  have hsecond := hends second
  generalize program.execute first = result at hagrees hfirst ⊢
  generalize program.execute second = result' at hagrees hsecond ⊢
  cases hagrees with
  | exhausted => exact absurd rfl hfirst
  | exhausted' => exact absurd rfl hsecond
  | aborted h => exact absurd h hloose
  | strays h => exact absurd h.1 hloose
  | same h _ => exact ⟨rfl, h⟩

end Program

end AdaSyntax
