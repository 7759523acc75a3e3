import AdaSyntax.Proofs.Parser.Disguise

namespace AdaSyntax

namespace Parser

inductive Disguised (first distance : Nat) (outer : Option Mismatch) {α : Type} :
    Reply α × Parser → Reply α × Parser → Prop where
  | matched (value : α) (parser : Parser) :
      Disguised first distance outer (.matched value, parser)
        (.matched value, parser.disguise first distance outer)
  | mismatch (parser : Parser) :
      Disguised first distance outer (.mismatch, parser)
        (.mismatch, parser.disguise first distance outer)
  | fatal (error : Fatal) (other : Option Mismatch) (parser : Parser) :
      Disguised first distance outer (.fatal error, parser)
        (.fatal error, parser.disguise first distance other)
  | exhausted (other : Option Mismatch) (parser : Parser) :
      Disguised first distance outer (.exhausted, parser)
        (.exhausted, parser.disguise first distance other)

namespace Disguised

variable {first distance : Nat} {outer : Option Mismatch} {α β : Type}

theorem of_eq {result result' : Reply α × Parser}
    (h : result' = (result.1, result.2.disguise first distance outer)) :
    Disguised first distance outer result result' := by
  subst h
  obtain ⟨reply, parser⟩ := result
  cases reply with
  | matched value => exact .matched value parser
  | mismatch => exact .mismatch parser
  | fatal error => exact .fatal error outer parser
  | exhausted => exact .exhausted outer parser

theorem map {result result' : Reply α × Parser} (h : Disguised first distance outer result result')
    (change : Parser → Parser)
    (hchange : ∀ outer parser, change (parser.disguise first distance outer) =
      (change parser).disguise first distance outer) :
    Disguised first distance outer (result.1, change result.2) (result'.1, change result'.2) := by
  cases h with
  | matched value parser => simp only [hchange]; exact .matched value _
  | mismatch parser => simp only [hchange]; exact .mismatch _
  | fatal error other parser => simp only [hchange]; exact .fatal error other _
  | exhausted other parser => simp only [hchange]; exact .exhausted other _

theorem settle {result result' : Reply α × Parser} (h : Disguised first distance outer result result')
    (checkpoint : Checkpoint) :
    Disguised first distance outer (Parser.settle checkpoint result) (Parser.settle checkpoint result') := by
  cases h with
  | matched value parser => exact .matched value parser
  | mismatch parser =>
    simp only [Parser.settle, restore_disguise]
    generalize parser.restore checkpoint = restored
    obtain ⟨error, restored⟩ := restored
    cases error with
    | none => exact .mismatch restored
    | some error => exact .fatal error outer restored
  | fatal error other parser =>
    simp only [Parser.settle, restore_disguise]
    generalize parser.restore checkpoint = restored
    obtain ⟨error, restored⟩ := restored
    cases error <;> exact .fatal _ other restored
  | exhausted other parser =>
    simp only [Parser.settle, restore_disguise]
    generalize parser.restore checkpoint = restored
    obtain ⟨error, restored⟩ := restored
    cases error with
    | none => exact .exhausted other restored
    | some error => exact .fatal error other restored

end Disguised

theorem settle_nextRegion {α : Type} (checkpoint : Checkpoint) (result : Reply α × Parser) :
    (settle checkpoint result).2.symbols.nextRegion = result.2.symbols.nextRegion := by
  obtain ⟨reply, parser⟩ := result
  cases reply with
  | matched value => rfl
  | _ =>
    have hrestore := parser.restore_nextRegion checkpoint
    simp only [settle]
    generalize parser.restore checkpoint = restored at hrestore ⊢
    obtain ⟨error, restored⟩ := restored
    cases error <;> exact hrestore

structure Blind (first distance : Nat) {α : Type} (body : Parser → Reply α × Parser) : Prop where
  disguised : ∀ outer parser, first ≤ parser.symbols.nextRegion →
    Disguised first distance outer (body parser) (body (parser.disguise first distance outer))
  counts : ∀ parser, first ≤ parser.symbols.nextRegion → first ≤ (body parser).2.symbols.nextRegion

namespace Blind

variable {first distance : Nat} {α β σ : Type}

theorem perform (op : Op α) : Blind first distance (fun parser => parser.perform op) where
  disguised := fun outer _ h => .of_eq (perform_disguise distance outer op h)
  counts := fun _ h => Nat.le_trans h (perform_nextRegion op)

theorem reply (reply : Reply α) : Blind first distance fun parser => (reply, parser) where
  disguised := fun _ _ _ => .of_eq rfl
  counts := fun _ h => h

theorem nested {body : Parser → Reply α × Parser} (h : Blind first distance body) :
    Blind first distance (·.nested body) where
  disguised := by
    intro outer parser hnext
    simp only [Parser.nested, descend_disguise]
    cases hdescend : parser.descend with
    | error error => exact .fatal error outer parser
    | ok deeper =>
      obtain rfl := eq_deeper_of_descend hdescend
      exact (h.disguised outer parser.deeper hnext).map ascend fun _ _ => rfl
  counts := by
    intro parser hnext
    simp only [Parser.nested]
    cases hdescend : parser.descend with
    | error error => exact hnext
    | ok deeper =>
      obtain rfl := eq_deeper_of_descend hdescend
      exact h.counts parser.deeper hnext

theorem attempt {body : Parser → Reply α × Parser} (h : Blind first distance body) :
    Blind first distance (·.attempt body) where
  disguised := by
    intro outer parser hnext
    simp only [Parser.attempt, disguise_checkpoint]
    exact (h.nested.disguised outer parser hnext).settle _
  counts := by
    intro parser hnext
    simp only [Parser.attempt, settle_nextRegion]
    exact h.nested.counts parser hnext

theorem next {body : Parser → Reply β × Parser} {whole : Parser → Reply α × Parser}
    (hbody : Blind first distance body) (rest : Option β → Parser → Reply α × Parser)
    (hrest : ∀ found, Blind first distance (rest found))
    (hwhole : ∀ parser, whole parser =
      match body parser with
      | (.matched value, later) => rest (some value) later
      | (.mismatch, later) => rest none later
      | (.fatal error, later) => (.fatal error, later)
      | (.exhausted, later) => (.exhausted, later)) :
    Blind first distance whole where
  disguised := by
    intro outer parser hnext
    have hresult := hbody.disguised outer parser hnext
    have hcount := hbody.counts parser hnext
    rw [hwhole, hwhole]
    generalize body parser = result at hresult hcount ⊢
    generalize body (parser.disguise first distance outer) = result' at hresult ⊢
    cases hresult with
    | matched value later => exact (hrest (some value)).disguised outer later hcount
    | mismatch later => exact (hrest none).disguised outer later hcount
    | fatal error other later => exact .fatal error other later
    | exhausted other later => exact .exhausted other later
  counts := by
    intro parser hnext
    have hcount := hbody.counts parser hnext
    rw [hwhole]
    generalize body parser = result at hcount ⊢
    obtain ⟨reply, later⟩ := result
    cases reply with
    | matched value => exact (hrest (some value)).counts later hcount
    | mismatch => exact (hrest none).counts later hcount
    | _ => exact hcount

theorem repeatUntil {body : σ → Parser → Reply (σ ⊕ α) × Parser}
    (h : ∀ state, Blind first distance (body state)) (fuel : Nat) (state : σ) :
    Blind first distance (Parser.repeatUntil body fuel state) := by
  induction fuel generalizing state with
  | zero => exact .reply .exhausted
  | succ fuel ih =>
    refine (h state).next (fun (found : Option (σ ⊕ α)) parser =>
      match found with
      | some (.inl state) => Parser.repeatUntil body fuel state parser
      | some (.inr value) => (.matched value, parser)
      | none => (.mismatch, parser)) (fun found => ?_) fun parser => ?_
    · rcases found with _ | state | value
      · exact .reply .mismatch
      · exact ih state
      · exact .reply (.matched value)
    · rw [Parser.repeatUntil]
      generalize body state parser = result
      obtain ⟨reply, later⟩ := result
      cases reply with
      | matched value => cases value <;> rfl
      | _ => rfl

theorem parseItems {item : Parser → Reply NodeId × Parser} (h : Blind first distance item)
    (context : Context) (code : Code) (fuel : Nat) (items : List NodeId) :
    Blind first distance (Parser.parseItems context code item fuel items) := by
  induction fuel generalizing items with
  | zero => exact .reply .exhausted
  | succ fuel ih =>
    refine ⟨fun outer parser hnext => ?_, fun parser hnext => ?_⟩
    · have hend : (parser.disguise first distance outer).atListEnd context = parser.atListEnd context := rfl
      have hattempt := h.attempt.disguised none parser.forgetMismatch hnext
      have hcount := h.attempt.counts parser.forgetMismatch hnext
      rw [Parser.parseItems, Parser.parseItems, hend]
      split
      · exact .matched _ parser
      · change Disguised first distance none (parser.forgetMismatch.attempt item)
          ((parser.disguise first distance outer).forgetMismatch.attempt item) at hattempt
        dsimp only at hcount ⊢
        generalize parser.forgetMismatch.attempt item = result at hattempt hcount ⊢
        generalize (parser.disguise first distance outer).forgetMismatch.attempt item = result' at hattempt ⊢
        cases hattempt with
        | matched node later =>
          have hmerge := mergeMismatch_disguise first distance outer later parser.furthest
          have hrest := (ih (node :: items)).disguised outer (later.mergeMismatch parser.furthest) hcount
          rwa [← hmerge] at hrest
        | mismatch later =>
          have hdrop := dropItem_disguise first distance outer later parser.furthest context code
            parser.position
          have hcounted := later.dropItem_symbols context code parser.position parser.furthest ▸ hcount
          have hrest := (ih items).disguised outer _ hcounted
          rwa [← hdrop] at hrest
        | fatal error other later => exact .fatal error other later
        | exhausted other later => exact .exhausted other later
    · have hcount := h.attempt.counts parser.forgetMismatch hnext
      rw [Parser.parseItems]
      split
      · exact hnext
      · dsimp only at hcount ⊢
        generalize parser.forgetMismatch.attempt item = result at hcount ⊢
        obtain ⟨reply, later⟩ := result
        cases reply with
        | matched node => exact (ih _).counts _ hcount
        | mismatch =>
          refine (ih _).counts _ ?_
          rw [dropItem_symbols]
          exact hcount
        | _ => exact hcount

theorem parseList {item : Parser → Reply NodeId × Parser} (h : Blind first distance item)
    (context : Context) (code : Code) :
    Blind first distance fun parser => parser.parseList context code item where
  disguised := by
    intro outer parser hnext
    have hitems := (h.parseItems context code (parser.cursor.remaining + 1) []).disguised outer
      (parser.pushContext context) hnext
    exact hitems.map popContext fun _ _ => rfl
  counts := by
    intro parser hnext
    exact (h.parseItems context code (parser.cursor.remaining + 1) []).counts (parser.pushContext context) hnext

theorem run {calls : ∀ {α : Type}, Production α → Parser → Reply α × Parser}
    (hcalls : ∀ {α : Type} (production : Production α), Blind first distance (calls production))
    (program : Program α) : Blind first distance (program.run calls) := by
  induction program with
  | pure value => exact .reply (.matched value)
  | bind first next ihfirst ihnext =>
    refine ihfirst.next (fun found => found.elim (fun parser => (.mismatch, parser)) fun value =>
      (next value).run calls) (fun found => ?_) fun parser => Program.run_bind ..
    cases found with
    | none => exact .reply .mismatch
    | some value => exact ihnext value
  | step op => exact .perform op
  | reject expected =>
    exact ⟨fun outer parser _ => .of_eq (congrArg _ (recordMismatch_disguise ..)), fun parser hnext => by
      rwa [Program.run, recordMismatch_symbols]⟩
  | fail => exact .reply .mismatch
  | call production => exact hcalls production
  | attempt body ih =>
    refine ih.attempt.next (fun found parser => (.matched found, parser))
      (fun found => .reply (.matched found)) fun parser => (Program.run_attempt ..).trans ?_
    generalize parser.attempt (body.run calls) = result
    obtain ⟨reply, later⟩ := result
    cases reply <;> rfl
  | nested body ih => exact ih.nested
  | loop body state ih =>
    exact ⟨fun outer parser hnext =>
        (repeatUntil ih (parser.cursor.remaining + 1) state).disguised outer parser hnext,
      fun parser hnext => (repeatUntil ih (parser.cursor.remaining + 1) state).counts parser hnext⟩
  | items context code item ih => exact ih.parseList context code

theorem call (budget : Nat) (production : Production α) :
    Blind first distance (Grammar.call budget production) := by
  induction budget generalizing α with
  | zero => exact .reply .exhausted
  | succ budget ih => exact run ih (Grammar.ofProduction production)

theorem execute (program : Program α) : Blind first distance program.execute :=
  ⟨fun outer parser => (run (call (Grammar.callBudget parser)) program).disguised outer parser,
    fun parser => (run (call (Grammar.callBudget parser)) program : Blind first distance _).counts parser⟩

end Blind

end Parser

end AdaSyntax
