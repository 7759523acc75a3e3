import AdaSyntax.Proofs.Discipline.Budget
import AdaSyntax.Proofs.Discipline.Safety

namespace AdaSyntax

variable {α σ : Type}

namespace Parser

section

variable {origin parser : Parser} {finished : α → Parser → Prop} {body : Parser → Reply α × Parser}

theorem Upholds.of_reverts {result : Reply α × Parser} (h : Upholds parser finished result)
    (hreverts : parser.RevertsTo origin) : Upholds origin finished result :=
  ⟨h.outcome.mono (fun _ hfails => hfails.trans hreverts) fun _ _ h => h, h.fatal⟩

theorem Upholds.nested (h : Upholds parser.deeper (fun value later => finished value later.ascend) (body parser.deeper)) :
    Upholds parser finished (parser.nested body) := by
  refine ⟨nested_outcome h.outcome, fun error herror => ?_⟩
  unfold Parser.nested at herror
  cases hdescend : parser.descend with
  | error error =>
    rw [hdescend] at herror
    obtain rfl := Reply.fatal.inj herror
    unfold descend at hdescend
    split at hdescend
    · obtain rfl := Except.error.inj hdescend
      rfl
    · cases hdescend
  | ok deeper =>
    obtain rfl := eq_deeper_of_descend hdescend
    rw [hdescend] at herror
    exact h.fatal error herror

theorem Upholds.attempt
    (h : Upholds parser.deeper (fun value later => finished value later.ascend) (body parser.deeper)) :
    Outcome (·.Resumes parser) finished (parser.attempt body) ∧
      ∀ error, (parser.attempt body).1 = .fatal error → error.isInternal = false := by
  have hnested := h.nested
  refine ⟨attempt_outcome h.outcome, fun error herror => ?_⟩
  unfold Parser.attempt at herror
  generalize parser.nested body = result at herror hnested
  obtain ⟨reply, later⟩ := result
  cases reply with
  | matched value => cases herror
  | _ =>
    obtain ⟨resumed, hrestore, -⟩ := RevertsTo.restore hnested.outcome
    simp only [settle, hrestore] at herror
    exact hnested.fatal error herror

end

section

variable {parser : Parser} {stage : Stage}

theorem Knows.attempt {body : Program α} {done : Knowledge → Stage → Option α → Prop}
    (h : parser.Knows fun know => (Program.attempt body).Assures know stage (done know)) :
    parser.Knows fun know => body.Assures know { stage with holes := [] } fun last value =>
      last.holes = [] ∧ done know { last with holes := stage.holes } (some value) :=
  h.imp fun nodes symbols hassures => hassures.1 _ (Knowledge.upTo_below nodes symbols)

theorem Knows.nested {body : Program α} {done : Knowledge → Stage → α → Prop}
    (h : parser.Knows fun know => (Program.nested body).Assures know stage (done know)) :
    parser.Knows fun know => body.Assures know { stage with holes := [] } fun last value =>
      last.holes = [] ∧ done know { last with holes := stage.holes } value :=
  h.imp fun nodes symbols hassures => hassures _ (Knowledge.upTo_below nodes symbols)

theorem Knows.round {body : σ → Program (σ ⊕ α)} {state : σ} {done : Knowledge → Stage → α → Prop}
    (h : parser.Knows fun know => (Program.loop body state).Assures know stage (done know)) :
    parser.Knows fun know => (body state).Assures know { stage with moved := false } fun last result =>
      last.holes = stage.holes ∧
        match result with
        | .inl state => (Program.loop body state).Assures know stage (done know)
        | .inr value => done know { last with moved := stage.moved || last.moved } value := by
  refine h.imp fun nodes symbols hloop => ?_
  obtain ⟨keeps, hkeeps, hbody⟩ := hloop
  refine Program.Assures.imp (hbody state hkeeps) fun last result hlast => ⟨hlast.1, ?_⟩
  cases result with
  | inl next => exact ⟨keeps, hlast.2.2, hbody⟩
  | inr value => exact hlast.2

theorem Knows.item {context : Context} {code : Code} {item : Program NodeId}
    {done : Knowledge → Stage → List NodeId → Prop}
    (h : parser.Knows fun know => (Program.items context code item).Assures know stage (done know)) :
    (parser.pushContext context).Knows fun know =>
      item.Assures know { stage with moved := false, holes := [] } fun last node => last.holes = [] ∧ know.whole node :=
  fun nodes symbols hnodes hsymbols =>
    Program.Assures.imp ((h nodes symbols hnodes hsymbols).1 _ (Knowledge.upTo_below nodes symbols))
      fun _ _ hlast => ⟨hlast.1, hlast.2.2⟩

end

end Parser

section

open AdaSyntax.Parser

variable {calls : ∀ {α : Type}, Production α → Parser → Reply α × Parser}

def Safe (calls : ∀ {α : Type}, Production α → Parser → Reply α × Parser) : Prop :=
  ∀ {α : Type} (production : Production α) (parser : Parser), parser.symbols.Proper → parser.Closed →
    Upholds parser (fun value later => (later.Knows fun know => production.Grants know value) ∧ Intact parser [] later)
      (calls production parser)

namespace Program

structure Survives (calls : ∀ {α : Type}, Production α → Parser → Reply α × Parser) (program : Program α) : Prop where
  run : ∀ {origin parser : Parser} {stage : Stage} {done : Knowledge → Stage → α → Prop},
    Intact origin stage.holes parser → (parser.Knows fun know => program.Assures know stage (done know)) →
      Upholds origin
        (fun value later => ∃ last, (later.Knows fun know => done know last value) ∧ Intact origin last.holes later)
        (program.run calls parser)

namespace Survives

variable {origin parser : Parser} {stage : Stage}

theorem deeper {body : Program α} (hbody : body.Survives calls) {holes : List NodeId} (h : Intact origin holes parser)
    {done : Knowledge → Stage → α → Prop}
    (hholes : stage.holes = [])
    (hassures : parser.Knows fun know =>
      body.Assures know stage fun last value => last.holes = [] ∧ done know last value) :
    Upholds parser.deeper
      (fun value later => ∃ last, (later.ascend.Knows fun know => done know last value) ∧
        Intact parser [] later.ascend) (body.run calls parser.deeper) := by
  have hdeeper : Intact parser.deeper stage.holes parser.deeper := hholes ▸ h.deeper
  have hinner : parser.deeper.Knows fun know =>
    body.Assures know stage fun last value => last.holes = [] ∧ done know last value := hassures
  refine (hbody.run hdeeper hinner).mono fun value later hlater => ?_
  obtain ⟨last, hknows, hintact⟩ := hlater
  have hholes : last.holes = [] := hknows.here.1
  rw [hholes] at hintact
  exact ⟨last, fun nodes symbols hnodes hsymbols => (hknows nodes symbols hnodes hsymbols).2, hintact.ascend⟩

theorem round {body : σ → Program (σ ⊕ α)} {done : Knowledge → Stage → α → Prop} {state : σ}
    (hbody : (body state).Survives calls) (h : Intact origin stage.holes parser)
    (hassures : parser.Knows fun know => (Program.loop body state).Assures know stage (done know)) :
    Upholds origin
      (fun result later =>
        match result with
        | .inl next => (later.Knows fun know => (Program.loop body next).Assures know stage (done know)) ∧
          Intact origin stage.holes later
        | .inr value => ∃ last, (later.Knows fun know => done know last value) ∧ Intact origin last.holes later)
      ((body state).run calls parser) := by
  have hstart : Intact origin ({ stage with moved := false } : Stage).holes parser := h
  refine (hbody.run hstart hassures.round).mono fun result later hlater => ?_
  obtain ⟨last, hknows, hlater⟩ := hlater
  cases result with
  | inl next =>
    rw [hknows.here.1] at hlater
    exact ⟨fun nodes symbols hnodes hsymbols => (hknows nodes symbols hnodes hsymbols).2, hlater⟩
  | inr value => exact ⟨_, fun nodes symbols hnodes hsymbols => (hknows nodes symbols hnodes hsymbols).2, hlater⟩

theorem repeatUntil {body : σ → Program (σ ⊕ α)} {done : Knowledge → Stage → α → Prop}
    (hbody : ∀ state, (body state).Survives calls) (fuel : Nat) {state : σ} (h : Intact origin stage.holes parser)
    (hassures : parser.Knows fun know => (Program.loop body state).Assures know stage (done know)) :
    Upholds origin
      (fun value later => ∃ last, (later.Knows fun know => done know last value) ∧ Intact origin last.holes later)
      (Parser.repeatUntil (fun state => (body state).run calls) fuel state parser) := by
  induction fuel generalizing state parser with
  | zero => exact .exhausted h.reverts
  | succ fuel ih =>
    have hround := (hbody state).round h hassures
    rw [Parser.repeatUntil]
    generalize (body state).run calls parser = result at hround
    obtain ⟨reply, middle⟩ := result
    cases reply with
    | matched result =>
      cases result with
      | inl next => exact ih hround.outcome.2 hround.outcome.1
      | inr value => exact .matched hround.outcome
    | mismatch => exact .mismatch hround.outcome
    | fatal error => exact .abort hround.outcome (hround.fatal error rfl)
    | exhausted => exact .exhausted hround.outcome

theorem nested {body : Program α} (hbody : body.Survives calls) {holes : List NodeId} (h : Intact origin holes parser)
    {done : Knowledge → Stage → α → Prop} (hholes : stage.holes = [])
    (hassures : parser.Knows fun know =>
      body.Assures know stage fun last value => last.holes = [] ∧ done know last value) :
    Upholds parser
      (fun value later => ∃ last, (later.Knows fun know => done know last value) ∧ Intact parser [] later)
      (parser.nested (body.run calls)) :=
  Upholds.nested (hbody.deeper h hholes hassures)

theorem attempt {body : Program α} (hbody : body.Survives calls) {holes : List NodeId} (h : Intact origin holes parser)
    {done : Knowledge → Stage → α → Prop} (hholes : stage.holes = [])
    (hassures : parser.Knows fun know =>
      body.Assures know stage fun last value => last.holes = [] ∧ done know last value) :
    Outcome (·.Resumes parser)
        (fun value later => ∃ last, (later.Knows fun know => done know last value) ∧ Intact parser [] later)
        (parser.attempt (body.run calls)) ∧
      ∀ error, (parser.attempt (body.run calls)).1 = .fatal error → error.isInternal = false :=
  Upholds.attempt (hbody.deeper h hholes hassures)

theorem itemRound {item : Program NodeId} (hitem : item.Survives calls) (context : Context) (code : Code)
    (h : Intact origin [] parser) (hholes : stage.holes = [])
    (hassures : parser.Knows fun know =>
      item.Assures know stage fun last node => last.holes = [] ∧ know.whole node) :
    Upholds origin (fun node later => (later.Knows fun know => ∀ id ∈ node, know.whole id) ∧ Intact origin [] later)
      (parser.itemRound context code (item.run calls)) := by
  have hforget := h.forgetMismatch
  obtain ⟨houtcome, hfatal⟩ := hitem.attempt hforget hholes hassures.forgetMismatch
  unfold Parser.itemRound
  generalize parser.forgetMismatch.attempt (item.run calls) = result at houtcome hfatal
  obtain ⟨reply, middle⟩ := result
  cases reply with
  | matched node =>
    obtain ⟨last, hnode, hmiddle⟩ := houtcome
    have hlater : Intact origin [] (middle.mergeMismatch parser.furthest) :=
      (hforget.trans hmiddle).of_same ⟨rfl, List.prefix_rfl, .refl _, List.prefix_rfl, rfl, rfl, rfl⟩ rfl rfl
    refine .matched ⟨fun nodes symbols hnodes hsymbols id hid => ?_, hlater⟩
    obtain rfl : node = id := Option.mem_some.mp hid
    exact hnode nodes symbols hnodes hsymbols
  | mismatch =>
    exact .matched ⟨fun _ _ _ _ => nofun, (hforget.resume houtcome).dropItem context code _ _⟩
  | fatal error => exact .abort (hforget.resume houtcome).reverts (hfatal error rfl)
  | exhausted => exact .exhausted (hforget.resume houtcome).reverts

theorem parseItems {item : Program NodeId} (hitem : item.Survives calls) (context : Context) (code : Code)
    (hholes : stage.holes = []) (fuel : Nat) {items : List NodeId} (h : Intact origin [] parser)
    (hassures : parser.Knows fun know =>
      item.Assures know stage fun last node => last.holes = [] ∧ know.whole node)
    (hitems : parser.Knows fun know => ∀ id ∈ items, know.whole id) :
    Upholds origin (fun nodes later => (later.Knows fun know => ∀ id ∈ nodes, know.whole id) ∧ Intact origin [] later)
      (Parser.parseItems context code (item.run calls) fuel items parser) := by
  induction fuel generalizing items parser with
  | zero => exact .exhausted h.reverts
  | succ fuel ih =>
    have hround := hitem.itemRound context code h hholes hassures
    have hstart := hitem.itemRound context code (.refl h.proper h.closed) hholes hassures
    rw [parseItems_succ]
    split
    · exact .matched ⟨hitems.imp fun _ _ hitems id hid => hitems id (List.mem_reverse.mp hid), h⟩
    · generalize parser.itemRound context code (item.run calls) = result at hround hstart
      obtain ⟨reply, middle⟩ := result
      cases reply with
      | matched node =>
        obtain ⟨hnode, hmiddle⟩ := hround.outcome
        have hreverts := hstart.outcome.2.reverts
        have hold := hitems.of_reverts hreverts
        refine ih hmiddle (hassures.of_reverts hreverts) fun nodes symbols hnodes hsymbols id hid => ?_
        rcases List.mem_append.mp hid with hid | hid
        · exact hnode nodes symbols hnodes hsymbols id (Option.mem_toList.mp hid)
        · exact hold nodes symbols hnodes hsymbols id hid
      | mismatch => exact .mismatch hround.outcome
      | fatal error => exact .abort hround.outcome (hround.fatal error rfl)
      | exhausted => exact .exhausted hround.outcome

end Survives

theorem survives (hcalls : Safe calls) (program : Program α) : program.Survives calls := by
  induction program with
  | pure value => exact ⟨fun h hassures => .matched ⟨_, hassures, h⟩⟩
  | bind first next ihfirst ihnext =>
    refine ⟨fun {origin parser stage done} h hassures => ?_⟩
    have hfirst := ihfirst.run h hassures
    change Upholds _ _ ((first >>= next).run calls parser)
    rw [run_bind]
    generalize first.run calls parser = result at hfirst
    obtain ⟨reply, middle⟩ := result
    cases reply with
    | matched value =>
      obtain ⟨last, hknows, hmiddle⟩ := hfirst.outcome
      exact (ihnext value).run hmiddle hknows
    | mismatch => exact .mismatch hfirst.outcome
    | fatal error => exact .abort hfirst.outcome (hfirst.fatal error rfl)
    | exhausted => exact .exhausted hfirst.outcome
  | step op =>
    refine ⟨fun {origin parser stage done} h hassures => ?_⟩
    have hstep := h.perform hassures.here.1
    have hold := hassures.perform h.proper op
    change Upholds _ _ (parser.perform op)
    refine hstep.imp fun value later heq hlater => ⟨_, fun nodes symbols hnodes hsymbols => ?_, hlater.2⟩
    rw [heq] at hold
    exact (hold nodes symbols hnodes hsymbols).2 value (hlater.1 nodes symbols hnodes hsymbols)
  | reject expected => exact ⟨fun h _ => .mismatch ((Parser.recordMismatch_revertsTo _ _).trans h.reverts)⟩
  | fail => exact ⟨fun h _ => .mismatch h.reverts⟩
  | call production =>
    refine ⟨fun {origin parser stage done} h hassures => ?_⟩
    refine (((hcalls production parser h.proper h.closed).of_reverts h.reverts).mono fun value later hlater => ?_)
    obtain ⟨hvalue, hlater⟩ := hlater
    have hold := hassures.of_reverts hlater.reverts
    refine ⟨stage.after production.consumes, fun nodes symbols hnodes hsymbols => ?_, ?_⟩
    · exact (hold nodes symbols hnodes hsymbols).2 value (hvalue nodes symbols hnodes hsymbols)
    · rw [Stage.holes_after]
      exact h.trans hlater
  | attempt body ih =>
    refine ⟨fun {origin parser stage done} h hassures => ?_⟩
    obtain ⟨houtcome, hfatal⟩ := ih.attempt h rfl hassures.attempt
    rw [run_attempt]
    generalize parser.attempt (body.run calls) = result at houtcome hfatal
    obtain ⟨reply, later⟩ := result
    cases reply with
    | matched value =>
      obtain ⟨last, hknows, hlater⟩ := houtcome
      exact .matched ⟨_, hknows, h.trans hlater⟩
    | mismatch =>
      have hlater := h.resume houtcome
      have hold := hassures.of_resumes houtcome
      exact .matched ⟨stage, hold.imp fun _ _ hold => hold.2, hlater⟩
    | fatal error => exact .abort (h.resume houtcome).reverts (hfatal error rfl)
    | exhausted => exact .exhausted (h.resume houtcome).reverts
  | nested body ih =>
    refine ⟨fun {origin parser stage done} h hassures => ?_⟩
    refine ((ih.nested h rfl hassures.nested).of_reverts h.reverts).mono fun value later hlater => ?_
    obtain ⟨last, hknows, hlater⟩ := hlater
    exact ⟨_, hknows, h.trans hlater⟩
  | loop body state ih => exact ⟨fun h hassures => Survives.repeatUntil ih _ h hassures⟩
  | items context code item ih =>
    refine ⟨fun {origin parser stage done} h hassures => ?_⟩
    have hstart : Intact (parser.pushContext context) [] (parser.pushContext context) :=
      .refl h.proper (h.closed.of_same rfl rfl)
    have hitems := ih.parseItems context code rfl (parser.cursor.remaining + 1) hstart hassures.item
      fun _ _ _ _ _ hid => absurd hid List.not_mem_nil
    rw [run_items, Parser.parseList]
    generalize Parser.parseItems context code (item.run calls) _ [] _ = result at hitems
    obtain ⟨reply, inner⟩ := result
    have hreverts : inner.RevertsTo (parser.pushContext context) → inner.popContext.RevertsTo parser :=
      fun hinner => { hinner with contexts := by simp [Parser.popContext, hinner.contexts, Parser.pushContext] }
    cases reply with
    | matched nodes =>
      obtain ⟨hnodes, hinner⟩ := hitems.outcome
      have hlater : Intact parser [] inner.popContext :=
        ⟨hreverts hinner.reverts, hinner.proper, hinner.closed.of_same rfl rfl, hinner.reserved⟩
      have hold := hassures.of_reverts hlater.reverts
      refine .matched ⟨stage, fun size symbols hsize hsymbols => ?_, h.trans hlater⟩
      exact (hold size symbols hsize hsymbols).2 nodes (hnodes size symbols hsize hsymbols)
    | mismatch => exact .mismatch ((hreverts hitems.outcome).trans h.reverts)
    | fatal error => exact .abort ((hreverts hitems.outcome).trans h.reverts) (hitems.fatal error rfl)
    | exhausted => exact .exhausted ((hreverts hitems.outcome).trans h.reverts)

end Program

end

end AdaSyntax
