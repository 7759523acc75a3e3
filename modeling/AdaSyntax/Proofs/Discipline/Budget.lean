import AdaSyntax.Proofs.Discipline.Adequacy
import AdaSyntax.Proofs.Discipline.Production

namespace AdaSyntax

def Knowledge.all : Knowledge where
  made _ := True
  whole _ := True
  shallow _ := True
  symbol _ := True
  whole_of_shallow _ := trivial
  made_of_whole _ := trivial

theorem Knowledge.Below.all : Knowledge.all.Below .all :=
  ⟨fun _ => trivial, fun _ => trivial, fun _ => trivial⟩

theorem Knowledge.all_foresees (tree : Tree) (limit : Nat) : Foresees tree limit fun _ => .all where
  below _ _ := .all
  tells op _ _ _ _ _ _ _ := by
    cases op with
    | add start payload => exact ⟨trivial, fun _ _ => trivial⟩
    | fill id start payload => exact ⟨trivial, fun _ _ => trivial⟩
    | inspect id => exact ⟨fun _ _ => trivial, fun _ _ => trivial⟩
    | resolve name | resolveMember owner name | libraryUnit name | closeRegion => exact fun _ _ => trivial
    | _ => trivial

theorem Stage.permits_of_le {stage : Stage} {rank : Nat} (h : rank ≤ stage.limit) : stage.permits rank = true := by
  cases rank with
  | zero => rfl
  | succ rank => exact Nat.ble_eq_true_of_le h

namespace Production

variable {α : Type}

theorem rank_lt (production : Production α) : production.rank < Grammar.productionCount := by
  cases production with
  | rule rule => cases rule <;> decide
  | simpleExpression | componentList => decide

def stage (production : Production α) : Stage where
  limit := ⟨production.rank, Nat.lt_succ_of_lt production.rank_lt⟩
  moved := false
  holes := []

theorem assures (production : Production α) (know : Knowledge) :
    (Grammar.ofProduction production).Assures know production.stage fun last value =>
      last.Reaches (production.stage.after production.consumes) ∧ production.Grants know value :=
  Grammar.ofProduction_supplies production know production.stage (Stage.permits_of_le (Nat.le_refl _))

end Production

namespace Grammar

theorem call_calls (budget : Nat) {tree : Tree} {limit : Nat} {know : Nat → Knowledge}
    (hforesees : Foresees tree limit know) : Calls (call budget) tree limit know := by
  induction budget generalizing tree limit know with
  | zero =>
    refine ⟨call_allows 0, ?_, ?_⟩
    · intro α production parser later value hcall
      cases hcall
    · intro α production parser later value hcall
      cases hcall
  | succ budget ih =>
    refine ⟨call_allows (budget + 1), ?_, ?_⟩
    · intro α production parser later value hcall hconsumes
      have hall := Knowledge.all_foresees later.tree parser.options.maxDepth
      obtain ⟨last, ⟨hreaches, -⟩, hdescribes⟩ := (Program.arrives (ih hall) hall (ofProduction production)).last
        _ _ hcall rfl (.refl _) (production.assures .all)
      rw [hconsumes] at hreaches
      exact (hdescribes.moved (hreaches.moved rfl)).resolve_left nofun
    · intro α production parser later value hcall hlimit htree
      obtain ⟨last, ⟨-, hgrants⟩, -⟩ := (Program.arrives (ih hforesees) hforesees (ofProduction production)).last
        _ _ hcall hlimit htree (production.assures _)
      exact hgrants

end Grammar

namespace Parser

variable {α σ : Type} {parser later : Parser}

theorem nested_not_exhausted {body : Parser → Reply α × Parser} (h : (body parser.deeper).1 ≠ .exhausted) :
    (parser.nested body).1 ≠ .exhausted := by
  unfold nested
  cases hdescend : parser.descend with
  | error error => nofun
  | ok deeper =>
    obtain rfl := eq_deeper_of_descend hdescend
    exact h

theorem settle_not_exhausted {checkpoint : Checkpoint} {result : Reply α × Parser} (h : result.1 ≠ .exhausted) :
    (settle checkpoint result).1 ≠ .exhausted := by
  obtain ⟨reply, parser⟩ := result
  cases reply with
  | matched value => exact h
  | exhausted => exact absurd rfl h
  | _ =>
    simp only [settle]
    split <;> simp

theorem attempt_not_exhausted {body : Parser → Reply α × Parser} (h : (body parser.deeper).1 ≠ .exhausted) :
    (parser.attempt body).1 ≠ .exhausted :=
  settle_not_exhausted (nested_not_exhausted h)

theorem take_not_exhausted (parser : Parser) : parser.take.1 ≠ .exhausted := by
  unfold take
  cases parser.cursor.advance <;> simp

theorem withPosition_not_exhausted {position : Nat} {result : Reply Token × Parser} (h : result.1 ≠ .exhausted) :
    (withPosition position result).1 ≠ .exhausted := by
  obtain ⟨reply, parser⟩ := result
  cases reply with
  | exhausted => exact absurd rfl h
  | _ => simp [withPosition, Reply.map]

theorem expectChoice_not_exhausted (parser : Parser) (kind : TokenKind) :
    (parser.expectChoice kind).1 ≠ .exhausted := by
  unfold expectChoice
  split
  · exact parser.take_not_exhausted
  · simp

theorem expect_not_exhausted (parser : Parser) (kind : TokenKind) : (parser.expect kind).1 ≠ .exhausted := by
  unfold expect
  split
  · exact parser.take_not_exhausted
  · split <;> simp

theorem fillNode_not_exhausted (parser : Parser) (id : NodeId) (start : Nat) (payload : Payload Range) :
    (parser.fillNode id start payload).1 ≠ .exhausted := by
  unfold fillNode
  split <;> simp

theorem perform_not_exhausted (parser : Parser) (op : Op α) : (parser.perform op).1 ≠ .exhausted := by
  cases op with
  | take => exact withPosition_not_exhausted parser.take_not_exhausted
  | expect kind => exact withPosition_not_exhausted (parser.expect_not_exhausted kind)
  | expectChoice kind => exact withPosition_not_exhausted (parser.expectChoice_not_exhausted kind)
  | fill id start payload => exact parser.fillNode_not_exhausted id _ _
  | closeRegion =>
    simp only [perform]
    cases parser.symbols.closeRegion <;> simp
  | _ => simp [perform, withSymbols]

/-- One round of a list that is not at its end: the next item, or none where something was skipped. -/
def itemRound (parser : Parser) (context : Context) (code : Code) (item : Parser → Reply NodeId × Parser) :
    Reply (Option NodeId) × Parser :=
  match parser.forgetMismatch.attempt item with
  | (.matched node, later) => (.matched (some node), later.mergeMismatch parser.furthest)
  | (.mismatch, later) => (.matched none, later.dropItem context code parser.position parser.furthest)
  | (.fatal error, later) => (.fatal error, later)
  | (.exhausted, later) => (.exhausted, later)

theorem parseItems_succ (context : Context) (code : Code) (item : Parser → Reply NodeId × Parser) (fuel : Nat)
    (items : List NodeId) (parser : Parser) :
    parseItems context code item (fuel + 1) items parser =
      if parser.atListEnd context then (.matched items.reverse, parser)
      else
        match parser.itemRound context code item with
        | (.matched node, later) => parseItems context code item fuel (node.toList ++ items) later
        | (.mismatch, later) => (.mismatch, later)
        | (.fatal error, later) => (.fatal error, later)
        | (.exhausted, later) => (.exhausted, later) := by
  rw [parseItems]
  split
  · rfl
  · dsimp only [itemRound]
    generalize parser.forgetMismatch.attempt item = result
    obtain ⟨reply, later⟩ := result
    cases reply <;> rfl

theorem itemRound_continues (parser : Parser) (context : Context) (code : Code)
    {item : Parser → Reply NodeId × Parser} (hallows : ∀ parser : Parser, parser.Allows (item parser)) :
    (parser.itemRound context code item).2.Continues parser := by
  have hattempt : (parser.forgetMismatch.attempt item).2.Continues parser :=
    (attempt_allows hallows).continues.trans ⟨.refl _, rfl, rfl, .refl _⟩
  unfold itemRound
  generalize parser.forgetMismatch.attempt item = result at hattempt
  obtain ⟨reply, later⟩ := result
  cases reply with
  | matched node => exact (later.mergeMismatch_continues _).trans hattempt
  | mismatch => exact (later.dropItem_continues ..).trans hattempt
  | _ => exact hattempt

theorem itemRound_congr {context : Context} {code : Code} {item item' : Parser → Reply NodeId × Parser}
    (h : item' parser.forgetMismatch.deeper = item parser.forgetMismatch.deeper) :
    parser.itemRound context code item' = parser.itemRound context code item := by
  unfold itemRound
  rw [attempt_congr h]

theorem itemRound_not_exhausted {context : Context} {code : Code} {item : Parser → Reply NodeId × Parser}
    (h : (item parser.forgetMismatch.deeper).1 ≠ .exhausted) :
    (parser.itemRound context code item).1 ≠ .exhausted := by
  have hattempt := attempt_not_exhausted h
  unfold itemRound
  generalize parser.forgetMismatch.attempt item = result at hattempt
  obtain ⟨reply, later⟩ := result
  cases reply with
  | exhausted => exact absurd rfl hattempt
  | _ => simp

theorem itemRound_lt {context : Context} {code : Code} {item : Parser → Reply NodeId × Parser} {node : Option NodeId}
    (hallows : ∀ parser : Parser, parser.Allows (item parser))
    (hitem : ∀ {parser later : Parser} {node : NodeId}, item parser = (.matched node, later) →
      parser.position < later.position)
    (hopen : parser.atListEnd context = false)
    (h : parser.itemRound context code item = (.matched node, later)) : parser.position < later.position := by
  unfold itemRound at h
  have hcursor : (∀ node, (parser.forgetMismatch.attempt item).1 ≠ .matched node) →
      (parser.forgetMismatch.attempt item).2.cursor = parser.forgetMismatch.cursor := attempt_cursor hallows
  generalize hattempt : parser.forgetMismatch.attempt item = result at h hcursor
  obtain ⟨reply, middle⟩ := result
  cases reply with
  | matched found =>
    obtain ⟨-, inner, hinner, rfl⟩ := attempt_matched hattempt
    cases h
    have hlt := hitem hinner
    exact hlt
  | mismatch =>
    have hmiddle : middle.cursor = parser.cursor := hcursor (by simp)
    obtain ⟨diagnostic, cursor, furthest, heq, -, hlt⟩ :=
      middle.dropItem_eq context code parser.position parser.furthest
    have hend : parser.cursor.atEnd = false := (Bool.or_eq_false_iff.mp hopen).1
    cases h
    rw [heq]
    have hposition : middle.position = parser.position := congrArg Cursor.position hmiddle
    exact hposition ▸ hlt (hmiddle ▸ hend)
  | _ => cases h

end Parser

def Parser.allowance (parser : Parser) (limit : Nat) : Nat :=
  parser.cursor.remaining * Grammar.productionCount + limit

theorem Parser.allowance_le {first second : Parser} {limit : Nat} {last : Fin (Grammar.productionCount + 1)}
    (hcontinues : second.Continues first) (h : last ≤ limit ∨ first.position < second.position) :
    second.allowance last ≤ first.allowance limit := by
  have hremaining := hcontinues.remaining_add
  have hposition := hcontinues.position_le
  have hlast := last.is_lt
  unfold allowance Grammar.productionCount at *
  omega

section

open AdaSyntax.Parser Grammar

variable {calls more : ∀ {α : Type}, Production α → Parser → Reply α × Parser} {budget : Nat}

def Suffices (calls more : ∀ {α : Type}, Production α → Parser → Reply α × Parser) (budget : Nat) : Prop :=
  ∀ {α : Type} (production : Production α) (parser : Parser), parser.allowance production.rank < budget →
    (calls production parser).1 ≠ .exhausted ∧ more production parser = calls production parser

namespace Program

structure GetsThrough (calls more : ∀ {α : Type}, Production α → Parser → Reply α × Parser) (budget : Nat)
    {α : Type} (program : Program α) : Prop where
  run : ∀ (parser : Parser) (stage : Stage) (done : Stage → α → Prop), program.Assures .all stage done →
    parser.allowance stage.limit ≤ budget →
      (program.run calls parser).1 ≠ .exhausted ∧ program.run more parser = program.run calls parser

theorem last_of_matched {α : Type} (program : Program α) {parser later : Parser} {stage : Stage} {value : α}
    {done : Stage → α → Prop} (hcalls : ∀ tree limit, Calls calls tree limit fun _ => .all)
    (h : program.Assures .all stage done) (hrun : program.run calls parser = (.matched value, later)) :
    later.Continues parser ∧ ∃ last, done last value ∧ stage.Describes last parser later :=
  ⟨(hcalls later.tree 0).run_continues hrun,
    (program.arrives (hcalls _ _) (Knowledge.all_foresees _ _)).last stage done hrun rfl (.refl _) h⟩

namespace GetsThrough

variable {α σ : Type}

theorem repeatUntil {body : σ → Program (σ ⊕ α)} {stage : Stage} {done : Stage → σ ⊕ α → Prop}
    {keeps : σ → Prop} (hcalls : ∀ tree limit, Calls calls tree limit fun _ => .all)
    (hbody : ∀ state, (body state).GetsThrough calls more budget)
    (hround : ∀ state, keeps state → (body state).Assures .all stage done)
    (hdone : ∀ last state, done last (.inl state) → last.moved = true ∧ keeps state)
    (hstage : stage.moved = false) (fuel : Nat) {state : σ} {parser : Parser} (hkeeps : keeps state)
    (hfuel : parser.cursor.remaining < fuel) (hbudget : parser.allowance stage.limit ≤ budget) :
    (Parser.repeatUntil (fun state => (body state).run calls) fuel state parser).1 ≠ .exhausted ∧
      Parser.repeatUntil (fun state => (body state).run more) fuel state parser =
        Parser.repeatUntil (fun state => (body state).run calls) fuel state parser := by
  induction fuel generalizing state parser with
  | zero => exact absurd hfuel (Nat.not_lt_zero _)
  | succ fuel ih =>
    have hassures := hround state hkeeps
    obtain ⟨hfirst, heq⟩ := (hbody state).run parser stage done hassures hbudget
    simp only [Parser.repeatUntil, heq]
    generalize hresult : (body state).run calls parser = result at hfirst
    obtain ⟨reply, middle⟩ := result
    cases reply with
    | matched result =>
      cases result with
      | inl next =>
        obtain ⟨hcontinues, last, hlast, hdescribes⟩ := last_of_matched _ hcalls hassures hresult
        obtain ⟨hmoved, hnext⟩ := hdone last next hlast
        have hlt := (hdescribes.moved hmoved).resolve_left (by simp [hstage])
        have hremaining := hcontinues.remaining_add
        exact ih hnext (by omega) (Nat.le_trans (allowance_le hcontinues (.inr hlt)) hbudget)
      | inr value => simp
    | exhausted => exact absurd rfl hfirst
    | _ => simp

theorem parseItems {item : Program NodeId} {context : Context} {code : Code} {stage : Stage}
    {done : Stage → NodeId → Prop} (hcalls : ∀ tree limit, Calls calls tree limit fun _ => .all)
    (hitem : item.GetsThrough calls more budget) (hassures : item.Assures .all stage done)
    (hdone : ∀ last node, done last node → last.moved = true) (hstage : stage.moved = false) (fuel : Nat)
    {items : List NodeId} {parser : Parser} (hfuel : parser.cursor.remaining < fuel)
    (hbudget : parser.allowance stage.limit ≤ budget) :
    (Parser.parseItems context code (item.run calls) fuel items parser).1 ≠ .exhausted ∧
      Parser.parseItems context code (item.run more) fuel items parser =
        Parser.parseItems context code (item.run calls) fuel items parser := by
  have hallows := item.run_allows (hcalls parser.tree 0).allows
  induction fuel generalizing items parser with
  | zero => exact absurd hfuel (Nat.not_lt_zero _)
  | succ fuel ih =>
    obtain ⟨hfirst, heq⟩ := hitem.run parser.forgetMismatch.deeper stage done hassures hbudget
    have hround : (parser.itemRound context code (item.run calls)).1 ≠ .exhausted :=
      itemRound_not_exhausted hfirst
    simp only [parseItems_succ, itemRound_congr heq]
    split
    · simp
    · rename_i hopen
      have hcontinues := itemRound_continues parser context code hallows
      generalize hresult : parser.itemRound context code (item.run calls) = result at hround hcontinues
      obtain ⟨reply, middle⟩ := result
      cases reply with
      | matched node =>
        have hlt : parser.position < middle.position := by
          refine itemRound_lt hallows (fun {first second node} hrun => ?_) (by simpa using hopen) hresult
          obtain ⟨-, last, hlast, hdescribes⟩ := last_of_matched _ hcalls hassures hrun
          exact (hdescribes.moved (hdone last _ hlast)).resolve_left (by simp [hstage])
        have hremaining := hcontinues.remaining_add
        dsimp only at hremaining
        exact ih (by omega) (Nat.le_trans (allowance_le hcontinues (.inr hlt)) hbudget)
      | exhausted => exact absurd rfl hround
      | _ => simp

end GetsThrough

theorem getsThrough (hcalls : ∀ tree limit, Calls calls tree limit fun _ => .all)
    (hsuffices : Suffices calls more budget) {α : Type} (program : Program α) :
    program.GetsThrough calls more budget := by
  induction program with
  | pure value => exact ⟨fun _ _ _ _ _ => by simp [run]⟩
  | bind first next ihfirst ihnext =>
    refine ⟨fun parser stage done h hbudget => ?_⟩
    obtain ⟨hfirst, heq⟩ := ihfirst.run parser stage _ h hbudget
    change (Program.run calls (first >>= next) parser).1 ≠ .exhausted ∧
      Program.run more (first >>= next) parser = Program.run calls (first >>= next) parser
    rw [run_bind, run_bind, heq]
    generalize hresult : first.run calls parser = result at hfirst
    obtain ⟨reply, middle⟩ := result
    cases reply with
    | matched value =>
      obtain ⟨hcontinues, last, hlast, hdescribes⟩ := last_of_matched first hcalls h hresult
      exact (ihnext value).run middle last done hlast
        (Nat.le_trans (allowance_le hcontinues hdescribes.limit) hbudget)
    | exhausted => exact absurd rfl hfirst
    | _ => simp
  | step op => exact ⟨fun parser _ _ _ _ => ⟨parser.perform_not_exhausted op, rfl⟩⟩
  | reject expected => exact ⟨fun _ _ _ _ _ => by simp [run]⟩
  | fail => exact ⟨fun _ _ _ _ _ => by simp [run]⟩
  | call production =>
    exact ⟨fun parser stage done h hbudget =>
      hsuffices production parser (Nat.lt_of_lt_of_le (Nat.add_lt_add_left h.1 _) hbudget)⟩
  | attempt body ih =>
    refine ⟨fun parser stage done h hbudget => ?_⟩
    obtain ⟨hinner, heq⟩ := ih.run parser.deeper _ _ (h.1 .all .all) hbudget
    have hbody : (parser.attempt (body.run calls)).1 ≠ .exhausted := attempt_not_exhausted hinner
    rw [run_attempt, run_attempt, attempt_congr heq]
    generalize parser.attempt (body.run calls) = result at hbody
    obtain ⟨reply, later⟩ := result
    cases reply with
    | exhausted => exact absurd rfl hbody
    | _ => simp
  | nested body ih =>
    refine ⟨fun parser stage done h hbudget => ?_⟩
    obtain ⟨hinner, heq⟩ := ih.run parser.deeper _ _ (h .all .all) hbudget
    exact ⟨nested_not_exhausted hinner, nested_congr heq⟩
  | loop body state ih =>
    refine ⟨fun parser stage done h hbudget => ?_⟩
    obtain ⟨keeps, hkeeps, hround⟩ := h
    exact GetsThrough.repeatUntil hcalls ih hround (fun _ _ hlast => hlast.2) rfl _ hkeeps (Nat.lt_succ_self _)
      hbudget
  | items context code item ih =>
    refine ⟨fun parser stage done h hbudget => ?_⟩
    have hitems : (Parser.parseItems context code (item.run calls) (parser.cursor.remaining + 1) []
        (parser.pushContext context)).1 ≠ .exhausted ∧ _ :=
      GetsThrough.parseItems hcalls ih (h.1 .all .all) (fun _ _ hlast => hlast.2.1) rfl _ (Nat.lt_succ_self _)
        hbudget
    rw [run_items, run_items]
    exact ⟨hitems.1, congrArg (fun result => (result.1, result.2.popContext)) hitems.2⟩

end Program

theorem Grammar.call_suffices {budget larger : Nat} (h : budget ≤ larger) :
    Suffices (call budget) (call larger) budget := by
  induction budget generalizing larger with
  | zero => exact fun _ _ h => absurd h (Nat.not_lt_zero _)
  | succ budget ih =>
    obtain ⟨larger, rfl⟩ : ∃ smaller, larger = smaller + 1 := ⟨larger - 1, by omega⟩
    intro α production parser hallowance
    have hcalls := fun tree limit => call_calls budget (Knowledge.all_foresees tree limit)
    exact (Program.getsThrough hcalls (ih (Nat.le_of_succ_le_succ h)) _).run parser _ _ (production.assures .all)
      (Nat.le_of_lt_succ hallowance)

theorem Program.Supplies.getsThrough {α : Type} {rank : Nat} {consumes : Bool} {program : Program α}
    {good : Knowledge → α → Prop} (h : program.Supplies rank consumes good) (hrank : rank ≤ productionCount)
    (parser : Parser) : (program.execute parser).1 ≠ .exhausted ∧
      ∀ budget, callBudget parser ≤ budget → program.run (Grammar.call budget) parser = program.execute parser := by
  have hcalls := fun tree limit => call_calls (callBudget parser) (Knowledge.all_foresees tree limit)
  have hassures := h .all ⟨⟨rank, Nat.lt_succ_of_le hrank⟩, false, []⟩ (Stage.permits_of_le (Nat.le_refl _))
  have hallowance : parser.allowance rank ≤ callBudget parser := by
    simp only [Parser.allowance, callBudget, Nat.add_mul, Nat.one_mul]
    omega
  have hrun : ∀ budget, callBudget parser ≤ budget → (program.execute parser).1 ≠ .exhausted ∧
      program.run (Grammar.call budget) parser = program.execute parser := fun budget hbudget =>
    (Program.getsThrough hcalls (call_suffices hbudget) program).run parser _ _ hassures hallowance
  exact ⟨(hrun _ (Nat.le_refl _)).1, fun budget hbudget => (hrun budget hbudget).2⟩

end

end AdaSyntax
