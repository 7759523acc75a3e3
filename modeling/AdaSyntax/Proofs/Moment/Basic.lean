import AdaSyntax.Proofs.Discipline.Throughout
import AdaSyntax.Proofs.Parser.Disguise
import AdaSyntax.Proofs.Parser.Finds
import AdaSyntax.Proofs.Parser.Since

/-!
What the table keeps at every moment of a run: where a step is taken that is taken back later, in the middle of
calls, in every round of a loop. A program maintains an invariant of the table when no step of it can break the
invariant; this is put together from its parts, so that only the steps that could break it need a look.
-/

namespace AdaSyntax

variable {α β σ : Type}

def Program.Visits (calls : ∀ {α : Type}, Production α → Parser → Reply α × Parser)
    (called : ∀ {α : Type}, Production α → Parser → Parser → Prop) :
    ∀ {α : Type}, Program α → Parser → Parser → Prop
  | _, .bind first next, parser, now =>
    Visits calls called first parser now ∨
      ∃ value later, first.run calls parser = (.matched value, later) ∧ Visits calls called (next value) later now
  | _, .step op, parser, now => now = parser ∨ now = (parser.perform op).2
  | _, .reject expected, parser, now => now = parser ∨ now = parser.recordMismatch expected
  | _, .call production, parser, now => called production parser now
  | _, .attempt body, parser, now =>
    now = parser ∨ now = ((Program.attempt body).run calls parser).2 ∨
      ∃ inner, parser.descend = .ok inner ∧ Visits calls called body inner now
  | _, .nested body, parser, now =>
    now = parser ∨ now = ((Program.nested body).run calls parser).2 ∨
      ∃ inner, parser.descend = .ok inner ∧ Visits calls called body inner now
  | _, .loop body state, parser, now =>
    now = parser ∨ now = ((Program.loop body state).run calls parser).2 ∨
      ∃ last later, Parser.Rounds (fun state => (body state).run calls) state parser last later ∧
        Visits calls called (body last) later now
  | _, .items context code item, parser, now =>
    now = parser ∨ now = ((Program.items context code item).run calls parser).2 ∨
      ∃ later, Parser.ItemRounds context code (item.run calls) (parser.pushContext context) later ∧
        ∃ inner, later.forgetMismatch.descend = .ok inner ∧ Visits calls called item inner now
  | _, _, parser, now => now = parser

def Grammar.Visits : Nat → ∀ {α : Type}, Production α → Parser → Parser → Prop
  | 0, _, _, parser, now => now = parser
  | budget + 1, _, production, parser, now =>
    (ofProduction production).Visits (call budget) (Visits budget) parser now

/-- An execution of the program comes through the parser `now`. -/
def Program.Comes (program : Program α) (parser now : Parser) : Prop :=
  program.Visits (Grammar.call (Grammar.callBudget parser)) (Grammar.Visits (Grammar.callBudget parser)) parser now

theorem Program.visits_first {calls : ∀ {α : Type}, Production α → Parser → Reply α × Parser}
    {called : ∀ {α : Type}, Production α → Parser → Parser → Prop}
    (hcalled : ∀ {α : Type} (production : Production α) (parser : Parser), called production parser parser)
    (program : Program α) (parser : Parser) : program.Visits calls called parser parser := by
  induction program with
  | bind first next ih => exact .inl ih
  | call production => exact hcalled production parser
  | pure | fail => rfl
  | _ => exact .inl rfl

theorem Program.visits_last {calls : ∀ {α : Type}, Production α → Parser → Reply α × Parser}
    {called : ∀ {α : Type}, Production α → Parser → Parser → Prop}
    (hcalled : ∀ {α : Type} (production : Production α) (parser : Parser),
      called production parser (calls production parser).2)
    (program : Program α) (parser : Parser) : program.Visits calls called parser (program.run calls parser).2 := by
  induction program generalizing parser with
  | bind first next ihfirst ihnext =>
    have hfirst := ihfirst parser
    simp only [Visits, run]
    cases hresult : first.run calls parser with
    | mk reply later =>
      rw [hresult] at hfirst
      cases reply with
      | matched value => exact .inr ⟨value, later, rfl, ihnext value later⟩
      | _ => exact .inl hfirst
  | call production => exact hcalled production parser
  | step | reject => exact .inr rfl
  | pure | fail => rfl
  | _ => exact .inr (.inl rfl)

theorem Grammar.visits_first (budget : Nat) (production : Production α) (parser : Parser) :
    Visits budget production parser parser := by
  induction budget generalizing α parser with
  | zero => rfl
  | succ budget ih => exact Program.visits_first (fun production => ih production) _ parser

theorem Grammar.visits_last (budget : Nat) (production : Production α) (parser : Parser) :
    Visits budget production parser (call budget production parser).2 := by
  induction budget generalizing α parser with
  | zero => rfl
  | succ budget ih => exact Program.visits_last (fun production => ih production) _ parser

def Production.isExpression {α : Type} : Production α → Bool
  | .simpleExpression | .rule .name | .rule .expression | .rule .subtypeIndication | .rule .indexConstraint
  | .rule .discriminantConstraint | .rule .discreteRange | .rule .range => true
  | _ => false

structure SymbolTable.Invariant where
  holds : SymbolTable → Prop
  counter {table : SymbolTable} {next : Nat} :
    holds table → table.nextRegion ≤ next → holds { table with nextRegion := next }
  declare {table : SymbolTable} (declaration : Declaration) : holds table → holds (table.declare declaration).2.2
  /-- Whether it is to be kept by all productions, and not just by those of expressions. -/
  everywhere : Bool

def SymbolTable.Invariant.allows (inv : Invariant) (production : Production α) : Bool :=
  inv.everywhere || production.isExpression

namespace SymbolTable.Invariant

variable (inv : Invariant) {parser later : Parser}

structure At (parser : Parser) : Prop where
  reachable : parser.Reachable
  holds : inv.holds parser.symbols

variable {inv}

theorem At.move (h : inv.At parser) (hmove : Parser.Move parser later) (hsymbols : later.symbols = parser.symbols) :
    inv.At later :=
  ⟨h.reachable.move hmove, hsymbols ▸ h.holds⟩

theorem At.deeper (h : inv.At parser) {inner : Parser} (hinner : parser.descend = .ok inner) : inv.At inner := by
  refine h.move (.descend hinner) ?_
  obtain rfl := Parser.eq_deeper_of_descend hinner
  rfl

end SymbolTable.Invariant

open SymbolTable (Invariant)

variable {inv : Invariant} {budget : Nat} {parser : Parser}

def Program.Tends (inv : Invariant) (budget : Nat) (program : Program α) (parser : Parser)
    (done : α → Parser → Prop) : Prop :=
  inv.At parser → inv.At (program.run (Grammar.call budget) parser).2 ∧
    (∀ now, program.Visits (Grammar.call budget) (Grammar.Visits budget) parser now → inv.At now) ∧
    ∀ value later, program.run (Grammar.call budget) parser = (.matched value, later) → done value later

def Grammar.Tend (inv : Invariant) (budget : Nat) : Prop :=
  ∀ {α : Type} (production : Production α), inv.allows production = true → ∀ parser, inv.At parser →
    inv.At (call budget production parser).2 ∧ ∀ now, Visits budget production parser now → inv.At now

class Program.Maintains (inv : Invariant) (program : Program α) : Prop where
  tends {budget : Nat} (hcalls : Grammar.Tend inv budget) (parser : Parser) :
    program.Tends inv budget parser fun _ _ => True

class Op.Maintains (inv : Invariant) (op : Op α) : Prop where
  holds {parser : Parser} : inv.At parser → inv.holds (parser.perform op).2.symbols

namespace Program

variable {done done' : α → Parser → Prop}

namespace Tends

theorem mono {program : Program α} (h : program.Tends inv budget parser done)
    (hdone : ∀ value later, inv.At later → done value later → done' value later) :
    program.Tends inv budget parser done' := by
  intro hparser
  obtain ⟨hend, hvisits, hmatched⟩ := h hparser
  refine ⟨hend, hvisits, fun value later hrun => hdone value later ?_ (hmatched value later hrun)⟩
  rwa [hrun] at hend

theorem pure {value : α} (h : done value parser) : Tends inv budget (.pure value) parser done := by
  intro hparser
  refine ⟨hparser, fun now hnow => ?_, fun other later hrun => ?_⟩
  · obtain rfl : now = parser := hnow
    exact hparser
  · obtain ⟨hvalue, rfl⟩ := Prod.mk.inj hrun
    exact Reply.matched.inj hvalue ▸ h

theorem bind {first : Program β} {next : β → Program α} {middle : β → Parser → Prop}
    (hfirst : first.Tends inv budget parser middle)
    (hnext : ∀ value later, middle value later → (next value).Tends inv budget later done) :
    (first >>= next).Tends inv budget parser done := by
  intro hparser
  obtain ⟨hend, hvisits, hmatched⟩ := hfirst hparser
  have hlater : ∀ value later, first.run (Grammar.call budget) parser = (.matched value, later) →
      inv.At (next value |>.run (Grammar.call budget) later).2 ∧
        (∀ now, (next value).Visits (Grammar.call budget) (Grammar.Visits budget) later now → inv.At now) ∧
        ∀ value' later', (next value).run (Grammar.call budget) later = (.matched value', later') →
          done value' later' := by
    intro value later hrun
    rw [hrun] at hend
    exact hnext value later (hmatched value later hrun) hend
  refine ⟨?_, ?_, ?_⟩
  · rw [run_bind]
    cases hresult : first.run (Grammar.call budget) parser with
    | mk reply later =>
      rw [hresult] at hend
      cases reply with
      | matched value => exact (hlater value later hresult).1
      | _ => exact hend
  · rintro now (hnow | ⟨value, later, hrun, hnow⟩)
    · exact hvisits now hnow
    · exact (hlater value later hrun).2.1 now hnow
  · intro value later hrun
    rw [run_bind] at hrun
    cases hresult : first.run (Grammar.call budget) parser with
    | mk reply between =>
      rw [hresult] at hrun
      cases reply with
      | matched found => exact (hlater found between hresult).2.2 value later hrun
      | _ => cases hrun

theorem of_finds {program : Program α} [h : program.Maintains inv] (hcalls : Grammar.Tend inv budget)
    (hfinds : Finds budget program parser done) : program.Tends inv budget parser done := by
  intro hparser
  obtain ⟨hend, hvisits, -⟩ := h.tends hcalls parser hparser
  exact ⟨hend, hvisits, hfinds hparser.reachable⟩

theorem known {program : Program α} [h : program.Maintains inv] (hcalls : Grammar.Tend inv budget) :
    program.Tends inv budget parser fun _ _ => True :=
  h.tends hcalls parser

theorem skip {first : Program β} {next : β → Program α} [h : first.Maintains inv] (hcalls : Grammar.Tend inv budget)
    (hnext : ∀ value later, (next value).Tends inv budget later done) :
    (first >>= next).Tends inv budget parser done :=
  (h.tends hcalls parser).bind fun value later _ => hnext value later

theorem builds {first : Program β} {next : β → Program α} [first.Maintains inv] {moved : Bool} {yield : β → Yield}
    (hcalls : Grammar.Tend inv budget) (hbuilds : Builds (Grammar.call budget) first moved yield)
    (hnext : ∀ value later, Parser.Made parser later moved (yield value) → (next value).Tends inv budget later done) :
    (first >>= next).Tends inv budget parser done :=
  (of_finds hcalls (.made hbuilds)).bind hnext

theorem reached {program : Program α} (h : inv.At parser → program.Tends inv budget parser done) :
    program.Tends inv budget parser done :=
  fun hparser => h hparser hparser

theorem reads {first : Program β} {next : β → Program α} [first.Maintains inv] (hcalls : Grammar.Tend inv budget)
    (hreads : Reads (Grammar.call budget) first) (hnext : ∀ value, (next value).Tends inv budget parser done) :
    (first >>= next).Tends inv budget parser done := by
  have hfinds : Finds budget first parser fun _ later => later = parser := by
    intro _ value later hrun
    obtain ⟨found, hfound⟩ := hreads parser
    exact (Prod.mk.inj (hrun.symm.trans hfound)).2
  refine (of_finds hcalls hfinds).bind ?_
  rintro value _ rfl
  exact hnext value

theorem step {op : Op α} (hholds : inv.holds (parser.perform op).2.symbols)
    (hdone : ∀ value later, parser.perform op = (.matched value, later) → done value later) :
    Tends inv budget (.step op) parser done := by
  intro hparser
  have hend : inv.At (parser.perform op).2 := ⟨hparser.reachable.move (.perform op), hholds⟩
  refine ⟨hend, fun now hnow => ?_, fun value later hrun => hdone value later hrun⟩
  rcases hnow with rfl | rfl
  · exact hparser
  · exact hend

end Tends

theorem Tends.reject {expected : String} : Tends inv budget (.reject expected) parser done := by
  intro hparser
  have hend : inv.At (parser.recordMismatch expected) :=
    hparser.move (.reject expected) (parser.recordMismatch_symbols expected)
  refine ⟨hend, ?_, ?_⟩
  · rintro now (rfl | rfl)
    · exact hparser
    · exact hend
  · rintro value later ⟨⟩

theorem Tends.rejected {expected : String} {next : β → Program α} :
    Tends inv budget (.reject expected >>= next) parser done :=
  have hreject : Tends inv budget (.reject expected) parser fun (_ : β) _ => False := .reject
  hreject.bind fun _ _ h => h.elim

namespace Maintains

theorem bind {first : Program β} {next : β → Program α} (hfirst : first.Maintains inv)
    (hnext : ∀ value, (next value).Maintains inv) : (first >>= next).Maintains inv :=
  ⟨fun hcalls parser => (hfirst.tends hcalls parser).bind fun value later _ => (hnext value).tends hcalls later⟩

theorem skip {first : Program β} {next : β → Program α} [hfirst : first.Maintains inv]
    (hnext : ∀ value, (next value).Maintains inv) : (first >>= next).Maintains inv :=
  bind hfirst hnext

end Maintains

section

variable {inv : Invariant}

instance (value : α) : Maintains inv (Pure.pure value : Program α) := ⟨fun _ _ => .pure trivial⟩

instance (value : α) : Maintains inv (Program.pure value) := ⟨fun _ _ => .pure trivial⟩

instance (first : Program β) (next : β → Program α) [first.Maintains inv] [∀ value, (next value).Maintains inv] :
    Maintains inv (first >>= next) :=
  .skip fun _ => inferInstance

instance (first : Program β) (next : β → Program α) [first.Maintains inv] [∀ value, (next value).Maintains inv] :
    Maintains inv (.bind first next) :=
  inferInstanceAs (Maintains inv (first >>= next))

instance (op : Op α) [h : op.Maintains inv] : Maintains inv (.step op) :=
  ⟨fun _ _ hparser => (Tends.step (h.holds hparser) fun _ _ _ => trivial) hparser⟩

instance (expected : String) : Maintains inv (.reject expected : Program α) := ⟨fun _ _ => .reject⟩

instance : Maintains inv (.fail : Program α) where
  tends _ _ hparser := by
    refine ⟨hparser, fun _ hnow => hnow ▸ hparser, ?_⟩
    rintro value later ⟨⟩

theorem call_maintains {production : Production α} (h : inv.allows production = true) :
    Maintains inv (.call production) :=
  ⟨fun hcalls parser hparser =>
    have ⟨hend, hvisits⟩ := hcalls production h parser hparser
    ⟨hend, hvisits, fun _ _ _ => trivial⟩⟩

instance (condition : Prop) [Decidable condition] (first second : Program α) [first.Maintains inv]
    [second.Maintains inv] : Maintains inv (if condition then first else second) := by
  split <;> infer_instance

end

theorem run_covers (program : Program α) (h : parser.symbols.Recoverable) :
    (program.run (Grammar.call budget) parser).2.Covers parser :=
  ((Parser.since_kept parser).run ((Parser.since_kept parser).call budget) program parser .refl).covers h

section

variable {body : Program α}

theorem nested_at (hbody : ∀ inner, inv.At inner → inv.At (body.run (Grammar.call budget) inner).2) (h : inv.At parser) :
    inv.At (parser.nested (body.run (Grammar.call budget))).2 := by
  unfold Parser.nested
  cases hdescend : parser.descend with
  | error error => exact h
  | ok inner => exact (hbody inner (h.deeper hdescend)).move .ascend rfl

theorem attempt_at (hbody : ∀ inner, inv.At inner → inv.At (body.run (Grammar.call budget) inner).2)
    (h : inv.At parser) : inv.At (parser.attempt (body.run (Grammar.call budget))).2 := by
  have hnested := nested_at hbody h
  have hreachable : (parser.attempt (body.run (Grammar.call budget))).2.Reachable :=
    Parser.Reachable.kept.attempt (Parser.Reachable.kept.run (Parser.Reachable.kept.call budget) body) h.reachable
  have hcovers : (parser.nested (body.run (Grammar.call budget))).2.Covers parser :=
    Parser.nested_covers (body.run_covers h.reachable.recoverable)
  by_cases hvalue : (parser.attempt (body.run (Grammar.call budget))).1.value? = none
  · refine ⟨hreachable, ?_⟩
    rw [Parser.attempt, Parser.settle_covers hcovers hvalue]
    exact inv.counter h.holds hcovers.symbols.nextRegion
  · cases hresult : parser.attempt (body.run (Grammar.call budget)) with
    | mk reply later =>
      cases reply with
      | matched value => rwa [Parser.settle_matched hresult] at hnested
      | _ => simp [hresult, Reply.value?] at hvalue

end

theorem rounds_at {body : σ → Program (σ ⊕ α)}
    (hbody : ∀ state inner, inv.At inner → inv.At ((body state).run (Grammar.call budget) inner).2) {state last : σ}
    {later : Parser} (h : inv.At parser)
    (hrounds : Parser.Rounds (fun state => (body state).run (Grammar.call budget)) state parser last later) :
    inv.At later := by
  induction hrounds with
  | first => exact h
  | @next middle last before after _ hround ih =>
    have hafter := hbody middle before ih
    rwa [hround] at hafter

section

variable {item : Program NodeId} (hitem : ∀ inner, inv.At inner → inv.At (item.run (Grammar.call budget) inner).2)
  (context : Context) (code : Code)

include hitem

theorem itemRound_at (h : inv.At parser) :
    inv.At (parser.itemRound context code (item.run (Grammar.call budget))).2 := by
  have hattempt := attempt_at hitem (h.move .forgetMismatch rfl)
  unfold Parser.itemRound
  generalize parser.forgetMismatch.attempt (item.run (Grammar.call budget)) = result at hattempt ⊢
  obtain ⟨reply, later⟩ := result
  cases reply with
  | matched node => exact hattempt.move (.mergeMismatch _) rfl
  | mismatch =>
    refine ⟨Parser.Reachable.kept.dropItem context code parser.position parser.furthest hattempt.reachable, ?_⟩
    rw [Parser.dropItem_symbols]
    exact hattempt.holds
  | _ => exact hattempt

theorem itemRounds_at {later : Parser} (h : inv.At parser)
    (hrounds : Parser.ItemRounds context code (item.run (Grammar.call budget)) parser later) : inv.At later := by
  induction hrounds with
  | first => exact h
  | next _ hround ih =>
    have hafter := itemRound_at hitem context code ih
    rwa [hround] at hafter

theorem parseItems_at (fuel : Nat) (items : List NodeId) (h : inv.At parser) :
    inv.At (Parser.parseItems context code (item.run (Grammar.call budget)) fuel items parser).2 := by
  induction fuel generalizing items parser with
  | zero => exact h
  | succ fuel ih =>
    rw [Parser.parseItems_succ]
    split
    · exact h
    · have hround := itemRound_at hitem context code h
      generalize parser.itemRound context code (item.run (Grammar.call budget)) = result at hround ⊢
      obtain ⟨reply, later⟩ := result
      cases reply with
      | matched node => exact ih _ hround
      | _ => exact hround

end

namespace Maintains

theorem run_at {program : Program α} [h : program.Maintains inv] (hcalls : Grammar.Tend inv budget) (inner : Parser)
    (hinner : inv.At inner) : inv.At (program.run (Grammar.call budget) inner).2 :=
  (h.tends hcalls inner hinner).1

theorem visits_at {program : Program α} [h : program.Maintains inv] (hcalls : Grammar.Tend inv budget) {inner now : Parser}
    (hinner : inv.At inner) (hnow : program.Visits (Grammar.call budget) (Grammar.Visits budget) inner now) : inv.At now :=
  (h.tends hcalls inner hinner).2.1 now hnow

end Maintains

section

variable {inv : Invariant}

instance (body : Program α) [body.Maintains inv] : Maintains inv (attempt body) where
  tends {budget} hcalls parser hparser := by
    have hrun : ∀ inner, inv.At inner → inv.At (body.run (Grammar.call budget) inner).2 := Maintains.run_at hcalls
    have hend : inv.At ((Program.attempt body).run (Grammar.call budget) parser).2 := by
      have hattempt := attempt_at hrun hparser
      rw [run_attempt]
      generalize parser.attempt (body.run _) = result at hattempt ⊢
      obtain ⟨reply, later⟩ := result
      cases reply <;> exact hattempt
    refine ⟨hend, ?_, fun _ _ _ => trivial⟩
    rintro now (rfl | rfl | ⟨inner, hinner, hnow⟩)
    · exact hparser
    · exact hend
    · exact Maintains.visits_at hcalls (hparser.deeper hinner) hnow

instance (body : Program α) [body.Maintains inv] : Maintains inv (nested body) where
  tends {budget} hcalls parser hparser := by
    have hend : inv.At ((Program.nested body).run (Grammar.call budget) parser).2 :=
      nested_at (Maintains.run_at hcalls) hparser
    refine ⟨hend, ?_, fun _ _ _ => trivial⟩
    rintro now (rfl | rfl | ⟨inner, hinner, hnow⟩)
    · exact hparser
    · exact hend
    · exact Maintains.visits_at hcalls (hparser.deeper hinner) hnow

theorem loop_maintains {body : σ → Program (σ ⊕ α)} {state : σ} (hbody : ∀ state, (body state).Maintains inv) :
    Maintains inv (loop body state) where
  tends {budget} hcalls parser hparser := by
    have hrun : ∀ state inner, inv.At inner → inv.At ((body state).run (Grammar.call budget) inner).2 :=
      fun state => Maintains.run_at hcalls
    have hend : inv.At ((Program.loop body state).run (Grammar.call budget) parser).2 :=
      Parser.Kept.repeatUntil hrun _ state hparser
    refine ⟨hend, ?_, fun _ _ _ => trivial⟩
    rintro now (rfl | rfl | ⟨last, later, hrounds, hnow⟩)
    · exact hparser
    · exact hend
    · exact Maintains.visits_at hcalls (rounds_at hrun hparser hrounds) hnow

instance (body : σ → Program (σ ⊕ α)) (state : σ) [∀ state, (body state).Maintains inv] :
    Maintains inv (loop body state) :=
  loop_maintains inferInstance

instance (context : Context) (code : Code) (item : Program NodeId) [item.Maintains inv] :
    Maintains inv (.items context code item) where
  tends {budget} hcalls parser hparser := by
    have hrun : ∀ inner, inv.At inner → inv.At (item.run (Grammar.call budget) inner).2 := Maintains.run_at hcalls
    have hstart : inv.At (parser.pushContext context) := hparser.move (.pushContext context) rfl
    have hitems := parseItems_at hrun context code (parser.cursor.remaining + 1) [] hstart
    have hend : inv.At ((Program.items context code item).run (Grammar.call budget) parser).2 :=
      hitems.move .popContext rfl
    refine ⟨hend, ?_, fun _ _ _ => trivial⟩
    rintro now (rfl | rfl | ⟨later, hrounds, inner, hinner, hnow⟩)
    · exact hparser
    · exact hend
    · have hlater := (itemRounds_at hrun context code hstart hrounds).move .forgetMismatch rfl
      exact Maintains.visits_at hcalls (hlater.deeper hinner) hnow

end

end Program

theorem Grammar.tend
    (h : ∀ {α : Type} (production : Production α), inv.allows production = true → (ofProduction production).Maintains inv)
    (budget : Nat) : Grammar.Tend inv budget := by
  induction budget with
  | zero => exact fun production _ parser hparser => ⟨hparser, fun _ hnow => hnow ▸ hparser⟩
  | succ budget ih =>
    intro α production hallowed parser hparser
    obtain ⟨hend, hvisits, -⟩ := (h production hallowed).tends ih parser hparser
    exact ⟨hend, hvisits⟩

end AdaSyntax
