import AdaSyntax.Proofs.Discipline.Adequacy
import AdaSyntax.Proofs.Parser.Enters

namespace AdaSyntax

namespace Program

open AdaSyntax.Parser

variable {α β σ : Type} {budget : Nat} {parser : Parser} {done done' : α → Parser → Prop}

def Secures (budget : Nat) (program : Program α) (parser : Parser) (done : α → Parser → Prop) : Prop :=
  ∀ value later, program.run (Grammar.call budget) parser = (.matched value, later) → done value later

namespace Secures

variable {program : Program α}

theorem mono (h : Secures budget program parser done)
    (hdone : ∀ value later, done value later → done' value later) : Secures budget program parser done' :=
  fun value later hrun => hdone value later (h value later hrun)

theorem both (h : Secures budget program parser done) (h' : Secures budget program parser done') :
    Secures budget program parser fun value later => done value later ∧ done' value later :=
  fun value later hrun => ⟨h value later hrun, h' value later hrun⟩

theorem pure {value : α} (h : done value parser) : Secures budget (.pure value) parser done := by
  rintro value later ⟨⟩
  exact h

theorem refused {expected : String} : Secures budget (.reject expected) parser done := by
  rintro value later ⟨⟩

theorem bind {first : Program β} {next : β → Program α} {middle : β → Parser → Prop}
    (hfirst : Secures budget first parser middle)
    (hnext : ∀ value later, middle value later → Secures budget (next value) later done) :
    Secures budget (first >>= next) parser done := by
  intro value later hrun
  obtain ⟨found, between, hresult, hrest⟩ := run_bind_matched hrun
  exact hnext found between (hfirst found between hresult) value later hrest

theorem skip {first : Program β} {next : β → Program α} (h : ∀ value later, Secures budget (next value) later done) :
    Secures budget (first >>= next) parser done := by
  intro value later hrun
  obtain ⟨found, between, -, hrest⟩ := run_bind_matched hrun
  exact h found between value later hrest

theorem step {op : Op α} (h : ∀ value later, parser.perform op = (.matched value, later) → done value later) :
    Secures budget (.step op) parser done :=
  h

theorem reads {first : Program β} {next : β → Program α} (hreads : Reads (Grammar.call budget) first)
    (h : ∀ value, Secures budget (next value) parser done) : Secures budget (first >>= next) parser done := by
  intro value later hrun
  obtain ⟨found, hfound⟩ := hreads parser
  rw [run_bind, hfound] at hrun
  exact h found value later hrun

theorem query {first : Program β} {answer : β} {next : β → Program α}
    (hfirst : first.run (Grammar.call budget) parser = (.matched answer, parser))
    (h : Secures budget (next answer) parser done) : Secures budget (first >>= next) parser done := by
  intro value later hrun
  rw [run_bind, hfirst] at hrun
  exact h value later hrun

theorem loop {body : σ → Program (σ ⊕ α)} {state : σ} (keeps : σ → Parser → Prop) (h : keeps state parser)
    (hround : ∀ state parser, keeps state parser → Secures budget (body state) parser fun
      | .inl state, later => keeps state later
      | .inr value, later => done value later) : Secures budget (.loop body state) parser done := by
  intro value later hrun
  rw [run_loop] at hrun
  generalize parser.cursor.remaining + 1 = fuel at hrun
  induction fuel generalizing state parser with
  | zero => cases hrun
  | succ fuel ih =>
    rw [Parser.repeatUntil] at hrun
    cases hresult : (body state).run (Grammar.call budget) parser with
    | mk reply between =>
      have hfound := fun found hfound => hround state parser h found between (hresult.trans hfound)
      rw [hresult] at hrun
      cases reply with
      | matched found =>
        have hfound := hfound found rfl
        cases found with
        | inl state => exact ih hfound hrun
        | inr value =>
          cases hrun
          exact hfound
      | _ => cases hrun

theorem nested {body : Program α} (h : Secures budget body parser.deeper fun value later => done value later.ascend) :
    Secures budget (.nested body) parser done := by
  intro value later hrun
  obtain ⟨-, inner, hinner, rfl⟩ := nested_matched hrun
  exact h value inner hinner

theorem attempt {body : Program β} {done : β → Parser → Prop}
    (h : Secures budget body parser.deeper fun value later => done value later.ascend) :
    Secures budget (.attempt body) parser fun found later =>
      (∀ value, found = some value → done value later) ∧ (found = none → later.cursor = parser.cursor) := by
  intro found later hrun
  have hallows := body.run_allows (Grammar.call_allows budget)
  have hcursor : (∀ value, (parser.attempt (body.run (Grammar.call budget))).1 ≠ .matched value) →
      (parser.attempt (body.run (Grammar.call budget))).2.cursor = parser.cursor := attempt_cursor hallows
  rw [run_attempt] at hrun
  cases hresult : parser.attempt (body.run (Grammar.call budget)) with
  | mk reply between =>
    rw [hresult] at hrun hcursor
    cases reply with
    | matched value =>
      obtain ⟨-, inner, hinner, rfl⟩ := attempt_matched hresult
      cases hrun
      exact ⟨fun _ hvalue => Option.some.inj hvalue ▸ h value inner hinner, nofun⟩
    | mismatch =>
      cases hrun
      exact ⟨nofun, fun _ => hcursor fun _ => nofun⟩
    | _ => cases hrun

theorem attemptIf {condition : Bool} {body : Program β} {done : β → Parser → Prop}
    (h : condition = true → Secures budget body parser.deeper fun value later => done value later.ascend) :
    Secures budget (Program.attemptIf condition body) parser fun found later =>
      (∀ value, found = some value → done value later) ∧ (found = none → later.cursor = parser.cursor) := by
  cases condition with
  | true => exact attempt (h rfl)
  | false => exact pure ⟨nofun, fun _ => rfl⟩

theorem call {production : Production α} (h : ∀ budget, Secures budget (Grammar.ofProduction production) parser done) :
    Secures budget (.call production) parser done := by
  intro value later hrun
  cases budget with
  | zero => cases hrun
  | succ budget => exact h budget value later hrun

theorem tokens : Secures budget program parser fun _ later => later.cursor.tokens = parser.cursor.tokens := by
  intro value later hrun
  have hallows := program.run_allows (Grammar.call_allows budget) parser
  rw [hrun] at hallows
  exact hallows.continues.moves.tokens

end Secures

def Finds (budget : Nat) (program : Program α) (parser : Parser) (done : α → Parser → Prop) : Prop :=
  parser.Reachable → ∀ value later, program.run (Grammar.call budget) parser = (.matched value, later) →
    done value later

theorem run_reachable {program : Program α} {value : α} {later : Parser} (h : parser.Reachable)
    (hrun : program.run (Grammar.call budget) parser = (.matched value, later)) : later.Reachable := by
  have hkept := Reachable.kept.run (Reachable.kept.call budget) program parser h
  rwa [hrun] at hkept

namespace Finds

theorem reachable {program : Program α} (h : parser.Reachable → Finds budget program parser done) :
    Finds budget program parser done :=
  fun hreachable => h hreachable hreachable

theorem mono {program : Program α} (h : Finds budget program parser done)
    (hdone : ∀ value later, later.Reachable → done value later → done' value later) :
    Finds budget program parser done' :=
  fun hreachable value later hrun =>
    hdone value later (run_reachable hreachable hrun) (h hreachable value later hrun)

theorem pure {value : α} (h : done value parser) : Finds budget (.pure value) parser done := by
  rintro - value later ⟨⟩
  exact h

theorem reject {expected : String} {next : β → Program α} :
    Finds budget (.reject expected >>= next) parser done := by
  rintro - value later ⟨⟩

theorem fail : Finds budget .fail parser done := by
  rintro - value later ⟨⟩

theorem bind {first : Program β} {next : β → Program α} {middle : β → Parser → Prop}
    (hfirst : Finds budget first parser middle)
    (hnext : ∀ value later, middle value later → Finds budget (next value) later done) :
    Finds budget (first >>= next) parser done := by
  intro hreachable
  have hmiddle : Secures budget first parser fun value later => later.Reachable ∧ middle value later :=
    fun value later hrun => ⟨run_reachable hreachable hrun, hfirst hreachable value later hrun⟩
  exact hmiddle.bind fun value later h => hnext value later h.2 h.1

theorem step {op : Op α} (h : ∀ value later, parser.perform op = (.matched value, later) → done value later) :
    Finds budget (.step op) parser done :=
  fun _ value later hrun => h value later hrun

theorem reads {first : Program β} {next : β → Program α} (hreads : Reads (Grammar.call budget) first)
    (h : ∀ value, Finds budget (next value) parser done) : Finds budget (first >>= next) parser done := by
  intro hreachable value later hrun
  obtain ⟨found, hfound⟩ := hreads parser
  rw [run_bind, hfound] at hrun
  exact h found hreachable value later hrun

theorem query {op : Op β} {answer : β} {next : β → Program α}
    (hperform : parser.perform op = (.matched answer, parser)) (h : Finds budget (next answer) parser done) :
    Finds budget (.step op >>= next) parser done := by
  have hquery : Finds budget (.step op) parser fun value later => value = answer ∧ later = parser := by
    refine .step fun value later heq => ?_
    obtain ⟨hvalue, rfl⟩ := Prod.mk.inj (heq.symm.trans hperform)
    exact ⟨Reply.matched.inj hvalue, rfl⟩
  refine bind hquery ?_
  rintro _ _ ⟨rfl, rfl⟩
  exact h

theorem computes {first : Program β} {next : β → Program α} {answer : Parser → β}
    (hcomputes : Computes (Grammar.call budget) first answer)
    (h : Finds budget (next (answer parser)) parser done) : Finds budget (first >>= next) parser done := by
  intro hreachable value later hrun
  rw [hcomputes.run_bind] at hrun
  exact h hreachable value later hrun

theorem both {program : Program α} (h : Finds budget program parser done) (h' : Finds budget program parser done') :
    Finds budget program parser fun value later => done value later ∧ done' value later :=
  fun hreachable value later hrun => ⟨h hreachable value later hrun, h' hreachable value later hrun⟩

theorem position {next : Nat → Program α} (h : Finds budget (next parser.position) parser done) :
    Finds budget (Program.step .position >>= next) parser done :=
  fun hreachable value later hrun => h hreachable value later hrun

theorem leads {program : Program α} {origin : Parser} (h : Leads (Grammar.call budget) origin program parser done) :
    Finds budget program parser done := by
  intro _ value later hrun
  have houtcome := h.outcome
  rwa [hrun] at houtcome

theorem made {program : Program α} {moved : Bool} {yield : α → Yield}
    (h : Builds (Grammar.call budget) program moved yield) :
    Finds budget program parser fun value later => Made parser later moved (yield value) :=
  .reachable fun hreachable => .leads (h parser hreachable.proper)

theorem builds {first : Program β} {next : β → Program α} {moved : Bool} {yield : β → Yield}
    (hbuilds : Builds (Grammar.call budget) first moved yield)
    (h : ∀ value later, Made parser later moved (yield value) → Finds budget (next value) later done) :
    Finds budget (first >>= next) parser done :=
  bind (.made hbuilds) h

theorem loop {body : σ → Program (σ ⊕ α)} {state : σ} (keeps : σ → Parser → Prop) (h : keeps state parser)
    (hround : ∀ state parser, keeps state parser → Finds budget (body state) parser fun
      | .inl state, later => keeps state later
      | .inr value, later => done value later) : Finds budget (.loop body state) parser done := by
  intro hreachable
  refine Secures.loop (fun state parser => parser.Reachable ∧ keeps state parser) ⟨hreachable, h⟩ ?_
  rintro state parser ⟨hreachable, h⟩ result later hrun
  have hresult := hround state parser h hreachable result later hrun
  cases result with
  | inl state => exact ⟨run_reachable hreachable hrun, hresult⟩
  | inr value => exact hresult

theorem attempt {body : Program β} {done : Option β → Parser → Prop} {moved : Bool} {yield : β → Yield}
    (hbuilds : Builds (Grammar.call budget) body moved yield)
    (hsome : Finds budget body parser.deeper fun value later => done (some value) later.ascend)
    (hnone : ∀ later, later.Resumes parser → done none later) : Finds budget (.attempt body) parser done := by
  intro hreachable value later hrun
  have houtcome : Outcome (·.Resumes parser) (fun _ _ => True) (parser.attempt (body.run (Grammar.call budget))) :=
    attempt_outcome ((hbuilds.deeper hreachable.proper).mono (fun _ hfails => hfails) fun _ _ _ => trivial)
  rw [run_attempt] at hrun
  cases hresult : parser.attempt (body.run (Grammar.call budget)) with
  | mk reply between =>
    rw [hresult] at hrun houtcome
    cases reply with
    | matched found =>
      obtain ⟨hdepth, inner, hinner, rfl⟩ := attempt_matched hresult
      obtain ⟨rfl, rfl⟩ : some found = value ∧ inner.ascend = later := by simpa using hrun
      have hdescend : parser.descend = .ok parser.deeper := if_neg (Nat.not_le.mpr hdepth)
      exact hsome (hreachable.move (.descend hdescend)) found inner hinner
    | mismatch =>
      obtain ⟨rfl, rfl⟩ : none = value ∧ between = later := by simpa using hrun
      exact hnone between houtcome
    | _ => cases hrun

theorem rule {rule : Rule} {done : NodeId → Parser → Prop}
    (h : ∀ budget, Finds budget (Grammar.ofRule rule) parser done) : Finds budget (Program.rule rule) parser done := by
  intro hreachable value later hrun
  cases budget with
  | zero => cases hrun
  | succ budget => exact h budget hreachable value later hrun

theorem tryRules {role : Role} {rules : List Rule} {done : NodeId → Parser → Prop} (keeps : Parser → Prop)
    (hrules : ∀ rule ∈ rules, rule ≠ .compilationUnit ∧ rule.role = role)
    (hresume : ∀ {parser later : Parser}, keeps parser → later.Resumes parser → keeps later)
    (hrule : ∀ rule ∈ rules, ∀ {parser : Parser}, keeps parser → ∀ budget,
      Finds budget (Grammar.ofRule rule) parser.deeper fun node later => done node later.ascend)
    (h : keeps parser) :
    Finds budget (Program.tryRules rules) parser fun found later => ∀ node, found = some node → done node later := by
  induction rules generalizing parser with
  | nil => exact .pure nofun
  | cons first rest ih =>
    obtain ⟨⟨hunit, -⟩, hrest⟩ := List.forall_mem_cons.mp hrules
    obtain ⟨hfirst, hothers⟩ := List.forall_mem_cons.mp hrule
    let middle : Option NodeId → Parser → Prop
      | some node, later => done node later
      | none, later => keeps later
    have hattempt : Finds budget (.attempt (Program.rule first)) parser middle :=
      .attempt (rule_builds first hunit) (.rule (hfirst h)) fun later hresumes => hresume h hresumes
    refine .bind hattempt fun found later hfound => ?_
    cases found with
    | some node => exact .pure fun other hother => Option.some.inj hother ▸ hfound
    | none => exact ih hrest hothers hfound

theorem firstOf {role : Role} {rules : List Rule} {done : NodeId → Parser → Prop} (keeps : Parser → Prop)
    (hrules : ∀ rule ∈ rules, rule ≠ .compilationUnit ∧ rule.role = role)
    (hresume : ∀ {parser later : Parser}, keeps parser → later.Resumes parser → keeps later)
    (hrule : ∀ rule ∈ rules, ∀ {parser : Parser}, keeps parser → ∀ budget,
      Finds budget (Grammar.ofRule rule) parser.deeper fun node later => done node later.ascend)
    (h : keeps parser) : Finds budget (Program.firstOf rules) parser done := by
  refine .bind (tryRules keeps hrules hresume hrule h) fun found later hfound => ?_
  cases found with
  | some node => exact .pure (hfound node rfl)
  | none => exact .fail

end Finds

end Program

end AdaSyntax
