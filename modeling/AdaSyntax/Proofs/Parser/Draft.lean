import AdaSyntax.Parser.Program
import AdaSyntax.Proofs.Parser.Built

namespace AdaSyntax

def Reaches (moved : Bool) (low high : Nat) : Prop := if moved then low < high else low ≤ high

namespace Reaches

theorem le {moved : Bool} {low high : Nat} (h : Reaches moved low high) : low ≤ high := by
  cases moved
  · exact h
  · exact Nat.le_of_lt h

theorem trans {moved moved' : Bool} {low middle high : Nat} (h : Reaches moved low middle)
    (h' : Reaches moved' middle high) : Reaches (moved' || moved) low high := by
  cases moved' with
  | false =>
    cases moved with
    | false => exact Nat.le_trans h h'
    | true => exact Nat.lt_of_lt_of_le h h'
  | true => exact Nat.lt_of_le_of_lt h.le h'

end Reaches

namespace Parser

theorem recordMismatch_eq (parser : Parser) (expected : String) :
    ∃ furthest, parser.recordMismatch expected = { parser with furthest } := by
  unfold recordMismatch
  extract_lets further
  clear_value further
  cases further with
  | false => exact ⟨parser.furthest, rfl⟩
  | true => exact ⟨_, rfl⟩

theorem recordMismatch_revertsTo (parser : Parser) (expected : String) :
    (parser.recordMismatch expected).RevertsTo parser := by
  obtain ⟨furthest, heq⟩ := parser.recordMismatch_eq expected
  rw [heq]
  exact { RevertsTo.refl parser with }

structure Made (base parser : Parser) (moved : Bool) (yield : Yield) : Prop where
  proper : base.symbols.Proper
  course : ∃ nodes, Course base parser yield nodes
  reaches : Reaches moved base.position parser.position

namespace Made

variable {base middle parser later : Parser} {moved moved' : Bool} {yield yield' : Yield}

theorem refl (h : parser.symbols.Proper) : Made parser parser false .empty :=
  ⟨h, ⟨[], .refl parser⟩, Nat.le_refl _⟩

theorem none (role : Role) (h : parser.symbols.Proper) : Made parser parser false (.many role []) :=
  ⟨h, ⟨[], (Course.refl parser).weaken .none⟩, Nat.le_refl _⟩

theorem built (h : Made base parser moved yield) : ∃ nodes, Built base parser yield nodes := by
  obtain ⟨nodes, hcourse⟩ := h.course
  exact ⟨nodes, hcourse.built h.proper⟩

theorem reverts (h : Made base parser moved yield) : parser.RevertsTo base := by
  obtain ⟨nodes, hbuilt⟩ := h.built
  exact hbuilt.reverts

theorem grown (h : Made base parser moved yield) :
    SymbolTable.Grown base.symbols parser.symbols yield.opened.length := by
  obtain ⟨nodes, hbuilt⟩ := h.built
  exact hbuilt.scopes

theorem properLater (h : Made base parser moved yield) : parser.symbols.Proper := by
  obtain ⟨nodes, hbuilt⟩ := h.built
  exact hbuilt.proper

theorem symbols_le (h : Made base parser moved yield) :
    base.symbols.symbols.size ≤ parser.symbols.symbols.size :=
  h.grown.symbols_le

theorem trans (h : Made base middle moved yield) (h' : Made middle parser moved' yield') :
    Made base parser (moved' || moved) (yield ++ yield') := by
  obtain ⟨nodes, hcourse⟩ := h.course
  obtain ⟨nodes', hcourse'⟩ := h'.course
  exact ⟨h.proper, ⟨_, hcourse.append hcourse'⟩, h.reaches.trans h'.reaches⟩

theorem weaken (h : Made base parser moved yield) (hyield : yield.Weakens yield') :
    Made base parser moved yield' := by
  obtain ⟨nodes, hcourse⟩ := h.course
  exact ⟨h.proper, ⟨nodes, hcourse.weaken hyield⟩, h.reaches⟩

theorem forget (h : Made base parser moved yield) : Made base parser false yield :=
  { h with reaches := h.reaches.le }

theorem moved_of_pieces (h : Made base parser moved yield) (hpieces : yield.pieces ≠ []) :
    Made base parser true yield := by
  obtain ⟨nodes, hbuilt⟩ := h.built
  exact { h with reaches := hbuilt.row.lt_of_ne_nil (by simpa using hpieces) }

theorem place {token : Token} {cursor : Cursor} (h : Made base parser moved yield)
    (hadvance : parser.cursor.advance = .ok (token, cursor)) :
    Made base { parser with cursor } true { yield with places := yield.places ++ [parser.position] } := by
  obtain ⟨nodes, hcourse⟩ := h.course
  have hposition : ({ parser with cursor } : Parser).position = parser.position + 1 :=
    (Cursor.advance_eq hadvance).2
  refine ⟨h.proper, ⟨nodes, hcourse.advance hadvance⟩, ?_⟩
  exact Nat.lt_of_le_of_lt h.reaches.le (hposition ▸ Nat.lt_succ_self _)

theorem advance {token : Token} {cursor : Cursor} (h : Made base parser moved yield)
    (hadvance : parser.cursor.advance = .ok (token, cursor)) :
    Made base { parser with cursor } true yield :=
  (h.place hadvance).weaken (.unplaced _ _)

theorem resume (h : Made base parser moved yield) (hlater : later.Resumes parser) :
    Made base later moved yield := by
  obtain ⟨nodes, hcourse⟩ := h.course
  obtain ⟨next, furthest, hnext, rfl⟩ := hlater
  exact ⟨h.proper, ⟨nodes, hcourse.resume ⟨next, furthest, hnext, rfl⟩⟩, h.reaches⟩

theorem furthest (h : Made base parser moved yield) (furthest : Option Mismatch) :
    Made base { parser with furthest } moved yield :=
  h.resume ⟨parser.symbols.nextRegion, furthest, Nat.le_refl _, rfl⟩

theorem report {diagnostic : Diagnostic} (h : Made base parser moved yield)
    (hcode : diagnostic.code.isPlain = true) : Made base (parser.report diagnostic) moved yield := by
  obtain ⟨nodes, hcourse⟩ := h.course
  exact ⟨h.proper, ⟨nodes, hcourse.report hcode⟩, h.reaches⟩

theorem change {change : TableChange} (h : Made base parser moved yield)
    (hchange : Change base parser yield change yield') :
    Made base { parser with symbols := parser.symbols.change change } moved yield' := by
  obtain ⟨nodes, hcourse⟩ := h.course
  exact ⟨h.proper, ⟨nodes, hcourse.change hchange⟩, h.reaches⟩

theorem ascend (h : Made base.deeper parser moved yield) : Made base parser.ascend moved yield := by
  obtain ⟨nodes, hcourse⟩ := h.course
  exact ⟨h.proper, ⟨nodes, hcourse.nested⟩, h.reaches⟩

theorem popContext {context : Context} (h : Made (base.pushContext context) parser moved yield) :
    Made base parser.popContext moved yield := by
  obtain ⟨nodes, hcourse⟩ := h.course
  exact ⟨h.proper, ⟨nodes, hcourse.listed⟩, h.reaches⟩

theorem bounds {node : NodeId} (h : Made base parser moved (.expression node))
    (hname : (parser.tree.payload node).isSimpleName = false) :
    Made base parser moved (.one .bounds node) := by
  obtain ⟨nodes, hcourse⟩ := h.course
  exact ⟨h.proper, ⟨nodes, hcourse.bounds hname⟩, h.reaches⟩

theorem checkMark {node : NodeId} (h : Made base parser moved (.one .name node)) :
    Made base (parser.checkMark node) moved (.one .mark node) := by
  obtain ⟨nodes, hcourse⟩ := h.course
  have hposition : (parser.checkMark node).position = parser.position :=
    congrArg Cursor.position (parser.checkMark_reports node).cursor_eq
  exact ⟨h.proper, ⟨nodes, hcourse.mark⟩, hposition ▸ h.reaches⟩

theorem usePackages {packages : List NodeId} (h : Made base parser moved (.expressions packages)) :
    Made base (parser.usePackages packages) moved (.many .package packages) := by
  obtain ⟨nodes, hcourse⟩ := h.course
  have hposition : (parser.usePackages packages).position = parser.position :=
    congrArg Cursor.position (parser.usePackages_cursor packages)
  exact ⟨h.proper, ⟨nodes, hcourse.packages⟩, hposition ▸ h.reaches⟩

end Made

structure MadeNext (base parser : Parser) (yield : Yield) : Prop where
  reverts : parser.RevertsTo base
  next : ∀ token cursor, parser.cursor.advance = .ok (token, cursor) →
    Made base { parser with cursor } true yield

namespace MadeNext

variable {base middle parser : Parser} {moved : Bool} {yield yield' : Yield}

theorem of_made (h : Made base parser moved yield) : MadeNext base parser yield :=
  ⟨h.reverts, fun _ _ hadvance => h.advance hadvance⟩

theorem prepend (h : Made base middle moved yield) (h' : MadeNext middle parser yield') :
    MadeNext base parser (yield ++ yield') :=
  ⟨h'.reverts.trans h.reverts, fun _ _ hadvance => h.trans (h'.next _ _ hadvance)⟩

end MadeNext

end Parser

namespace Program

variable {calls : ∀ {α : Type}, Production α → Parser → Reply α × Parser}
variable {α β σ : Type}

theorem run_bind (first : Program β) (next : β → Program α) (parser : Parser) :
    (first >>= next).run calls parser =
      match first.run calls parser with
      | (.matched value, parser) => (next value).run calls parser
      | (.mismatch, parser) => (.mismatch, parser)
      | (.fatal error, parser) => (.fatal error, parser)
      | (.exhausted, parser) => (.exhausted, parser) := by
  change Program.run calls (.bind first next) parser = _
  generalize hresult : first.run calls parser = result
  obtain ⟨reply, later⟩ := result
  cases reply <;> simp only [Program.run, hresult]

theorem run_bind_matched {first : Program β} {next : β → Program α} {parser later : Parser} {value : α}
    (h : (first >>= next).run calls parser = (.matched value, later)) :
    ∃ middle between, first.run calls parser = (.matched middle, between) ∧
      (next middle).run calls between = (.matched value, later) := by
  rw [run_bind] at h
  generalize first.run calls parser = result at h
  obtain ⟨reply, between⟩ := result
  cases reply with
  | matched middle => exact ⟨middle, between, rfl, h⟩
  | _ => cases h

theorem run_bind_of_matched {first : Program β} {parser between : Parser} {middle : β}
    (h : first.run calls parser = (.matched middle, between)) (next : β → Program α) :
    (first >>= next).run calls parser = (next middle).run calls between := by
  rw [run_bind, h]

theorem run_attempt (body : Program α) (parser : Parser) :
    (Program.attempt body).run calls parser =
      match parser.attempt (body.run calls) with
      | (.matched value, parser) => (.matched (some value), parser)
      | (.mismatch, parser) => (.matched none, parser)
      | (.fatal error, parser) => (.fatal error, parser)
      | (.exhausted, parser) => (.exhausted, parser) := rfl

theorem run_loop (body : σ → Program (σ ⊕ α)) (state : σ) (parser : Parser) :
    (Program.loop body state).run calls parser =
      Parser.repeatUntil (fun state => (body state).run calls) (parser.cursor.remaining + 1) state
        parser := rfl

theorem run_items (context : Context) (code : Code) (item : Program NodeId) (parser : Parser) :
    (Program.items context code item).run calls parser =
      parser.parseList context code (item.run calls) := rfl

structure Leads (calls : ∀ {α : Type}, Production α → Parser → Reply α × Parser) (origin : Parser)
    (program : Program α) (parser : Parser) (done : α → Parser → Prop) : Prop where
  outcome : Outcome (·.RevertsTo origin) done (program.run calls parser)

def Ensures (calls : ∀ {α : Type}, Production α → Parser → Reply α × Parser) (program : Program α)
    (done : Parser → α → Parser → Prop) : Prop :=
  ∀ parser, parser.symbols.Proper → Leads calls parser program parser (done parser)

def Builds (calls : ∀ {α : Type}, Production α → Parser → Reply α × Parser) (program : Program α)
    (moved : Bool) (yield : α → Yield) : Prop :=
  Ensures calls program fun base value parser => Parser.Made base parser moved (yield value)

def Passes (calls : ∀ {α : Type}, Production α → Parser → Reply α × Parser) (program : Program α)
    (moved : Bool) : Prop :=
  Builds calls program moved fun _ => .empty

def Reads (calls : ∀ {α : Type}, Production α → Parser → Reply α × Parser) (program : Program α) :
    Prop :=
  ∀ parser, ∃ value, program.run calls parser = (.matched value, parser)

def Computes (calls : ∀ {α : Type}, Production α → Parser → Reply α × Parser) (program : Program α)
    (value : Parser → α) : Prop :=
  ∀ parser, program.run calls parser = (.matched (value parser), parser)

def Tells (calls : ∀ {α : Type}, Production α → Parser → Reply α × Parser) (program : Program α)
    (fact : Parser → α → Prop) : Prop :=
  ∀ parser, ∃ value, program.run calls parser = (.matched value, parser) ∧ fact parser value

structure Draft (origin base parser : Parser) (moved : Bool) (yield : Yield) : Prop where
  made : Parser.Made base parser moved yield
  reverts : base.RevertsTo origin

namespace Draft

variable {origin base parser : Parser} {moved : Bool} {yield yield' : Yield}

theorem refl (h : parser.symbols.Proper) : Draft parser parser parser false .empty :=
  ⟨.refl h, .refl parser⟩

theorem fails (h : Draft origin base parser moved yield) : parser.RevertsTo origin :=
  h.made.reverts.trans h.reverts

theorem moved_of_pieces (h : Draft origin base parser moved yield)
    (hpieces : yield.pieces ≠ []) : Draft origin base parser true yield :=
  ⟨h.made.moved_of_pieces hpieces, h.reverts⟩

theorem forget (h : Draft origin base parser moved yield) : Draft origin base parser false yield :=
  ⟨h.made.forget, h.reverts⟩

theorem trans {later : Parser} {moved' : Bool} {yield' : Yield}
    (h : Draft origin base parser moved yield) (h' : Parser.Made parser later moved' yield') :
    Draft origin base later (moved' || moved) (yield ++ yield') :=
  ⟨h.made.trans h', h.reverts⟩

theorem weaken (h : Draft origin base parser moved yield) (hyield : yield.Weakens yield') :
    Draft origin base parser moved yield' :=
  ⟨h.made.weaken hyield, h.reverts⟩

theorem serve {node : NodeId} {role role' : Role} (h : Draft origin base parser moved (.one role node))
    (hrole : role.Serves role') : Draft origin base parser moved (.one role' node) :=
  h.weaken (.one hrole)

end Draft

namespace Leads

variable {origin base parser : Parser} {done done' : α → Parser → Prop}

theorem pure {value : α} (h : done value parser) : Leads calls origin (.pure value) parser done :=
  ⟨h⟩

theorem mono {program : Program α} (h : Leads calls origin program parser done)
    (hdone : ∀ value parser, done value parser → done' value parser) :
    Leads calls origin program parser done' :=
  ⟨h.outcome.mono (fun _ h => h) hdone⟩

theorem bind {first : Program β} {next : β → Program α} {middle : β → Parser → Prop}
    (hfirst : Leads calls origin first parser middle)
    (hnext : ∀ value parser, middle value parser → Leads calls origin (next value) parser done) :
    Leads calls origin (first >>= next) parser done := by
  obtain ⟨hfirst⟩ := hfirst
  refine ⟨?_⟩
  rw [run_bind]
  generalize first.run calls parser = result at hfirst
  obtain ⟨reply, later⟩ := result
  cases reply with
  | matched value => exact (hnext value later hfirst).outcome
  | _ => exact hfirst

theorem pure_bind {value : β} {next : β → Program α}
    (h : Leads calls origin (next value) parser done) :
    Leads calls origin (Pure.pure value >>= next) parser done :=
  ⟨h.outcome⟩

theorem reject {expected : String} (h : parser.RevertsTo origin) :
    Leads calls origin (.reject expected) parser done :=
  ⟨(parser.recordMismatch_revertsTo expected).trans h⟩

theorem reject_bind {expected : String} {next : β → Program α} (h : parser.RevertsTo origin) :
    Leads calls origin (.reject expected >>= next) parser done :=
  (reject h : Leads calls origin (.reject expected) parser fun _ _ => False).bind
    fun _ _ hnever => hnever.elim

theorem fail (h : parser.RevertsTo origin) : Leads calls origin .fail parser done :=
  ⟨h⟩

end Leads

theorem Tells.bind {origin parser : Parser} {done : α → Parser → Prop} {first : Program β}
    {fact : Parser → β → Prop} {next : β → Program α} (hfirst : Tells calls first fact)
    (hnext : ∀ value, fact parser value → Leads calls origin (next value) parser done) :
    Leads calls origin (first >>= next) parser done := by
  obtain ⟨value, hvalue, hfact⟩ := hfirst parser
  refine ⟨?_⟩
  rw [run_bind, hvalue]
  exact (hnext value hfact).outcome

theorem Computes.tells {program : Program α} {value : Parser → α} (h : Computes calls program value) :
    Tells calls program fun parser result => result = value parser :=
  fun parser => ⟨value parser, h parser, rfl⟩

theorem Computes.run_bind {first : Program β} {value : Parser → β} {next : β → Program α}
    (h : Computes calls first value) (parser : Parser) :
    (first >>= next).run calls parser = (next (value parser)).run calls parser := by
  rw [Program.run_bind, h]

theorem Computes.bind {origin parser : Parser} {done : α → Parser → Prop} {first : Program β}
    {value : Parser → β} {next : β → Program α} (hfirst : Computes calls first value)
    (hnext : Leads calls origin (next (value parser)) parser done) :
    Leads calls origin (first >>= next) parser done :=
  hfirst.tells.bind fun _ hvalue => hvalue ▸ hnext

theorem Computes.seq {first : Program β} {value : Parser → β} {next : β → Program α}
    {fact : Parser → α → Prop} (h : Computes calls first value)
    (hnext : ∀ parser, ∃ result,
      (next (value parser)).run calls parser = (.matched result, parser) ∧ fact parser result) :
    Tells calls (first >>= next) fact := by
  intro parser
  rw [h.run_bind]
  exact hnext parser

theorem Tells.reads {program : Program α} {fact : Parser → α → Prop} (h : Tells calls program fact) :
    Reads calls program := fun parser =>
  have ⟨value, hvalue, _⟩ := h parser
  ⟨value, hvalue⟩

theorem Tells.computes {program : Program α} {value : Parser → α}
    (h : Tells calls program fun parser result => result = value parser) :
    Computes calls program value := by
  intro parser
  obtain ⟨result, hresult, rfl⟩ := h parser
  exact hresult

theorem Reads.bind {origin parser : Parser} {done : α → Parser → Prop} {first : Program β}
    {next : β → Program α} (hfirst : Reads calls first)
    (hnext : ∀ value, Leads calls origin (next value) parser done) :
    Leads calls origin (first >>= next) parser done := by
  have htells : Tells calls first fun _ _ => True := fun parser =>
    have ⟨value, hvalue⟩ := hfirst parser
    ⟨value, hvalue, trivial⟩
  exact htells.bind fun value _ => hnext value

theorem Reads.pure (value : α) : Reads calls (.pure value) :=
  fun _ => ⟨value, rfl⟩

theorem Reads.seq {first : Program β} {next : β → Program α} (h : Reads calls first)
    (hnext : ∀ value, Reads calls (next value)) : Reads calls (first >>= next) := by
  intro parser
  obtain ⟨value, hvalue⟩ := h parser
  obtain ⟨value', hvalue'⟩ := hnext value parser
  refine ⟨value', ?_⟩
  rw [run_bind, hvalue]
  exact hvalue'

section

variable {origin base parser : Parser} {moved moved' : Bool} {yield : Yield}
variable {done : α → Parser → Prop} {first : Program β} {next : β → Program α}

theorem Ensures.leads {program : Program α} {after : Parser → α → Parser → Prop}
    (hprogram : Ensures calls program after) (h : Draft origin base parser moved yield) :
    Leads calls origin program parser (after parser) :=
  ⟨(hprogram parser h.made.properLater).outcome.mono (fun _ hfails => hfails.trans h.fails)
    fun _ _ hafter => hafter⟩

theorem Builds.leads {program : Program α} {added : α → Yield}
    (hprogram : Builds calls program moved' added) (h : Draft origin base parser moved yield) :
    Leads calls origin program parser fun value later =>
      Draft origin base later (moved' || moved) (yield ++ added value) :=
  (Ensures.leads hprogram h).mono fun _ _ hadded => ⟨h.made.trans hadded, h.reverts⟩

theorem Builds.bind {added : β → Yield} (hfirst : Builds calls first moved' added)
    (h : Draft origin base parser moved yield)
    (hnext : ∀ value later,
      Draft origin base later (moved' || moved) (yield ++ added value) →
        Leads calls origin (next value) later done) :
    Leads calls origin (first >>= next) parser done :=
  (hfirst.leads h).bind hnext

theorem Passes.leads {program : Program α} (hprogram : Passes calls program moved')
    (h : Draft origin base parser moved yield) :
    Leads calls origin program parser fun _ later =>
      Draft origin base later (moved' || moved) yield := by
  refine (Builds.leads hprogram h).mono fun _ later h' => ?_
  rwa [Yield.append_empty] at h'

theorem Passes.bind (hfirst : Passes calls first moved')
    (h : Draft origin base parser moved yield)
    (hnext : ∀ value later, Draft origin base later (moved' || moved) yield →
      Leads calls origin (next value) later done) :
    Leads calls origin (first >>= next) parser done :=
  (hfirst.leads h).bind hnext

theorem Builds.intro {program : Program α} {added : α → Yield}
    (h : ∀ parser, Draft parser parser parser false .empty →
      Leads calls parser program parser fun value later =>
        Draft parser parser later moved (added value)) :
    Builds calls program moved added :=
  fun parser hproper => (h parser (.refl hproper)).mono fun _ _ h' => h'.made

theorem Builds.pure {value : α} {added : α → Yield} (h : Yield.empty.Weakens (added value)) :
    Builds calls (.pure value) false added :=
  fun _ hproper => ⟨(Parser.Made.refl hproper).weaken h⟩

theorem Passes.pure {value : α} : Passes calls (.pure value) false := Builds.pure (.refl _)

theorem Builds.map {f : β → α} {added : α → Yield}
    (h : Builds calls first moved fun value => added (f value)) :
    Builds calls (first >>= fun value => .pure (f value)) moved added :=
  fun parser hproper => Leads.bind (h parser hproper) fun _ _ hbuilt => .pure hbuilt

theorem Builds.weaken {program : Program α} {added added' : α → Yield}
    (h : Builds calls program moved added) (hadded : ∀ value, (added value).Weakens (added' value)) :
    Builds calls program moved added' :=
  fun parser hproper => Leads.mono (h parser hproper) fun _ _ hmade => hmade.weaken (hadded _)

theorem Builds.serve {program : Program α} {role role' : Role} {node : α → NodeId}
    (h : Builds calls program moved fun value => .one role (node value)) (hrole : role.Serves role') :
    Builds calls program moved fun value => .one role' (node value) :=
  h.weaken fun _ => .one hrole

theorem Builds.forget {program : Program α} {added : α → Yield}
    (h : Builds calls program moved added) : Builds calls program false added :=
  fun parser hproper => Leads.mono (h parser hproper) fun _ _ hbuilt => hbuilt.forget

end

section

variable {moved : Bool} {added : α → Yield}

theorem Builds.deeper {body : Program α} (h : Builds calls body moved added) {parser : Parser}
    (hproper : parser.symbols.Proper) :
    Outcome (·.RevertsTo parser.deeper)
      (fun value later => Parser.Made parser later.ascend moved (added value))
      (body.run calls parser.deeper) :=
  (h parser.deeper hproper).outcome.mono (fun _ hfails => hfails) fun _ _ hbuilt => hbuilt.ascend

theorem Builds.nested {body : Program α} (h : Builds calls body moved added) :
    Builds calls (.nested body) moved added :=
  fun _ hproper => ⟨Parser.nested_outcome (h.deeper hproper)⟩

theorem Builds.attempt {body : Program α} {added' : Option α → Yield}
    (h : Builds calls body moved added) (hnone : Yield.empty.Weakens (added' none))
    (hsome : ∀ value, added' (some value) = added value) :
    Builds calls (.attempt body) false added' := by
  intro parser hproper
  have hattempt : Outcome (·.Resumes parser)
      (fun value later => Parser.Made parser later moved (added value))
      (parser.attempt (body.run calls)) := Parser.attempt_outcome (h.deeper hproper)
  refine ⟨?_⟩
  rw [run_attempt]
  generalize parser.attempt (body.run calls) = result at hattempt ⊢
  obtain ⟨reply, later⟩ := result
  cases reply with
  | matched value =>
    change Parser.Made parser later moved (added value) at hattempt
    change Parser.Made parser later false (added' (some value))
    rw [hsome]
    exact hattempt.forget
  | mismatch => exact ((Parser.Made.refl hproper).resume hattempt).weaken hnone
  | fatal error => exact ((Parser.Made.refl hproper).resume hattempt).reverts
  | exhausted => exact ((Parser.Made.refl hproper).resume hattempt).reverts

end

theorem Leads.loop {origin parser : Parser} {body : σ → Program (σ ⊕ α)} {state : σ}
    {done : α → Parser → Prop} (keeps : σ → Parser → Prop) (h : keeps state parser)
    (hfails : ∀ state parser, keeps state parser → parser.RevertsTo origin)
    (hround : ∀ state parser, keeps state parser →
      Leads calls origin (body state) parser fun
        | .inl state, later => keeps state later
        | .inr value, later => done value later) :
    Leads calls origin (.loop body state) parser done := by
  refine ⟨?_⟩
  rw [run_loop]
  generalize parser.cursor.remaining + 1 = fuel
  induction fuel generalizing state parser with
  | zero => exact hfails _ _ h
  | succ fuel ih =>
    obtain ⟨hround⟩ := hround state parser h
    rw [Parser.repeatUntil]
    generalize (body state).run calls parser = result at hround ⊢
    obtain ⟨reply, later⟩ := result
    cases reply with
    | matched value =>
      cases value with
      | inl state => exact ih hround
      | inr value => exact hround
    | _ => exact hround

end Program

namespace Parser

namespace Made

variable {base parser : Parser} {yield : Yield}

theorem skip (h : Made base parser false yield) : Made base parser.skip false yield := by
  unfold Parser.skip
  split
  · rename_i hadvance
    exact (h.advance hadvance).forget
  · exact h

theorem skipPast (h : Made base parser false yield) (closers : List TokenKind) (fuel : Nat) :
    Made base (Parser.skipPast closers fuel parser) false yield := by
  induction fuel generalizing parser with
  | zero => exact h
  | succ fuel ih =>
    rw [Parser.skipPast]
    split
    · exact h
    · split
      · exact h.skip
      · exact ih h.skip

theorem resynchronize (h : Made base parser false yield) (closers : List TokenKind) :
    Made base (parser.resynchronize closers) false yield := by
  unfold Parser.resynchronize
  split
  · exact h.skip
  · exact h.skip.skipPast _ _

theorem dropItem {code : Code} (h : Made base parser false yield) (hcode : code.isPlain = true)
    (context : Context) (first : Nat) (outer : Option Mismatch) :
    Made base (parser.dropItem context code first outer) false yield :=
  ((h.report hcode).resynchronize _).furthest _

end Made

theorem parseItems_outcome {base parser : Parser} {item : Parser → Reply NodeId × Parser}
    {items : List NodeId} {role : Role} {code : Code} (context : Context)
    (hcode : code.isPlain = true) (fuel : Nat)
    (hitem : ∀ parser, parser.symbols.Proper →
      Outcome (·.Resumes parser) (fun node later => Made parser later false (.one role node))
        (parser.attempt item))
    (h : Made base parser false (.many role items.reverse)) :
    Outcome (·.RevertsTo base) (fun nodes later => Made base later false (.many role nodes))
      (parseItems context code item fuel items parser) := by
  induction fuel generalizing items parser with
  | zero => exact h.reverts
  | succ fuel ih =>
    rw [parseItems]
    split
    · exact h
    · have hforget : Made base parser.forgetMismatch false (.many role items.reverse) := h.furthest none
      have hattempt := hitem parser.forgetMismatch h.properLater
      dsimp only
      generalize parser.forgetMismatch.attempt item = result at hattempt ⊢
      obtain ⟨reply, later⟩ := result
      cases reply with
      | matched node =>
        refine ih (Made.furthest ?_ _)
        rw [List.reverse_cons, Yield.many_snoc]
        exact hforget.trans hattempt
      | mismatch => exact ih ((hforget.resume hattempt).dropItem hcode ..)
      | fatal error => exact (hforget.resume hattempt).reverts
      | exhausted => exact (hforget.resume hattempt).reverts

end Parser

namespace Program

variable {calls : ∀ {α : Type}, Production α → Parser → Reply α × Parser}

theorem Builds.items {moved : Bool} {item : Program NodeId} {role : Role} {context : Context}
    {code : Code} (h : Builds calls item moved (.one role))
    (hcode : code.isPlain = true) :
    Builds calls (.items context code item) false (.many role) := by
  intro parser hproper
  have hitem : ∀ parser : Parser, parser.symbols.Proper → Outcome (·.Resumes parser)
      (fun node later => Parser.Made parser later false (.one role node))
      (parser.attempt (item.run calls)) := fun parser hproper =>
    Parser.attempt_outcome <| Outcome.mono (h.deeper hproper) (fun _ hfails => hfails)
      fun _ _ hmade => hmade.forget
  have hstart : Parser.Made (parser.pushContext context) (parser.pushContext context) false
      (.many role (List.reverse [])) :=
    (@Parser.Made.refl (parser.pushContext context) hproper).weaken .none
  have hitems := Parser.parseItems_outcome context hcode (parser.cursor.remaining + 1) hitem hstart
  refine ⟨?_⟩
  rw [run_items, Parser.parseList]
  generalize Parser.parseItems context code (item.run calls) _ [] _ = result at hitems ⊢
  obtain ⟨reply, later⟩ := result
  have hfails : later.RevertsTo (parser.pushContext context) → later.popContext.RevertsTo parser :=
    fun hlater => { hlater with contexts := by simp [Parser.popContext, hlater.contexts, Parser.pushContext] }
  cases reply with
  | matched nodes => exact Parser.Made.popContext hitems
  | _ => exact hfails hitems

end Program

end AdaSyntax
