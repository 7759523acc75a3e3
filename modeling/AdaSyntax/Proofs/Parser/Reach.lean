import AdaSyntax.Proofs.Parser.Blind
import AdaSyntax.Proofs.Parser.Continues
import AdaSyntax.Proofs.Sight.Production

namespace AdaSyntax

namespace Mismatch

def reach : Option Mismatch → Nat
  | some mismatch => mismatch.position + 1
  | none => 0

theorem reach_further (earlier later : Option Mismatch) :
    reach (further earlier later) = max (reach earlier) (reach later) := by
  cases earlier <;> cases later <;> grind [further, reach]

theorem mem_further {earlier later : Option Mismatch} {mismatch : Mismatch} (h : mismatch ∈ further earlier later) :
    mismatch ∈ earlier ∨ mismatch ∈ later := by
  cases earlier <;> cases later <;> grind [further]

end Mismatch

namespace Parser

def reach (parser : Parser) : Nat := Mismatch.reach parser.furthest

def Noted (parser : Parser) : Prop := parser.position < parser.reach

theorem recordMismatch_noted (parser : Parser) (expected : String) : (parser.recordMismatch expected).Noted := by
  rw [recordMismatch_eq_further]
  simp only [Noted, reach, Mismatch.reach_further]
  exact Nat.lt_of_lt_of_le (Nat.lt_succ_self _) (Nat.le_max_right _ _)

def remember (outer : Option Mismatch) (parser : Parser) : Parser :=
  { parser with furthest := Mismatch.further outer parser.furthest }

theorem forgetMismatch_remember (parser : Parser) : parser.forgetMismatch.remember parser.furthest = parser := by
  have hfurthest : Mismatch.further parser.furthest none = parser.furthest := by cases parser.furthest <;> rfl
  unfold remember forgetMismatch
  dsimp only
  rw [hfurthest]

theorem disguise_zero (outer : Option Mismatch) (parser : Parser) : parser.disguise 0 0 outer = parser.remember outer := by
  simp only [disguise, SymbolTable.renumber_zero, remember]

end Parser

namespace Program

open AdaSyntax.Parser

variable {α : Type} {budget : Nat} {parser later : Parser}

theorem run_remember (program : Program α) (budget : Nat) (outer : Option Mismatch) (parser : Parser) :
    Disguised 0 0 outer (program.run (Grammar.call budget) parser)
      (program.run (Grammar.call budget) (parser.remember outer)) := by
  rw [← disguise_zero]
  exact (Blind.run (Blind.call budget) program).disguised outer parser (Nat.zero_le _)

theorem run_remember_matched {program : Program α} {value : α} (outer : Option Mismatch)
    (h : program.run (Grammar.call budget) parser = (.matched value, later)) :
    program.run (Grammar.call budget) (parser.remember outer) = (.matched value, later.remember outer) := by
  have hremember := run_remember program budget outer parser
  rw [h] at hremember
  generalize program.run (Grammar.call budget) (parser.remember outer) = result at hremember
  cases hremember with
  | matched => rw [disguise_zero]

theorem reach_le_of_run {program : Program α} {reply : Reply α}
    (h : program.run (Grammar.call budget) parser = (reply, later)) (hfatal : ∀ error, reply ≠ .fatal error)
    (hexhausted : reply ≠ .exhausted) : parser.reach ≤ later.reach := by
  have hreach (first : Parser) : parser.reach ≤ (first.disguise 0 0 parser.furthest).reach := by
    simp only [disguise_zero, remember, reach, Mismatch.reach_further]
    exact Nat.le_max_left _ _
  have hremember := run_remember program budget parser.furthest parser.forgetMismatch
  rw [forgetMismatch_remember, h] at hremember
  generalize program.run (Grammar.call budget) parser.forgetMismatch = result at hremember
  cases hremember with
  | matched value first => exact hreach first
  | mismatch first => exact hreach first
  | fatal error => exact absurd rfl (hfatal error)
  | exhausted => exact absurd rfl hexhausted

end Program

namespace Parser

variable {α β σ : Type}

inductive Records (done : Bool → α → Prop) : Reply α × Parser → Prop where
  | matched {value : α} {parser : Parser} (noted : Bool) (h : done noted value)
      (hnoted : noted = true → parser.Noted) : Records done (.matched value, parser)
  | mismatch {parser : Parser} (h : parser.Noted) : Records done (.mismatch, parser)
  | fatal {error : Fatal} {parser : Parser} : Records done (.fatal error, parser)
  | exhausted {parser : Parser} : Records done (.exhausted, parser)

theorem Records.forget {done done' : Bool → α → Prop} {result : Reply α × Parser} (h : Records done result)
    (hdone : ∀ noted value, done noted value → done' false value) : Records done' result := by
  cases h with
  | matched noted h hnoted => exact .matched false (hdone _ _ h) nofun
  | mismatch h => exact .mismatch h
  | fatal => exact .fatal
  | exhausted => exact .exhausted

theorem reportDeclared_reach (parser : Parser) (id : SymbolId) (declared : Declared) :
    (parser.reportDeclared id declared).position = parser.position ∧
      (parser.reportDeclared id declared).reach = parser.reach := by
  rcases parser.reportDeclared_reports id declared with heq | ⟨diagnostic, heq⟩ <;> rw [heq] <;> exact ⟨rfl, rfl⟩

theorem perform_still (parser : Parser) {op : Op α} (h : op.consumes = false) :
    (parser.perform op).2.position = parser.position ∧ (parser.perform op).2.reach = parser.reach := by
  cases op with
  | take => cases h
  | expect kind => cases h
  | expectChoice kind => cases h
  | fill id start payload =>
    simp only [perform, fillNode]
    cases parser.tree.fill id _ _ <;> exact ⟨rfl, rfl⟩
  | declare name kind node shape => exact reportDeclared_reach _ _ _
  | bind id => exact reportDeclared_reach _ _ _
  | closeRegion =>
    simp only [perform]
    cases parser.symbols.closeRegion <;> exact ⟨rfl, rfl⟩
  | find finding =>
    simp only [perform]
    rcases parser.find_reports finding with heq | ⟨diagnostic, heq⟩ <;> rw [heq] <;> exact ⟨rfl, rfl⟩
  | _ => exact ⟨rfl, rfl⟩

theorem noted_of_perform {parser later : Parser} {op : Op α} (h : parser.perform op = (.mismatch, later)) :
    later.Noted := by
  have htake (position : Nat) : withPosition position parser.take ≠ (.mismatch, later) := by
    unfold take
    cases parser.cursor.advance <;> exact nofun
  cases op with
  | take => exact absurd h (htake _)
  | expect kind =>
    simp only [perform, expect] at h
    split at h
    · exact absurd h (htake _)
    · split at h
      · cases h
      · obtain ⟨-, rfl⟩ := Prod.mk.inj h
        exact parser.recordMismatch_noted _
  | expectChoice kind =>
    simp only [perform, expectChoice] at h
    split at h
    · exact absurd h (htake _)
    · obtain ⟨-, rfl⟩ := Prod.mk.inj h
      exact parser.recordMismatch_noted _
  | fill id start payload =>
    simp only [perform, fillNode] at h
    cases hfill : parser.tree.fill id (parser.rangeFrom (parser.place start).start) (payload.map parser.place) <;>
      rw [hfill] at h <;> cases h
  | closeRegion =>
    simp only [perform] at h
    cases hclose : parser.symbols.closeRegion <;> rw [hclose] at h <;> cases h
  | _ => cases h

theorem perform_records {parser : Parser} {op : Op α} {noted : Bool} {done : Bool → α → Prop}
    (hdone : ∀ value, done (noted && !op.consumes) value) (hnoted : noted = true → parser.Noted) :
    Records done (parser.perform op) := by
  generalize hresult : parser.perform op = result
  obtain ⟨reply, later⟩ := result
  cases reply with
  | matched value =>
    refine .matched _ (hdone value) fun hstill => ?_
    obtain ⟨hnoted', hconsumes⟩ := Bool.and_eq_true_iff.mp hstill
    obtain ⟨hposition, hreach⟩ := parser.perform_still (Bool.not_eq_true' _ ▸ hconsumes : op.consumes = false)
    rw [hresult] at hposition hreach
    have h := hnoted hnoted'
    unfold Noted at h ⊢
    rwa [hposition, hreach]
  | mismatch => exact .mismatch (noted_of_perform hresult)
  | fatal error => exact .fatal
  | exhausted => exact .exhausted

section

variable {done : Bool → α → Prop} {parser : Parser}

theorem nested_records {body : Parser → Reply α × Parser} (h : Records done (body parser.deeper)) :
    Records done (parser.nested body) := by
  unfold nested
  cases hdescend : parser.descend with
  | error error => exact .fatal
  | ok deeper =>
    obtain rfl := eq_deeper_of_descend hdescend
    dsimp only
    generalize body parser.deeper = result at h ⊢
    cases h with
    | matched noted h hnoted => exact .matched noted h hnoted
    | mismatch h => exact .mismatch h
    | fatal => exact .fatal
    | exhausted => exact .exhausted

theorem restore_reach (parser : Parser) (checkpoint : Checkpoint) :
    (parser.restore checkpoint).2.reach = parser.reach := by
  unfold restore
  split
  · rfl
  · split <;> rfl

theorem attempt_records {body : Parser → Reply α × Parser} (hallows : ∀ parser : Parser, parser.Allows (body parser))
    (h : Records done (body parser.deeper)) : Records done (parser.attempt body) := by
  have hnested := nested_records h
  have hcontinues := (nested_allows hallows : parser.Allows (parser.nested body)).continues
  unfold attempt
  generalize parser.nested body = result at hnested hcontinues ⊢
  cases hnested with
  | matched noted h hnoted => exact .matched noted h hnoted
  | @mismatch later h =>
    have hcursor := @settle_cursor _ parser ((.mismatch : Reply α), later) hcontinues nofun
    have hreach := later.restore_reach parser.checkpoint
    simp only [settle] at hcursor ⊢
    generalize later.restore parser.checkpoint = restored at hcursor hreach ⊢
    obtain ⟨error, restored⟩ := restored
    cases error with
    | some error => exact .fatal
    | none =>
      have hposition : restored.position = parser.position := congrArg Cursor.position hcursor
      refine .mismatch ?_
      calc restored.position = parser.position := hposition
        _ ≤ later.position := hcontinues.position_le
        _ < later.reach := h
        _ = restored.reach := hreach.symm
  | fatal =>
    simp only [settle]
    split <;> exact .fatal
  | exhausted =>
    simp only [settle]
    split
    · exact .exhausted
    · exact .fatal

theorem repeatUntil_records {body : σ → Parser → Reply (σ ⊕ α) × Parser} {keeps : σ → Prop} {good : α → Prop}
    (h : ∀ state, keeps state → ∀ parser, Records (fun _ => Sum.elim keeps good) (body state parser)) (fuel : Nat)
    {state : σ} (hstate : keeps state) (parser : Parser) :
    Records (fun _ => good) (repeatUntil body fuel state parser) := by
  induction fuel generalizing state parser with
  | zero => exact .exhausted
  | succ fuel ih =>
    have hround := h state hstate parser
    rw [repeatUntil]
    generalize body state parser = result at hround ⊢
    cases hround with
    | @matched value later noted hvalue hnoted =>
      cases value with
      | inl state => exact ih hvalue later
      | inr value => exact .matched noted hvalue hnoted
    | mismatch hnoted => exact .mismatch hnoted
    | fatal => exact .fatal
    | exhausted => exact .exhausted

theorem parseItems_ne_mismatch (context : Context) (code : Code) (item : Parser → Reply NodeId × Parser)
    (fuel : Nat) (items : List NodeId) (parser : Parser) :
    (parseItems context code item fuel items parser).1 ≠ .mismatch := by
  induction fuel generalizing items parser with
  | zero => exact fun h => by cases h
  | succ fuel ih =>
    rw [parseItems]
    split
    · exact fun h => by cases h
    · dsimp only
      generalize parser.forgetMismatch.attempt item = result
      obtain ⟨reply, later⟩ := result
      cases reply with
      | matched node => exact ih _ _
      | mismatch => exact ih _ _
      | fatal error => exact fun h => by cases h
      | exhausted => exact fun h => by cases h

theorem parseList_records {item : Parser → Reply NodeId × Parser} {context : Context} {code : Code} :
    Records (fun _ _ => True) (parser.parseList context code item) := by
  have hitems := parseItems_ne_mismatch context code item (parser.cursor.remaining + 1) []
    (parser.pushContext context)
  unfold parseList
  generalize parseItems context code item _ _ _ = result at hitems ⊢
  obtain ⟨reply, later⟩ := result
  cases reply with
  | matched nodes => exact .matched false trivial nofun
  | mismatch => exact absurd rfl hitems
  | fatal error => exact .fatal
  | exhausted => exact .exhausted

end

end Parser

theorem Op.shows_all {α : Type} (op : Op α) (value : α) : op.Shows (fun _ => True) value := by
  cases op <;> trivial

namespace Program

variable {α : Type}

theorem Heeds.run_records {calls : ∀ {α : Type}, Production α → Parser → Reply α × Parser}
    (hallows : ∀ {α : Type} (production : Production α) (parser : Parser), parser.Allows (calls production parser))
    (hcalls : ∀ {α : Type} (production : Production α) (parser : Parser),
      Parser.Records (fun _ _ => True) (calls production parser))
    {program : Program α} {noted : Bool} {done : Bool → α → Prop} (h : program.Heeds (fun _ => True) noted done)
    {parser : Parser} (hparser : noted = true → parser.Noted) : Parser.Records done (program.run calls parser) := by
  induction program generalizing noted parser with
  | pure value => exact .matched noted h hparser
  | bind first next ihfirst ihnext =>
    have hfirst := ihfirst h hparser
    change Parser.Records done (Program.run calls (first >>= next) parser)
    rw [run_bind]
    generalize first.run calls parser = result at hfirst ⊢
    cases hfirst with
    | matched noted hvalue hnoted => exact ihnext _ hvalue hnoted
    | mismatch hnoted => exact .mismatch hnoted
    | fatal => exact .fatal
    | exhausted => exact .exhausted
  | step op => exact Parser.perform_records (fun value => h.2 value (Op.shows_all op value)) hparser
  | reject expected => exact .mismatch (parser.recordMismatch_noted expected)
  | fail => exact .mismatch (hparser h)
  | call production =>
    exact (hcalls production parser).forget fun _ value _ => h value
  | attempt body ih =>
    have hattempt := Parser.attempt_records (run_allows hallows body) (@ih _ _ h.1 parser.deeper nofun)
    rw [run_attempt]
    generalize parser.attempt (body.run calls) = result at hattempt ⊢
    cases hattempt with
    | matched noted hvalue hnoted => exact .matched false hvalue nofun
    | mismatch hnoted => exact .matched true h.2 fun _ => hnoted
    | fatal => exact .fatal
    | exhausted => exact .exhausted
  | nested body ih =>
    exact (Parser.nested_records (@ih _ _ h parser.deeper nofun)).forget fun _ _ hvalue => hvalue
  | loop body state ih =>
    obtain ⟨keeps, hstate, hround⟩ := h
    have hrounds (state : _) (hkeeps : keeps state) (parser : Parser) :
        Parser.Records (fun _ => Sum.elim keeps (done false)) ((body state).run calls parser) := by
      refine (@ih state _ _ (hround state hkeeps) parser nofun).forget fun _ result hresult => ?_
      cases result <;> exact hresult
    exact (Parser.repeatUntil_records hrounds _ hstate parser).forget fun _ _ hvalue => hvalue
  | items context code item ih => exact (Parser.parseList_records).forget fun _ nodes _ => h.2.2 nodes

theorem call_records {α : Type} (budget : Nat) (production : Production α) (parser : Parser) :
    Parser.Records (fun _ _ => True) (Grammar.call budget production parser) := by
  induction budget generalizing α parser with
  | zero => exact .exhausted
  | succ budget ih =>
    exact Heeds.run_records (Grammar.call_allows budget) ih (Minds.of_heedful (Grammar.ofProduction production)) nofun

theorem noted_of_run {program : Program α} {done : Bool → α → Prop} (h : program.Heeds (fun _ => True) false done)
    {budget : Nat} {parser later : Parser} (hrun : program.run (Grammar.call budget) parser = (.mismatch, later)) :
    later.Noted := by
  have hrecords := @Heeds.run_records _ _ (Grammar.call_allows budget) (call_records budget) _ _ _ h parser nofun
  rw [hrun] at hrecords
  cases hrecords with
  | mismatch hnoted => exact hnoted

end Program

end AdaSyntax
