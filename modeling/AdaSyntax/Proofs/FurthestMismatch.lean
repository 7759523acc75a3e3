import AdaSyntax.Compilation
import AdaSyntax.Proofs.Parser.Reach
import AdaSyntax.Proofs.RecoveredList

/-!
The mismatches that a run records, and the one of them that is kept. In the order of their records these are all
mismatches of the run, those of attempts that were given up and of items that were dropped included. Unless an error
ends the run, the mismatch on record behind it is the earliest of those that are furthest into the input; and an item
that was dropped is reported at the earliest furthest mismatch of the item itself.
-/

namespace AdaSyntax

namespace Mismatch

/-- Of the mismatches that were recorded one after the other, `found` is the first that is as far as any. -/
def Furthest (record : List Mismatch) : Option Mismatch → Prop
  | none => record = []
  | some found => ∃ before after, record = before ++ found :: after ∧
      (∀ earlier ∈ before, earlier.position < found.position) ∧ ∀ later ∈ after, later.position ≤ found.position

def recorded (outer : Option Mismatch) (record : List Mismatch) : Option Mismatch :=
  record.foldl (fun found mismatch => further found (some mismatch)) outer

variable {record : List Mismatch} {outer found : Option Mismatch}

theorem recorded_append (outer : Option Mismatch) (first second : List Mismatch) :
    recorded outer (first ++ second) = recorded (recorded outer first) second :=
  List.foldl_append

theorem further_recorded (outer found : Option Mismatch) (record : List Mismatch) :
    further outer (recorded found record) = recorded (further outer found) record := by
  induction record generalizing found with
  | nil => rfl
  | cons mismatch record ih =>
    simp only [recorded, List.foldl_cons] at ih ⊢
    rw [ih, further_assoc]

theorem further_none_right (outer : Option Mismatch) : further outer none = outer := by cases outer <;> rfl

theorem Furthest.snoc (h : Furthest record found) (mismatch : Mismatch) :
    Furthest (record ++ [mismatch]) (further found (some mismatch)) := by
  cases found with
  | none =>
    obtain rfl : record = [] := h
    exact ⟨[], [], rfl, nofun, nofun⟩
  | some found =>
    obtain ⟨before, after, rfl, hbefore, hafter⟩ := h
    simp only [further]
    split
    · rename_i hle
      refine ⟨before, after ++ [mismatch], by simp, hbefore, fun later hlater => ?_⟩
      rcases List.mem_append.mp hlater with hlater | hlater
      · exact hafter later hlater
      · obtain rfl := List.mem_singleton.mp hlater
        exact hle
    · rename_i hlt
      have hlt := Nat.not_le.mp hlt
      refine ⟨before ++ found :: after, [], rfl, fun earlier hearlier => ?_, nofun⟩
      rcases List.mem_append.mp hearlier with hearlier | hearlier
      · exact Nat.lt_trans (hbefore earlier hearlier) hlt
      · rcases List.mem_cons.mp hearlier with rfl | hearlier
        · exact hlt
        · exact Nat.lt_of_le_of_lt (hafter earlier hearlier) hlt

theorem furthest_recorded (outer : Option Mismatch) (record : List Mismatch) :
    Furthest (outer.toList ++ record) (recorded outer record) := by
  have h : ∀ (past : List Mismatch) (found : Option Mismatch), Furthest past found →
      Furthest (past ++ record) (recorded found record) := by
    induction record with
    | nil => exact fun past found h => (List.append_nil past).symm ▸ h
    | cons mismatch record ih =>
      intro past found h
      rw [List.append_cons]
      exact ih _ _ (h.snoc mismatch)
  refine h outer.toList outer ?_
  cases outer with
  | none => rfl
  | some found => exact ⟨[], [], rfl, nofun, nofun⟩

theorem Furthest.mem {mismatch : Mismatch} (h : Furthest record (some mismatch)) : mismatch ∈ record := by
  obtain ⟨before, after, rfl, -⟩ := h
  simp

end Mismatch

/-- A token that is missing is a mismatch, but for one that must not be missing at the end of the input. -/
def Op.record (parser : Parser) {α : Type} : Op α → List Mismatch
  | .expectChoice wanted => if parser.kind = wanted then [] else [⟨parser.position, wanted.description⟩]
  | .expect wanted =>
    if parser.kind = wanted || parser.cursor.atEnd then [] else [⟨parser.position, wanted.description⟩]
  | _ => []

namespace Parser

variable {α σ : Type}

def recordNested (record : Parser → List Mismatch) (parser : Parser) : List Mismatch :=
  match parser.descend with
  | .ok deeper => record deeper
  | .error _ => []

def recordUntil (body : σ → Parser → Reply (σ ⊕ α) × Parser) (record : σ → Parser → List Mismatch) :
    Nat → σ → Parser → List Mismatch
  | 0, _, _ => []
  | fuel + 1, state, parser =>
    record state parser ++
      match body state parser with
      | (.matched (.inl state), later) => recordUntil body record fuel state later
      | _ => []

def recordItems (context : Context) (code : Code) (item : Parser → Reply NodeId × Parser)
    (record : Parser → List Mismatch) : Nat → Parser → List Mismatch
  | 0, _ => []
  | fuel + 1, parser =>
    if parser.atListEnd context then []
    else
      parser.forgetMismatch.recordNested record ++
        match parser.itemRound context code item with
        | (.matched _, later) => recordItems context code item record fuel later
        | _ => []

end Parser

namespace Program

/-- All mismatches that a run of the program records, in that order. -/
def record (calls : ∀ {α : Type}, Production α → Parser → Reply α × Parser)
    (called : ∀ {α : Type}, Production α → Parser → List Mismatch) :
    ∀ {α : Type}, Program α → Parser → List Mismatch
  | _, .pure _, _ => []
  | _, .bind first next, parser =>
    record calls called first parser ++
      match run calls first parser with
      | (.matched value, later) => record calls called (next value) later
      | _ => []
  | _, .step op, parser => op.record parser
  | _, .reject expected, parser => [⟨parser.position, expected⟩]
  | _, .fail, _ => []
  | _, .call production, parser => called production parser
  | _, .attempt body, parser => parser.recordNested (record calls called body)
  | _, .nested body, parser => parser.recordNested (record calls called body)
  | _, .loop body state, parser =>
    Parser.recordUntil (fun state => run calls (body state)) (fun state => record calls called (body state))
      (parser.cursor.remaining + 1) state parser
  | _, .items context code item, parser =>
    Parser.recordItems context code (run calls item) (record calls called item) (parser.cursor.remaining + 1)
      (parser.pushContext context)

end Program

def Grammar.called : Nat → ∀ {α : Type}, Production α → Parser → List Mismatch
  | 0, _, _, _ => []
  | budget + 1, _, production, parser => (ofProduction production).record (call budget) (called budget) parser

/-- Whether a run goes on behind its reply: no error has ended it. -/
def Reply.goesOn {α : Type} : Reply α → Bool
  | .matched _ | .mismatch => true
  | _ => false

namespace Parser

variable {α β σ : Type} {parser : Parser}

structure Accounts (parser : Parser) (record : List Mismatch) (result : Reply α × Parser) : Prop where
  behind : ∀ mismatch ∈ record, parser.position ≤ mismatch.position
  furthest : result.1.goesOn = true → result.2.furthest = Mismatch.recorded parser.furthest record

namespace Accounts

theorem none {result : Reply α × Parser} (h : result.2.furthest = parser.furthest) : Accounts parser [] result :=
  ⟨fun _ hmem => absurd hmem List.not_mem_nil, fun _ => h⟩

theorem of_error {record : List Mismatch} {result : Reply α × Parser} (h : result.1.goesOn = false)
    (hbehind : ∀ mismatch ∈ record, parser.position ≤ mismatch.position) : Accounts parser record result :=
  ⟨hbehind, fun hgoes => absurd (hgoes.symm.trans h) (by decide)⟩

theorem ended {result : Reply α × Parser} (h : result.1.goesOn = false) : Accounts parser [] result :=
  .of_error h fun _ hmem => absurd hmem List.not_mem_nil

theorem recordMismatch {reply : Reply α} (expected : String) :
    Accounts parser [⟨parser.position, expected⟩] (reply, parser.recordMismatch expected) where
  behind mismatch h := by
    obtain rfl := List.mem_singleton.mp h
    exact Nat.le_refl _
  furthest _ := congrArg Parser.furthest (parser.recordMismatch_eq_further expected)

theorem andThen {first second : List Mismatch} {middle : Parser} {value : β} {result : Reply α × Parser}
    (h : Accounts parser first (.matched value, middle)) (hle : parser.position ≤ middle.position)
    (h' : Accounts middle second result) : Accounts parser (first ++ second) result where
  behind mismatch hmem := by
    rcases List.mem_append.mp hmem with hmem | hmem
    · exact h.behind mismatch hmem
    · exact Nat.le_trans hle (h'.behind mismatch hmem)
  furthest hgoes := by rw [h'.furthest hgoes, h.furthest rfl, Mismatch.recorded_append]

theorem congr {record : List Mismatch} {first : Reply α × Parser} {second : Reply β × Parser}
    (h : Accounts parser record first) (hgoes : second.1.goesOn = true → first.1.goesOn = true)
    (hfurthest : second.1.goesOn = true → second.2.furthest = first.2.furthest) : Accounts parser record second :=
  ⟨h.behind, fun hsecond => (hfurthest hsecond).trans (h.furthest (hgoes hsecond))⟩

end Accounts

theorem take_furthest (parser : Parser) : parser.take.2.furthest = parser.furthest := by
  unfold take
  cases parser.cursor.advance <;> rfl

theorem reportDeclared_furthest (parser : Parser) (id : SymbolId) (declared : Declared) :
    (parser.reportDeclared id declared).furthest = parser.furthest := by
  rcases parser.reportDeclared_reports id declared with heq | ⟨diagnostic, heq⟩ <;> rw [heq]
  rfl

theorem perform_furthest (parser : Parser) {op : Op α} (h : op.consumes = false) :
    (parser.perform op).2.furthest = parser.furthest := by
  cases op with
  | take => cases h
  | expect wanted => cases h
  | expectChoice wanted => cases h
  | fill id start payload =>
    simp only [perform, fillNode]
    cases parser.tree.fill id _ _ <;> rfl
  | declare name kind node shape => exact reportDeclared_furthest _ _ _
  | bind id => exact reportDeclared_furthest _ _ _
  | closeRegion =>
    simp only [perform]
    cases parser.symbols.closeRegion <;> rfl
  | find finding =>
    simp only [perform]
    rcases parser.find_reports finding with heq | ⟨diagnostic, heq⟩ <;> rw [heq]
    rfl
  | _ => rfl

theorem perform_accounts (op : Op α) (parser : Parser) : Accounts parser (op.record parser) (parser.perform op) := by
  have htake : Accounts parser [] (withPosition parser.position parser.take) := .none parser.take_furthest
  cases op with
  | take => exact htake
  | expectChoice wanted =>
    simp only [Op.record, perform, expectChoice]
    split
    · exact htake
    · exact .recordMismatch _
  | expect wanted =>
    simp only [Op.record, perform, expect]
    by_cases hkind : parser.kind = wanted
    · simp only [hkind, decide_true, Bool.true_or, if_true]
      exact htake
    · by_cases hend : parser.cursor.atEnd = true
      · simp only [hkind, hend, decide_false, Bool.or_true, if_true, if_false]
        exact .ended rfl
      · simp only [hkind, hend, decide_false, Bool.or_self, if_false, Bool.false_eq_true]
        exact .recordMismatch _
  | _ => exact .none (parser.perform_furthest rfl)

section

variable {record : Parser → List Mismatch}

theorem nested_accounts {body : Parser → Reply α × Parser}
    (h : Accounts parser.deeper (record parser.deeper) (body parser.deeper)) :
    Accounts parser (parser.recordNested record) (parser.nested body) := by
  unfold recordNested nested
  cases hdescend : parser.descend with
  | error error => exact .ended rfl
  | ok deeper =>
    obtain rfl := eq_deeper_of_descend hdescend
    exact ⟨h.behind, h.furthest⟩

theorem restore_furthest (parser : Parser) (checkpoint : Checkpoint) :
    (parser.restore checkpoint).2.furthest = parser.furthest := by
  unfold restore
  split
  · rfl
  · split <;> rfl

theorem attempt_accounts {body : Parser → Reply α × Parser}
    (h : Accounts parser.deeper (record parser.deeper) (body parser.deeper)) :
    Accounts parser (parser.recordNested record) (parser.attempt body) := by
  have hnested := nested_accounts h
  unfold attempt
  generalize parser.nested body = result at hnested ⊢
  obtain ⟨reply, later⟩ := result
  have hrestore := later.restore_furthest parser.checkpoint
  cases reply with
  | matched value => exact hnested
  | mismatch =>
    simp only [settle]
    generalize later.restore parser.checkpoint = restored at hrestore ⊢
    obtain ⟨error, restored⟩ := restored
    cases error with
    | none => exact hnested.congr id fun _ => hrestore
    | some error => exact .of_error rfl hnested.behind
  | _ =>
    simp only [settle]
    split <;> exact .of_error rfl hnested.behind

end

theorem repeatUntil_accounts {body : σ → Parser → Reply (σ ⊕ α) × Parser} {record : σ → Parser → List Mismatch}
    (hallows : ∀ state (parser : Parser), parser.Allows (body state parser))
    (h : ∀ state (parser : Parser), Accounts parser (record state parser) (body state parser)) (fuel : Nat) (state : σ)
    (parser : Parser) :
    Accounts parser (recordUntil body record fuel state parser) (repeatUntil body fuel state parser) := by
  induction fuel generalizing state parser with
  | zero => exact .ended rfl
  | succ fuel ih =>
    have hround := h state parser
    have hle := (hallows state parser).continues.position_le
    rw [recordUntil, repeatUntil]
    generalize body state parser = result at hround hle ⊢
    obtain ⟨reply, later⟩ := result
    cases reply with
    | matched value =>
      cases value with
      | inl state => exact hround.andThen hle (ih state later)
      | inr value =>
        rw [List.append_nil]
        exact hround.congr id fun _ => rfl
    | mismatch =>
      rw [List.append_nil]
      exact hround.congr id fun _ => rfl
    | _ =>
      rw [List.append_nil]
      exact .of_error rfl hround.behind

theorem resynchronize_furthest (parser : Parser) (closers : List TokenKind) :
    (parser.resynchronize closers).furthest = parser.furthest := by
  obtain ⟨cursor, heq, -⟩ := parser.resynchronize_eq closers
  rw [heq]

theorem itemRound_accounts (context : Context) (code : Code) {item : Parser → Reply NodeId × Parser}
    {record : Parser → List Mismatch} (h : ∀ parser : Parser, Accounts parser (record parser) (item parser))
    (parser : Parser) :
    Accounts parser (parser.forgetMismatch.recordNested record) (parser.itemRound context code item) := by
  have hattempt := attempt_accounts (h parser.forgetMismatch.deeper)
  have hmerge {found : Option Mismatch}
      (hfound : found = Mismatch.recorded none (parser.forgetMismatch.recordNested record)) :
      Mismatch.further parser.furthest found =
        Mismatch.recorded parser.furthest (parser.forgetMismatch.recordNested record) := by
    rw [hfound, Mismatch.further_recorded, Mismatch.further_none_right]
  unfold itemRound
  generalize parser.forgetMismatch.attempt item = result at hattempt ⊢
  obtain ⟨reply, later⟩ := result
  cases reply with
  | matched node =>
    refine ⟨hattempt.behind, fun _ => ?_⟩
    simp only [mergeMismatch_eq]
    exact hmerge (hattempt.furthest rfl)
  | mismatch =>
    refine ⟨hattempt.behind, fun _ => ?_⟩
    simp only [dropItem, mergeMismatch_eq, resynchronize_furthest]
    exact hmerge (hattempt.furthest rfl)
  | _ => exact .of_error rfl hattempt.behind

theorem parseItems_accounts {item : Parser → Reply NodeId × Parser} {record : Parser → List Mismatch}
    (hallows : ∀ parser : Parser, parser.Allows (item parser))
    (h : ∀ parser : Parser, Accounts parser (record parser) (item parser)) (context : Context) (code : Code)
    (fuel : Nat) (items : List NodeId) (parser : Parser) :
    Accounts parser (recordItems context code item record fuel parser)
      (parseItems context code item fuel items parser) := by
  induction fuel generalizing items parser with
  | zero => exact .ended rfl
  | succ fuel ih =>
    rw [recordItems, parseItems_succ]
    split
    · exact .none rfl
    · have hround := itemRound_accounts context code h parser
      have hle := (parser.itemRound_continues context code hallows).position_le
      generalize parser.itemRound context code item = result at hround hle ⊢
      obtain ⟨reply, later⟩ := result
      cases reply with
      | matched node => exact hround.andThen hle (ih _ later)
      | mismatch =>
        rw [List.append_nil]
        exact hround.congr id fun _ => rfl
      | _ =>
        rw [List.append_nil]
        exact .of_error rfl hround.behind

end Parser

namespace Program

open AdaSyntax.Parser

variable {calls : ∀ {α : Type}, Production α → Parser → Reply α × Parser}
variable {called : ∀ {α : Type}, Production α → Parser → List Mismatch} {α : Type}

theorem run_accounts
    (hallows : ∀ {α : Type} (production : Production α) (parser : Parser), parser.Allows (calls production parser))
    (h : ∀ {α : Type} (production : Production α) (parser : Parser),
      Accounts parser (called production parser) (calls production parser))
    (program : Program α) (parser : Parser) :
    Accounts parser (program.record calls called parser) (program.run calls parser) := by
  induction program generalizing parser with
  | pure value => exact .none rfl
  | bind first next ihfirst ihnext =>
    have hfirst := ihfirst parser
    have hle := (first.run_allows hallows parser).continues.position_le
    rw [record, run]
    generalize first.run calls parser = result at hfirst hle ⊢
    obtain ⟨reply, later⟩ := result
    cases reply with
    | matched value => exact hfirst.andThen hle (ihnext value later)
    | mismatch =>
      rw [List.append_nil]
      exact hfirst.congr id fun _ => rfl
    | _ =>
      rw [List.append_nil]
      exact .of_error rfl hfirst.behind
  | step op => exact perform_accounts op parser
  | reject expected => exact .recordMismatch expected
  | fail => exact .none rfl
  | call production => exact h production parser
  | attempt body ih =>
    have hbody := attempt_accounts (ih parser.deeper)
    rw [run_attempt, record]
    generalize parser.attempt (body.run calls) = result at hbody ⊢
    obtain ⟨reply, later⟩ := result
    cases reply with
    | matched value => exact hbody.congr id fun _ => rfl
    | mismatch => exact hbody.congr (fun _ => rfl) fun _ => rfl
    | _ => exact .of_error rfl hbody.behind
  | nested body ih => exact nested_accounts (ih parser.deeper)
  | loop body state ih =>
    exact repeatUntil_accounts (fun state parser => (body state).run_allows hallows parser) ih _ state parser
  | items context code item ih =>
    have hitems := parseItems_accounts (item.run_allows hallows) ih context code (parser.cursor.remaining + 1) []
      (parser.pushContext context)
    rw [run_items, record]
    exact ⟨hitems.behind, hitems.furthest⟩

end Program

theorem Grammar.call_accounts {α : Type} (budget : Nat) (production : Production α) (parser : Parser) :
    parser.Accounts (called budget production parser) (call budget production parser) := by
  induction budget generalizing α parser with
  | zero => exact .ended rfl
  | succ budget ih => exact (ofProduction production).run_accounts (call_allows budget) ih parser

namespace Parser

/-- The report on an item of a list that begins at `parser` and is none, because of a mismatch. -/
def unrecognized (parser : Parser) (context : Context) (code : Code) (mismatch : Mismatch) : Diagnostic :=
  let found := parser.cursor.tokenAt mismatch.position
  (Diagnostic.ofCode code (context.message found.description mismatch.expected) found.range).withRelated
    ("while parsing " ++ context.expected ++ " starting here") parser.current.range

theorem reportUnrecognized_eq (parser : Parser) {context : Context} {code : Code} {mismatch : Mismatch}
    (h : parser.furthest = some mismatch ∧ parser.position ≤ mismatch.position ∨
      parser.furthest = none ∧ mismatch = ⟨parser.position, context.expected⟩) :
    parser.reportUnrecognized context code parser.position =
      parser.report (parser.unrecognized context code mismatch) := by
  have hfirst : parser.cursor.tokenAt parser.position = parser.current := parser.cursor.tokenAt_position
  rcases h with ⟨hfurthest, hle⟩ | ⟨hfurthest, rfl⟩
  · simp only [reportUnrecognized, hfurthest, if_pos hle, hfirst, unrecognized]
  · simp only [reportUnrecognized, hfurthest, hfirst, unrecognized]

theorem dropItem_log (parser : Parser) (context : Context) (code : Code) (first : Nat) (outer : Option Mismatch) :
    (parser.dropItem context code first outer).log = (parser.reportUnrecognized context code first).log := by
  obtain ⟨cursor, heq, -⟩ := (parser.reportUnrecognized context code first).resynchronize_eq context.closers
  rw [dropItem, heq]
  rfl

/-- The mismatches that are recorded while an item of a list is attempted. -/
def itemRecord (parser : Parser) (context : Context) (budget : Nat) : List Mismatch :=
  parser.forgetMismatch.recordNested (context.item.record (Grammar.call budget) (Grammar.called budget))

theorem itemRound_reports {parser later : Parser} (hreachable : parser.Reachable) {context : Context} {code : Code}
    {budget : Nat}
    (h : parser.itemRound context code (context.item.run (Grammar.call budget)) = (.matched none, later)) :
    ∃ mismatch, (Mismatch.Furthest (parser.itemRecord context budget) (some mismatch) ∨
        parser.itemRecord context budget = [] ∧ mismatch = ⟨parser.position, context.expected⟩) ∧
      later.log = parser.log.report (parser.unrecognized context code mismatch) := by
  have hitem := Context.attempt_item hreachable context budget
  have hrecord : parser.forgetMismatch.Accounts (parser.itemRecord context budget)
      (parser.forgetMismatch.attempt (context.item.run (Grammar.call budget))) :=
    attempt_accounts (context.item.run_accounts (Grammar.call_allows budget) (Grammar.call_accounts budget) _)
  unfold itemRound at h
  generalize parser.forgetMismatch.attempt (context.item.run (Grammar.call budget)) = result at h hitem hrecord
  obtain ⟨reply, middle⟩ := result
  cases reply with
  | mismatch =>
    obtain ⟨-, rfl⟩ := Prod.mk.inj h
    obtain ⟨next, furthest, -, rfl⟩ := hitem
    have hfurthest : furthest = Mismatch.recorded none (parser.itemRecord context budget) := hrecord.furthest rfl
    have hfound : Mismatch.Furthest (parser.itemRecord context budget) furthest :=
      hfurthest ▸ Mismatch.furthest_recorded none _
    let tried : Parser :=
      { parser with symbols := { parser.symbols with nextRegion := next }, furthest }
    have hlog (mismatch : Mismatch)
        (h : furthest = some mismatch ∧ parser.position ≤ mismatch.position ∨
          furthest = none ∧ mismatch = ⟨parser.position, context.expected⟩) :
        (tried.dropItem context code tried.position parser.furthest).log =
          parser.log.report (parser.unrecognized context code mismatch) := by
      rw [dropItem_log, reportUnrecognized_eq tried h]
      rfl
    cases furthest with
    | none => exact ⟨_, .inr ⟨hfound, rfl⟩, hlog _ (.inr ⟨rfl, rfl⟩)⟩
    | some mismatch =>
      exact ⟨mismatch, .inl hfound, hlog _ (.inl ⟨rfl, hrecord.behind mismatch hfound.mem⟩)⟩
  | _ => cases h

end Parser

namespace Rule

/-- The mismatches that a run of the rule records. -/
def record (rule : Rule) (budget : Nat) (parser : Parser) : List Mismatch :=
  (Program.rule rule).record (Grammar.call budget) (Grammar.called budget) parser

/-- Behind a rule that no error ended, the first of the furthest mismatches is on record, of those that it recorded
and the one from before. Each item of a list that is dropped is reported at the first of its own furthest mismatches,
or at its first token if it recorded none. -/
theorem run_furthest {parser : Parser} (hreachable : parser.Reachable) :
    (∀ rule budget reply later, (Program.rule rule).run (Grammar.call budget) parser = (reply, later) →
      reply.goesOn = true →
        Mismatch.Furthest (parser.furthest.toList ++ record rule budget parser) later.furthest) ∧
    (∀ rule, (∀ error, ((Program.rule rule).execute parser).1 ≠ .fatal error) →
      ((Program.rule rule).execute parser).1.goesOn = true) ∧
    ∀ context code budget later,
      parser.itemRound context code (context.item.run (Grammar.call budget)) = (.matched none, later) →
        ∃ mismatch, (Mismatch.Furthest (parser.itemRecord context budget) (some mismatch) ∨
            parser.itemRecord context budget = [] ∧ mismatch = ⟨parser.position, context.expected⟩) ∧
          later.log = parser.log.report (parser.unrecognized context code mismatch) := by
  refine ⟨fun rule budget reply later hrun hgoes => ?_, fun rule hfatal => ?_,
    fun _ _ _ _ hround => Parser.itemRound_reports hreachable hround⟩
  · have haccounts :=
      (Program.rule rule).run_accounts (Grammar.call_allows budget) (Grammar.call_accounts budget) parser
    rw [hrun] at haccounts
    have hfurthest : later.furthest = Mismatch.recorded parser.furthest (record rule budget parser) :=
      haccounts.furthest hgoes
    rw [hfurthest]
    exact Mismatch.furthest_recorded _ _
  · have hends := (parser.progresses.execute_ends rule).1
    generalize ((Program.rule rule).execute parser).1 = reply at hends hfatal
    cases reply with
    | fatal error => exact absurd rfl (hfatal error)
    | exhausted => exact absurd rfl hends
    | _ => rfl

def brokenConstant : Parser := .new (.ofSource "X, Y : constant := (1 + ; end") { predefined := false }

def brokenRun : Reply NodeId × Parser :=
  (Program.rule .objectDeclaration).run (Grammar.call 200) brokenConstant

def brokenRound : Reply (Option NodeId) × Parser :=
  brokenConstant.itemRound .packageSpecification .unrecognizedDeclaration
    (Context.packageSpecification.item.run (Grammar.call 200))

/-- As a number it comes up to its semicolon, and that is reported; as an object it has not come that far, and the
mismatches of all other declarations lie in front of both. -/
theorem run_furthest_constant :
    brokenConstant.Reachable ∧
      Mismatch.Furthest (record .objectDeclaration 200 brokenConstant) brokenRun.2.furthest ∧
      brokenRun.2.furthest = some ⟨5, "a subtype indication"⟩ ∧
      ∃ mismatch, Mismatch.Furthest (brokenConstant.itemRecord .packageSpecification 200) (some mismatch) ∧
        brokenRound.2.log = brokenConstant.log.report
          (brokenConstant.unrecognized .packageSpecification .unrecognizedDeclaration mismatch) ∧
        brokenRound.2.log.records.toList.map (fun report => (report.message, report.range.start)) =
          [("unexpected ';' in package specification: expected an expression", 24)] := by
  have hfacts : brokenRun.1.goesOn = true ∧ brokenRun.2.furthest = some ⟨5, "a subtype indication"⟩ ∧
      brokenRound.1.value? = some none ∧ brokenConstant.itemRecord .packageSpecification 200 ≠ [] ∧
      brokenRound.2.log.records.toList.map (fun report => (report.message, report.range.start)) =
        [("unexpected ';' in package specification: expected an expression", 24)] := by decide +kernel
  obtain ⟨hgoes, hfurthest, hvalue, hnonempty, hreport⟩ := hfacts
  have hreachable : brokenConstant.Reachable := .new _ _
  obtain ⟨hrule, -, hitems⟩ := run_furthest hreachable
  have hround : brokenRound = (.matched none, brokenRound.2) := Reply.result_eq hvalue
  obtain ⟨mismatch, hfound, hlog⟩ := hitems _ _ _ _ hround
  have hfound := hfound.resolve_right fun hempty => hnonempty hempty.1
  have hnone : brokenConstant.furthest = none := rfl
  have hkept := hrule .objectDeclaration 200 brokenRun.1 brokenRun.2 (Prod.eta brokenRun).symm hgoes
  rw [hnone, Option.toList_none, List.nil_append] at hkept
  exact ⟨hreachable, hkept, hfurthest, mismatch, hfound, hlog, hreport⟩

end Rule

end AdaSyntax
