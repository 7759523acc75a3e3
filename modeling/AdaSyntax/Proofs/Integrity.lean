import AdaSyntax.Proofs.Compilation
import AdaSyntax.Proofs.Discipline.Throughout
import AdaSyntax.Proofs.Grammar.Effects

/-!
The contracts between the parser and its grammar. Whatever the tokens are, no rule breaks them: no mark is invalid,
no node is filled that is not reserved, no id is used that belongs to nothing, and no region is left open.
-/

namespace AdaSyntax

def Tree.Complete (tree : Tree) : Prop := ∀ id node, tree.get? id = some node → node.payload.isPlaceholder = false

theorem Tree.complete_iff {tree : Tree} : tree.Complete ↔ tree.Reserves 0 [] := by
  constructor
  · refine fun h => ⟨.nil, fun id => ⟨fun hid => absurd hid List.not_mem_nil, fun hid => ?_⟩⟩
    obtain ⟨-, node, hnode, hreserved⟩ := hid
    rw [h id node hnode] at hreserved
    cases hreserved
  · intro h id node hnode
    cases hreserved : node.payload.isPlaceholder with
    | false => rfl
    | true => exact absurd ((h.mem_iff id).mpr ⟨Nat.zero_le _, node, hnode, hreserved⟩) List.not_mem_nil

theorem Tree.fill_filled {tree filled : Tree} {id : NodeId} {range : Range} {payload : Payload Range}
    (h : tree.fill id range payload = .ok filled) :
    ∃ node, filled.get? id = some node ∧ node.payload.isPlaceholder = false := by
  unfold Tree.fill at h
  cases hnode : tree.get? id with
  | none => simp [hnode] at h
  | some node =>
    simp only [hnode] at h
    split at h
    · rename_i hreserved
      obtain rfl := Except.ok.inj h
      obtain ⟨-, hfilled⟩ := Bool.and_eq_true_iff.mp hreserved
      have hid := (Array.getElem?_eq_some_iff.mp hnode).1
      exact ⟨_, Tree.get?_replace_self _ hid, by simpa using hfilled⟩
    · cases h

theorem Cursor.MovesTo.find_eq {first last : Cursor} (h : first.MovesTo last) (hstart : first.position = 0)
    (hend : last.kind = .endOfFile) :
    first.tokens.toList.find? (fun token => token.kind = .endOfFile) = some last.current := by
  have htokens : last.tokens.toList = first.tokens.toList := congrArg Array.toList h.tokens
  have hlt : last.position < first.tokens.toList.length := by
    rw [← htokens, Array.length_toList]
    exact last.position_lt
  rw [List.find?_eq_some_iff_getElem]
  refine ⟨by simpa [Cursor.kind] using hend, last.position, hlt, ?_, fun index hindex => ?_⟩
  · simp [Cursor.current, ← h.tokens]
  · have hindex' : index < first.tokens.size := Nat.lt_trans hindex (by simpa using hlt)
    have hpassed := h.passed index (hstart ▸ Nat.zero_le _) hindex first.tokens[index] (by simp)
    simpa using hpassed

def Fatal.IsExpected (tokens : List Token) (options : Options) : Fatal → Prop
  | endOfStream offset => ∃ last, tokens.find? (fun token => token.kind = .endOfFile) = some last ∧ last.range.start = offset
  | depthExceeded limit _ => limit = options.maxDepth
  | _ => False

namespace Parser

open Program

/-- The parsers of a stream between any two rules: whichever rules have been attempted before, whether they matched or
not, and in whichever regions. -/
inductive Idle (cursor : Cursor) (options : Options) : Parser → Prop where
  | new : Idle cursor options (.new cursor options)
  | openRegion {parser : Parser} (h : Idle cursor options parser) (kind : RegionKind) :
      Idle cursor options { parser with symbols := parser.symbols.openRegion kind none }
  | attempt {parser : Parser} (h : Idle cursor options parser) (rule : Rule) :
      Idle cursor options (parser.attempt (Program.rule rule).execute).2

def stack (parser : Parser) : List (RegionId × RegionKind × Option SymbolId) :=
  parser.symbols.regions.map fun region => (region.id, region.kind, region.owner)

structure Steady (start parser : Parser) : Prop where
  proper : parser.symbols.Proper
  closed : parser.Closed
  complete : parser.tree.Complete
  continues : parser.Continues start

variable {start parser later : Parser} {cursor : Cursor} {options : Options}

theorem Steady.of_intact (h : Steady start parser) (h' : Intact parser [] later) (hcontinues : later.Continues parser) :
    Steady start later where
  proper := h'.proper
  closed := h'.closed
  complete := Tree.complete_iff.mpr ((Tree.complete_iff.mp h.complete).append h'.reserved h'.reverts.nodes)
  continues := hcontinues.trans h.continues

theorem attempt_intact (hproper : parser.symbols.Proper) (hclosed : parser.Closed) (rule : Rule) :
    Intact parser [] (parser.attempt (Program.rule rule).execute).2 ∧
      ∀ error, (parser.attempt (Program.rule rule).execute).1 = .fatal error → error.isInternal = false := by
  have hdeeper : Intact parser.deeper [] parser.deeper := (Intact.refl hproper hclosed).deeper
  have hbody : Upholds parser.deeper (fun _ later => Intact parser [] later.ascend)
      ((Program.rule rule).execute parser.deeper) :=
    ((rule_supplies rule).execute_upholds (Production.rule rule).rank_lt hdeeper.proper hdeeper.closed).mono
      fun _ _ hlater => hlater.2.ascend
  have hattempt : Outcome (·.Resumes parser) (fun _ later => Intact parser [] later)
      (parser.attempt (Program.rule rule).execute) ∧ _ := Upholds.attempt hbody
  refine ⟨?_, hattempt.2⟩
  have houtcome := hattempt.1
  generalize parser.attempt (Program.rule rule).execute = result at houtcome
  obtain ⟨reply, later⟩ := result
  cases reply with
  | matched node => exact houtcome
  | _ => exact (Intact.refl hproper hclosed).resume houtcome

theorem Idle.steady (h : Idle cursor options parser) : Steady (.new cursor options) parser := by
  induction h with
  | new =>
    have hempty : (Parser.new cursor options).tree.Complete := fun id node hnode => by
      simp [Parser.new, Tree.empty, Tree.get?] at hnode
    exact ⟨(Reachable.new _ _).proper, .new _ _, hempty, .refl _⟩
  | @openRegion parser _ kind ih =>
    have hclosed : ({ parser with symbols := parser.symbols.change (.openRegion kind none) } : Parser).Closed :=
      ih.closed.change rfl fun _ hid => (List.not_mem_nil hid).elim
    exact ⟨ih.proper.change (.openRegion kind none), hclosed, ih.complete,
      ⟨ih.continues.moves, ih.continues.options, ih.continues.depth, ih.continues.tree⟩⟩
  | attempt _ rule ih =>
    exact ih.of_intact (attempt_intact ih.proper ih.closed rule).1 (attempt_allows (Program.rule rule).execute_allows).continues

theorem Raises.isExpected {tokens : List Token} (hcursor : Cursor.ofTokens tokens.toArray = .ok cursor)
    (h : parser.Continues (.new cursor options)) {error : Fatal} (hraises : parser.Raises error)
    (hexternal : error.isInternal = false) : error.IsExpected tokens options := by
  have hraises := h.raises hraises
  cases error with
  | endOfStream offset =>
    obtain ⟨last, hmoves, hkind, hstart⟩ := hraises
    have hnew : cursor.tokens = tokens.toArray ∧ cursor.position = 0 := by
      unfold Cursor.ofTokens at hcursor
      split at hcursor
      · obtain rfl := Except.ok.inj hcursor
        exact ⟨rfl, rfl⟩
      · cases hcursor
    have hfind := hmoves.find_eq hnew.2 hkind
    exact ⟨_, by simpa [Parser.new, hnew.1] using hfind, hstart⟩
  | depthExceeded limit offset => exact hraises
  | _ => cases hexternal

structure Balanced (start parser : Parser) : Prop where
  proper : parser.symbols.Proper
  stack : parser.stack = start.stack

theorem Balanced.trans (h : Balanced start parser) (h' : Balanced parser later) : Balanced start later :=
  ⟨h'.proper, h'.stack.trans h.stack⟩

theorem attempt_balanced {body : Parser → Reply NodeId × Parser} {role : Role} {moved : Bool}
    (hproper : parser.symbols.Proper)
    (h : Outcome (·.RevertsTo parser.deeper) (fun node later => Made parser.deeper later moved (Yield.one role node).filing)
      (body parser.deeper)) : Balanced parser (parser.attempt body).2 := by
  have houtcome : Outcome (·.Resumes parser) (fun _ later => Balanced parser later) (parser.attempt body) :=
    attempt_outcome (h.mono (fun _ hfails => hfails) fun _ _ hmade => ⟨hmade.properLater, hmade.appends.stack⟩)
  generalize parser.attempt body = result at houtcome
  obtain ⟨reply, later⟩ := result
  cases reply with
  | matched node => exact houtcome
  | _ =>
    obtain ⟨next, furthest, -, rfl⟩ := houtcome
    exact ⟨hproper, rfl⟩

theorem repeatUntil_keeps {α σ : Type} {keeps : Parser → Prop} {body : σ → Parser → Reply (σ ⊕ α) × Parser}
    (hbody : ∀ state parser, keeps parser → keeps (body state parser).2) (fuel : Nat) (state : σ)
    (h : keeps parser) : keeps (repeatUntil body fuel state parser).2 := by
  induction fuel generalizing state parser with
  | zero => exact h
  | succ fuel ih =>
    have hround := hbody state parser h
    rw [repeatUntil]
    generalize body state parser = result at hround
    obtain ⟨reply, later⟩ := result
    cases reply with
    | matched result =>
      cases result with
      | inl next => exact ih next hround
      | inr value => exact hround
    | _ => exact hround

theorem compilationUnits_balanced {calls : ∀ {α : Type}, Production α → Parser → Reply α × Parser} [Sound calls]
    (hproper : parser.symbols.Proper) : Balanced parser (Grammar.compilationUnits.run calls parser).2 := by
  unfold Grammar.compilationUnits
  rw [run_loop]
  refine repeatUntil_keeps (fun units before h => ?_) _ _ (Balanced.mk hproper rfl)
  obtain ⟨atEnd, hrun⟩ := (isAt_reads .endOfFile : Reads calls _) before
  have hbuilds : Builds calls (rule .compilationUnit) true fun node => (Yield.one .declaration node).filing :=
    rule_files .compilationUnit
  have hunit := h.trans (attempt_balanced h.proper (hbuilds before.deeper h.proper).outcome)
  rw [run_bind, hrun]
  cases atEnd with
  | true => exact h
  | false =>
    dsimp only
    rw [if_neg Bool.false_ne_true, run_bind, run_attempt]
    generalize before.attempt ((rule .compilationUnit).run calls) = result at hunit
    obtain ⟨reply, later⟩ := result
    cases reply <;> exact hunit

theorem Accepts.fill_once {filled later : Parser} {id : NodeId} {start start' : Nat} {payload payload' : Payload Nat}
    (hfill : parser.perform (.fill id start payload) = (.matched (), filled)) (hlater : later.Continues filled) :
    ¬later.Accepts (.fill id start' payload') := by
  intro haccepts
  obtain ⟨reserved, hreserved, hplaceholder⟩ := haccepts.affords.hole id rfl
  simp only [Parser.perform, Parser.fillNode] at hfill
  cases htree : parser.tree.fill id (parser.rangeFrom (parser.place start).start) (payload.map parser.place) with
  | error error => simp [htree] at hfill
  | ok tree =>
    obtain rfl : { parser with tree } = filled := by simpa [htree] using hfill
    obtain ⟨node, hnode, hfilled⟩ := Tree.fill_filled htree
    rw [hlater.tree.get? id node hnode hfilled] at hreserved
    rw [← Option.some.inj hreserved, hfilled] at hplaceholder
    cases hplaceholder

/-- A rule that is attempted here keeps the contracts. -/
structure KeepsContracts (tokens : List Token) (options : Options) (parser : Parser) (rule : Rule) : Prop where
  fatal : ∀ error, (parser.attempt (Program.rule rule).execute).1 = .fatal error → error.IsExpected tokens options
  accepted : ∀ inner, parser.descend = .ok inner → (Program.rule rule).Accepted inner
  closed : (parser.attempt (Program.rule rule).execute).2.Closed
  complete : (parser.attempt (Program.rule rule).execute).2.tree.Complete
  stack : (parser.attempt (Program.rule rule).execute).2.stack = parser.stack

theorem Idle.keepsContracts {tokens : List Token} (hcursor : Cursor.ofTokens tokens.toArray = .ok cursor)
    (h : Idle cursor options parser) (rule : Rule) : KeepsContracts tokens options parser rule := by
  have hsteady := h.steady
  obtain ⟨hintact, hexternal⟩ := attempt_intact hsteady.proper hsteady.closed rule
  have hallows : parser.Allows (parser.attempt (Program.rule rule).execute) :=
    attempt_allows (Program.rule rule).execute_allows
  have hlater := hsteady.of_intact hintact hallows.continues
  refine ⟨fun error herror => ?_, fun inner hinner => ?_, hlater.closed, hlater.complete, ?_⟩
  · exact Raises.isExpected hcursor hsteady.continues (hallows.raises error herror) (hexternal error herror)
  · obtain rfl := eq_deeper_of_descend hinner
    exact (rule_supplies rule).accepted (Production.rule rule).rank_lt hsteady.proper (hsteady.closed.of_same rfl rfl)
  · exact (attempt_balanced hsteady.proper (rule.execute_outcome hsteady.proper)).stack

end Parser

namespace Compilation

/-- A parse of the tokens keeps the contracts. -/
structure KeepsContracts (tokens : List Token) (options : Options) (cursor : Cursor) : Prop where
  fatal : ∀ {lexical rejection error}, ofTokens tokens lexical options = .error rejection →
    rejection.fatal = some error → error.IsExpected tokens options
  accepted : Grammar.compilationUnits.Accepted (.new cursor options)
  closed : ∀ {lexical compilation}, ofTokens tokens lexical options = .ok compilation →
    ∀ id node, compilation.tree.get? id = some node →
      node.payload.Closed compilation.tree.size compilation.symbols.symbols.size
  complete : ∀ {lexical compilation}, ofTokens tokens lexical options = .ok compilation → compilation.tree.Complete
  /-- Accepted or not, only the library region is open in the end. -/
  stack : (Grammar.compilationUnits.execute (.new cursor options)).2.stack = [(⟨0⟩, .library, none)]

section

variable {tokens : List Token} {lexical : List Diagnostic} {options : Options} {cursor : Cursor}

theorem complete_intact {start later : Parser} (h : Parser.Intact start [] later) {units : List NodeId}
    (hunits : later.Knows fun know => ∀ node ∈ units, know.shallow node) :
    ∃ root, Parser.Intact start [] root ∧ root.tree = (later.complete lexical units).tree ∧
      root.symbols = (later.complete lexical units).symbols := by
  have hclosed : (Payload.unit (.compilation units later.symbols.librarySymbols) : Payload Range).Closed
      later.tree.size later.symbols.symbols.size :=
    ⟨fun id hid => hunits.here id hid, nofun⟩
  exact ⟨_, h.add (later.rangeFrom 0) hclosed rfl, rfl, rfl⟩

theorem keepsContracts (hcursor : Cursor.ofTokens tokens.toArray = .ok cursor) (options : Options) :
    KeepsContracts tokens options cursor := by
  have hproper := (Parser.Reachable.new cursor options).proper
  have hclosed := Parser.Closed.new cursor options
  have hupholds := Grammar.compilationUnits_supplies.execute_upholds (by decide) hproper hclosed
  have hallows := Grammar.compilationUnits.execute_allows (Parser.new cursor options)
  have hcompile : ∀ lexical, ofTokens tokens lexical options = (Parser.new cursor options).compile lexical :=
    fun lexical => by rw [ofTokens, hcursor]
  have hok : ∀ {lexical compilation}, ofTokens tokens lexical options = .ok compilation →
      ∃ root, Parser.Intact (.new cursor options) [] root ∧ root.tree = compilation.tree ∧
        root.symbols = compilation.symbols := by
    intro lexical compilation h
    rw [hcompile] at h
    unfold Parser.compile at h
    split at h
    · rename_i units later hexecute
      rw [hexecute] at hupholds
      obtain ⟨hunits, hlater⟩ := hupholds.outcome
      obtain rfl := Except.ok.inj h
      exact complete_intact hlater hunits
    all_goals cases h
  refine ⟨fun {lexical rejection error} h hfatal => ?_, ?_, fun h id node hnode => ?_, fun h => ?_, ?_⟩
  · rw [hcompile] at h
    unfold Parser.compile at h
    split at h
    · cases h
    · obtain rfl := Except.error.inj h
      cases hfatal
    · rename_i raised later hexecute
      obtain rfl := Except.error.inj h
      obtain rfl : raised = error := Option.some.inj hfatal
      rw [hexecute] at hupholds hallows
      exact Parser.Raises.isExpected hcursor (.refl _) (hallows.raises _ rfl) (hupholds.fatal _ rfl)
    · obtain rfl := Except.error.inj h
      cases hfatal
    · obtain rfl := Except.error.inj h
      cases hfatal
  · exact Grammar.compilationUnits_supplies.accepted (by decide) hproper hclosed
  · obtain ⟨root, hroot, htree, hsymbols⟩ := hok h
    rw [← htree, ← hsymbols]
    exact hroot.closed.nodes id node (htree ▸ hnode)
  · obtain ⟨root, hroot, htree, -⟩ := hok h
    rw [← htree]
    exact Tree.complete_iff.mpr hroot.reserved
  · rw [Program.execute, (Parser.compilationUnits_balanced hproper).stack]
    have hpredefined : SymbolTable.predefined.regions.map (fun region => (region.id, region.kind, region.owner)) =
        [(⟨0⟩, .library, none)] := by decide +kernel
    unfold Parser.stack Parser.new
    dsimp only
    split
    · exact hpredefined
    · rfl

end

end Compilation

/-- The contracts are kept on a stream of tokens. -/
structure Cursor.Integrity (tokens : List Token) (options : Options) (cursor : Cursor) : Prop where
  compilation : Compilation.KeepsContracts tokens options cursor
  rules : ∀ parser, Parser.Idle cursor options parser → ∀ rule, Parser.KeepsContracts tokens options parser rule
  /-- Trees are complete in the end, so each reserved node is filled; it is filled only once, since no step is
  accepted that would fill it again. -/
  fill_once : ∀ {before filled later : Parser} {id start start'} {payload payload' : Payload Nat},
    before.perform (.fill id start payload) = (.matched (), filled) → later.Continues filled →
      ¬later.Accepts (.fill id start' payload')

/-- No stream of tokens that ends with a marker makes the parser and its grammar break their contracts. -/
theorem Cursor.integrity (tokens : List Token) (options : Options)
    (hend : tokens.getLast?.map (·.kind) = some .endOfFile) :
    ∃ cursor, Cursor.ofTokens tokens.toArray = .ok cursor ∧ cursor.Integrity tokens options := by
  have hback : tokens.toArray.back?.map (·.kind) = some .endOfFile := by
    rw [List.back?_toArray]
    exact hend
  have hcursor : Cursor.ofTokens tokens.toArray = .ok _ := dif_pos hback
  exact ⟨_, hcursor, Compilation.keepsContracts hcursor options, fun _ hidle rule => hidle.keepsContracts hcursor rule,
    Parser.Accepts.fill_once⟩

def earlyEnd : List Token :=
  [.ofText .kwPackage "package" 0, .ofText .identifier "P" 8, .endOfFile 9, .endOfFile 12]

theorem Cursor.integrity_earlyEnd :
    earlyEnd.getLast?.map (·.kind) = some .endOfFile ∧
      ∃ cursor, Cursor.ofTokens earlyEnd.toArray = .ok cursor ∧ cursor.Integrity earlyEnd { maxDepth := 2 } :=
  ⟨rfl, Cursor.integrity earlyEnd { maxDepth := 2 } rfl⟩

end AdaSyntax
