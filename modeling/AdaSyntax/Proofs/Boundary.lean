import AdaSyntax.Compilation
import AdaSyntax.Proofs.Progress
import AdaSyntax.Proofs.Sight.Seal

/-!
What a compilation unit depends on. Where everything that came to nothing while it was read did so in front of some
edge, no token behind the edge has a part in the unit, and a text that is cut off at the end of its units, if this is
the edge, is parsed as far as it goes. An alternative that was given up may have come further, and then it matters
what stands there: on another stream it can end the whole parse.
-/

namespace AdaSyntax

namespace Parser

/-- What was read up to here, and what was tried in between, lies in front of the edge, which is here or behind a token
that nothing looks over. -/
structure Confined (edge : Nat) (later : Parser) : Prop where
  position_le : later.position ≤ edge
  noted : ∀ mismatch ∈ later.furthest, mismatch.position < edge
  stop : edge = later.position ∨ ∃ token, later.cursor.tokens[edge - 1]? = some token ∧ token.kind.isStop = true

/-- The units were read one behind the other, from the first parser on to the second. -/
inductive Gathers : Parser → List NodeId → Parser → Prop where
  | nil {parser : Parser} : Gathers parser [] parser
  | cons {parser middle later : Parser} {unit : NodeId} {units : List NodeId}
      (hunit : parser.attempt (Program.rule .compilationUnit).execute = (.matched unit, middle))
      (hunits : Gathers middle units later) : Gathers parser (unit :: units) later

variable {tokens : Array Token} {edge : Nat} {parser first second later : Parser} {cursor : Cursor} {unit : NodeId}
  {units : List NodeId}

theorem reach_le_iff : parser.reach ≤ edge ↔ ∀ mismatch ∈ parser.furthest, mismatch.position < edge := by
  unfold reach
  cases parser.furthest with
  | none => exact ⟨nofun, fun _ => Nat.zero_le _⟩
  | some mismatch => exact ⟨fun h _ hmem => Option.some.inj hmem ▸ h, fun h => h mismatch rfl⟩

theorem Confined.reach_le (h : Confined edge later) : later.reach ≤ edge := reach_le_iff.mpr h.noted

theorem Twins.eq_onto (h : Twins tokens edge first second) : second = first.onto second.cursor := by
  obtain ⟨-, -, -⟩ := h
  rfl

theorem Confined.beside (h : Confined edge later) (hmoves : parser.cursor.MovesTo later.cursor)
    (hlt : parser.position < later.position) (hkind : later.lastKind? = some .semicolon)
    (hposition : cursor.position = parser.position)
    (hsame : ∀ index < edge, cursor.tokens[index]? = parser.cursor.tokens[index]?) :
    parser.cursor.Beside edge cursor := by
  have hpos : 0 < edge := Nat.zero_lt_of_lt (Nat.lt_of_lt_of_le hlt h.position_le)
  obtain ⟨last, hlast, hstop⟩ : ∃ token, parser.cursor.tokens[edge - 1]? = some token ∧ token.kind.isStop = true := by
    rw [← hmoves.tokens]
    rcases h.stop with rfl | hstop
    · obtain ⟨token, htoken, hsemicolon⟩ := Option.map_eq_some_iff.mp hkind
      exact ⟨token, htoken, by rw [hsemicolon]; rfl⟩
    · exact hstop
  have hlast' : cursor.tokens[edge - 1]? = some last := (hsame _ (Nat.sub_lt hpos Nat.one_pos)).trans hlast
  have hsize := (Array.getElem?_eq_some_iff.mp hlast).1
  have hsize' := (Array.getElem?_eq_some_iff.mp hlast').1
  refine ⟨by omega, by omega, hsame, fun index token hindex htoken => ?_, hposition⟩
  obtain rfl : index = edge - 1 := by omega
  rw [hlast] at htoken
  exact Option.some.inj htoken ▸ hstop

theorem unit_closes (edge : Nat) : (Program.rule .compilationUnit).Closes edge True :=
  .rule Grammar.compilationUnit_closes

theorem execute_onto (hrecoverable : parser.symbols.Recoverable)
    (hrun : (Program.rule .compilationUnit).execute parser = (.matched unit, later)) (hconfined : Confined edge later)
    (hposition : cursor.position = parser.position)
    (hsame : ∀ index < edge, cursor.tokens[index]? = parser.cursor.tokens[index]?) :
    ∃ cursor', cursor'.tokens = cursor.tokens ∧ cursor'.position = later.position ∧
      (Program.rule .compilationUnit).execute (parser.onto cursor) = (.matched unit, later.onto cursor') := by
  obtain ⟨hlt, hkind⟩ := (unit_closes edge).moves hrun
  have hmoves := ((Program.rule .compilationUnit).execute_allows parser).continues.moves
  rw [hrun] at hmoves
  have hreach := Nat.le_trans (Program.reach_le_of_run hrun nofun nofun) hconfined.reach_le
  have htwins : Twins parser.cursor.tokens edge parser (parser.onto cursor) :=
    .intro rfl (hconfined.beside hmoves hlt hkind hposition hsame) (reach_le_iff.mp hreach)
  have hmeets := (unit_closes edge).meets (Grammar.callBudget (parser.onto cursor)) trivial hrun hrecoverable
    htwins (Nat.lt_of_lt_of_le hlt hconfined.position_le) hconfined.position_le hconfined.reach_le
  change Program.Meets _ _ _ _ ((Program.rule .compilationUnit).execute (parser.onto cursor)) at hmeets
  have hends := ((parser.onto cursor).progresses.execute_ends .compilationUnit).1
  have htokens := ((Program.rule .compilationUnit).execute_allows (parser.onto cursor)).continues.moves.tokens
  generalize (Program.rule .compilationUnit).execute (parser.onto cursor) = result at hmeets hends htokens ⊢
  cases hmeets with
  | exhausted => exact absurd rfl hends
  | matched hlater => exact ⟨_, htokens, hlater.position, Prod.ext rfl hlater.eq_onto⟩

theorem attempt_execute (parser : Parser) : parser.attempt (Program.rule .compilationUnit).execute =
    parser.attempt ((Program.rule .compilationUnit).run (Grammar.call (Grammar.callBudget parser.deeper))) :=
  attempt_congr rfl

theorem attempt_reach_le (h : parser.attempt (Program.rule .compilationUnit).execute = (.matched unit, later)) :
    parser.reach ≤ later.reach := by
  obtain ⟨-, inner, hinner, rfl⟩ := attempt_matched h
  have hreach : parser.deeper.reach ≤ inner.reach := Program.reach_le_of_run hinner nofun nofun
  exact hreach

theorem Gathers.le (h : Gathers parser units later) : parser.position ≤ later.position ∧ parser.reach ≤ later.reach := by
  induction h with
  | nil => exact ⟨Nat.le_refl _, Nat.le_refl _⟩
  | cons hunit _ ih =>
    exact ⟨Nat.le_trans (Nat.le_of_lt ((progresses _).attempt_lt hunit)) ih.1, Nat.le_trans (attempt_reach_le hunit) ih.2⟩

theorem Gathers.moves (h : Gathers parser units later) : parser.cursor.MovesTo later.cursor := by
  induction h with
  | nil => exact .refl _
  | @cons parser _ _ _ _ hunit _ ih =>
    have hallows : parser.Allows _ := attempt_allows (Program.rule .compilationUnit).execute_allows
    rw [hunit] at hallows
    exact hallows.continues.moves.trans ih

theorem Gathers.lastKind? (h : Gathers parser units later) (hunits : units ≠ []) :
    parser.position < later.position ∧ later.lastKind? = some .semicolon := by
  induction h with
  | nil => exact absurd rfl hunits
  | @cons parser middle later unit units hunit hrest ih =>
    obtain ⟨-, inner, hinner, rfl⟩ := attempt_matched hunit
    obtain ⟨hlt, hkind⟩ := (unit_closes 0).moves hinner
    cases hrest with
    | nil => exact ⟨hlt, hkind⟩
    | cons hunit' hrest =>
      obtain ⟨hlt', hkind'⟩ := ih (List.cons_ne_nil _ _)
      exact ⟨Nat.lt_trans hlt hlt', hkind'⟩

theorem Gathers.onto (h : Gathers first units later) (hrecoverable : first.symbols.Recoverable)
    (htwins : Twins tokens edge first second) (hle : later.position ≤ edge) (hreach : later.reach ≤ edge) :
    ∃ later', Gathers second units later' ∧ Twins tokens edge later later' := by
  induction h generalizing second with
  | nil => exact ⟨second, .nil, htwins⟩
  | @cons first middle later unit units hunit hunits ih =>
    obtain ⟨hle', hreach'⟩ := hunits.le
    have hlt : first.position < edge :=
      Nat.lt_of_lt_of_le (first.progresses.attempt_lt hunit) (Nat.le_trans hle' hle)
    have hmeets := (unit_closes edge).attempt (Grammar.callBudget second.deeper) trivial
      (first.attempt_execute ▸ hunit) hrecoverable htwins hlt (Nat.le_trans hle' hle) (Nat.le_trans hreach' hreach)
    rw [← second.attempt_execute] at hmeets
    have hends := second.progresses.attempt_ends .compilationUnit
    have hmiddle := (Tandem.Proceeds.run (Program.rule .compilationUnit) (Grammar.callBudget first.deeper)).attempt.recoverable
      hrecoverable
    rw [← first.attempt_execute, hunit] at hmiddle
    generalize hsecond : second.attempt (Program.rule .compilationUnit).execute = result at hmeets hends
    cases hmeets with
    | exhausted => exact absurd rfl hends
    | matched hmiddle' =>
      obtain ⟨later', hgathers, hlater⟩ := ih hmiddle hmiddle' hle hreach
      exact ⟨later', .cons hsecond hgathers, hlater⟩

theorem Gathers.repeatUntil {body : List NodeId → Parser → Reply (List NodeId ⊕ List NodeId × Bool) × Parser} {budget : Nat}
    (hround : ∀ {parser middle : Parser} {unit : NodeId} (acc : List NodeId), Grammar.callBudget parser ≤ budget →
      parser.attempt (Program.rule .compilationUnit).execute = (.matched unit, middle) →
        body acc parser = (.matched (.inl (unit :: acc)), middle))
    (h : Gathers parser units later) (hlast : ∀ acc, body acc later = (.matched (.inr (acc.reverse, true)), later))
    {fuel : Nat} (hfuel : parser.cursor.remaining < fuel) (hbudget : Grammar.callBudget parser ≤ budget)
    (acc : List NodeId) : Parser.repeatUntil body fuel acc parser = (.matched (acc.reverse ++ units, true), later) := by
  induction h generalizing fuel acc with
  | nil =>
    obtain ⟨fuel, rfl⟩ := Nat.exists_eq_add_one_of_ne_zero (Nat.ne_zero_of_lt hfuel)
    rw [Parser.repeatUntil, hlast, List.append_nil]
  | @cons parser middle later unit units hunit _ ih =>
    obtain ⟨fuel, rfl⟩ := Nat.exists_eq_add_one_of_ne_zero (Nat.ne_zero_of_lt hfuel)
    have hless : middle.cursor.remaining < parser.cursor.remaining := by
      have htokens := (Gathers.cons hunit .nil).moves.tokens
      have hlt : parser.cursor.position < middle.cursor.position := parser.progresses.attempt_lt hunit
      have hsize := parser.cursor.position_lt
      simp only [Cursor.remaining, htokens]
      omega
    have hbudget' : Grammar.callBudget middle ≤ budget :=
      Nat.le_trans (Nat.mul_le_mul_right _ (Nat.succ_le_succ (Nat.le_of_lt hless))) hbudget
    rw [Parser.repeatUntil, hround acc hbudget hunit]
    dsimp only
    rw [ih hlast (by omega) hbudget' (unit :: acc), List.reverse_cons, List.append_assoc]
    rfl

theorem run_atEnd {budget : Nat} {found : Bool} (h : (parser.kind == .endOfFile) = found) :
    (Program.isAt .endOfFile).run (Grammar.call budget) parser = (.matched found, parser) :=
  h ▸ rfl

theorem Gathers.execute (h : Gathers parser units later) (hend : later.kind = .endOfFile) :
    Grammar.compilationUnits.execute parser = (.matched (units, true), later) := by
  unfold Program.execute Grammar.compilationUnits
  rw [Program.run_loop]
  refine h.repeatUntil (fun {parser middle unit} acc hbudget hunit => ?_) (fun acc => ?_) (Nat.lt_succ_self _)
    (Nat.le_refl _) []
  · have hopen : parser.kind ≠ .endOfFile :=
      (Gathers.cons hunit .nil).moves.passed _ (Nat.le_refl _) (parser.progresses.attempt_lt hunit) _
        (Array.getElem?_eq_getElem parser.cursor.position_lt)
    rw [Program.run_bind, run_atEnd (beq_false_of_ne hopen)]
    dsimp only
    rw [if_neg Bool.false_ne_true, Program.run_bind, Program.run_attempt, attempt_unit hbudget, hunit]
    rfl
  · rw [Program.run_bind, run_atEnd (beq_iff_eq.mpr hend)]
    rfl

theorem Gathers.compile (h : Gathers first units later) (hrecoverable : first.symbols.Recoverable) (hunits : units ≠ [])
    (hstart : first.position = 0) (hconfined : Confined later.position later) {stop : Token}
    (hposition : cursor.position = 0)
    (hcut : cursor.tokens.toList = first.cursor.tokens.toList.take later.position ++ [stop]) (hstop : stop.kind = .endOfFile)
    (lexical : List Diagnostic) : (first.onto cursor).compile lexical = .ok (later.complete lexical units) := by
  obtain ⟨hlt, hkind⟩ := h.lastKind? hunits
  have hlength : (first.cursor.tokens.toList.take later.position).length = later.position := by
    have hlater : later.position < later.cursor.tokens.size := later.cursor.position_lt
    rw [h.moves.tokens] at hlater
    exact List.length_take_of_le (Nat.le_of_lt hlater)
  have hget (index : Nat) :
      cursor.tokens[index]? = (first.cursor.tokens.toList.take later.position ++ [stop])[index]? := by
    rw [← hcut, Array.getElem?_toList]
  have hsame : ∀ index < later.position, cursor.tokens[index]? = first.cursor.tokens[index]? := by
    intro index hindex
    have hlt := Nat.lt_of_lt_of_eq hindex hlength.symm
    rw [hget, List.getElem?_append_left hlt, List.getElem?_take_of_lt hindex, Array.getElem?_toList]
  have hbeside := hconfined.beside h.moves hlt hkind (hposition.trans hstart.symm) hsame
  have hreach := Nat.le_trans h.le.2 hconfined.reach_le
  obtain ⟨later', hgathers, hlater⟩ := h.onto hrecoverable (.intro rfl hbeside (reach_le_iff.mp hreach))
    (Nat.le_refl _) hconfined.reach_le
  have hend : later'.kind = .endOfFile := by
    have hlast : cursor.tokens[later.position]? = some stop := by
      rw [hget, List.getElem?_append_right (Nat.le_of_eq hlength), hlength, Nat.sub_self]
      rfl
    have htokens : later'.cursor.tokens = cursor.tokens := hgathers.moves.tokens
    have hcurrent := later'.cursor.getElem?_tokenAt later'.cursor.position_lt
    rw [Cursor.tokenAt_position, htokens, show later'.cursor.position = later.position from hlater.position, hlast] at hcurrent
    exact (congrArg Token.kind (Option.some.inj hcurrent)).symm.trans hstop
  have hcomplete : later'.complete lexical units = later.complete lexical units := by
    obtain ⟨-, hbeside', -⟩ := hlater
    have hrange := rangeFrom_onto hbeside' (Nat.le_refl _) (Nat.zero_lt_of_lt hlt) 0
    simp only [complete, addNode, hrange]
    rfl
  unfold Parser.compile
  rw [hgathers.execute hend]
  exact congrArg Except.ok hcomplete

end Parser

namespace Compilation

theorem eq_ofTokens {tokens : Array Token} {cursor : Cursor} (h : Cursor.ofTokens tokens = .ok cursor) :
    cursor.tokens = tokens ∧ cursor.position = 0 := by
  unfold Cursor.ofTokens at h
  split at h
  · obtain rfl := Except.ok.inj h
    exact ⟨rfl, rfl⟩
  · cases h

/-- A compilation unit depends on the tokens in front of the edge only, if all that came to nothing while it was read did
so in front of it, too: on every stream that has the same ones the same unit matches, it ends at the same place, and
the parser is the same but for the stream. If the edge is where the units of a text end, the text may be cut off
there, and what is left is a compilation of these units. -/
theorem unit_bounded :
    (∀ (parser later : Parser) (unit : NodeId) (edge : Nat), parser.Reachable →
      (Program.rule .compilationUnit).execute parser.forgetMismatch = (.matched unit, later) → later.Confined edge →
        (Program.rule .compilationUnit).execute parser = (.matched unit, later.remember parser.furthest) ∧
        ∀ cursor : Cursor, cursor.position = parser.position →
          (∀ index < edge, cursor.tokens[index]? = parser.cursor.tokens[index]?) →
            ∃ cursor', cursor'.tokens = cursor.tokens ∧ cursor'.position = later.position ∧
              (Program.rule .compilationUnit).execute (parser.onto cursor) =
                (.matched unit, (later.remember parser.furthest).onto cursor')) ∧
    ∀ (tokens : List Token) (cursor : Cursor) (options : Options) (units : List NodeId) (later : Parser) (stop : Token),
      Cursor.ofTokens tokens.toArray = .ok cursor → (Parser.new cursor options).Gathers units later → units ≠ [] →
        later.Confined later.position → stop.kind = .endOfFile → ∀ lexical,
          ofTokens (tokens.take later.position ++ [stop]) lexical options = .ok (later.complete lexical units) := by
  refine ⟨fun parser later unit edge hreachable hrun hconfined => ?_,
    fun tokens cursor options units later stop hcursor hgathers hunits hconfined hstop lexical => ?_⟩
  · have hremember {parser later : Parser} (outer : Option Mismatch)
        (h : (Program.rule .compilationUnit).execute parser = (.matched unit, later)) :
        (Program.rule .compilationUnit).execute (parser.remember outer) = (.matched unit, later.remember outer) :=
      Program.run_remember_matched outer h
    refine ⟨?_, fun cursor hposition hsame => ?_⟩
    · have hmatched := hremember parser.furthest hrun
      rwa [Parser.forgetMismatch_remember] at hmatched
    · have hrecoverable : parser.forgetMismatch.symbols.Recoverable := hreachable.recoverable
      obtain ⟨cursor', htokens, hposition', hother⟩ :=
        @Parser.execute_onto _ parser.forgetMismatch _ _ _ hrecoverable hrun hconfined hposition hsame
      refine ⟨cursor', htokens, hposition', ?_⟩
      have hmatched := hremember parser.furthest hother
      change (Program.rule .compilationUnit).execute ((parser.forgetMismatch.remember parser.furthest).onto cursor) = _ at hmatched
      rw [Parser.forgetMismatch_remember] at hmatched
      exact hmatched
  · obtain ⟨rfl, hposition⟩ : tokens = cursor.tokens.toList ∧ cursor.position = 0 := by
      obtain ⟨htokens, hposition⟩ := eq_ofTokens hcursor
      exact ⟨(congrArg Array.toList htokens).symm, hposition⟩
    have hend : (cursor.tokens.toList.take later.position ++ [stop]).toArray.back?.map (·.kind) = some .endOfFile := by
      simp [hstop]
    unfold ofTokens Cursor.ofTokens
    rw [dif_pos hend]
    exact hgathers.compile (Parser.Reachable.new cursor options).recoverable hunits hposition hconfined rfl rfl hstop lexical

def procedureAndMore : Cursor where
  tokens := #[.ofText .kwProcedure "procedure" 0, .ofText .identifier "R" 10, .ofText .semicolon ";" 11,
    .ofText .kwProcedure "procedure" 13, .endOfFile 22]
  position := 0
  position_lt := by decide
  last_kind := by decide

def procedureAlone : Cursor where
  tokens := #[.ofText .kwProcedure "procedure" 0, .ofText .identifier "R" 10, .ofText .semicolon ";" 11, .endOfFile 12]
  position := 0
  position_lt := by decide
  last_kind := by decide

theorem matched_of_value (result : Reply NodeId × Parser) (unit : NodeId) (h : result.1.value? = some unit) :
    result = (.matched unit, result.2) := by
  obtain ⟨reply, later⟩ := result
  cases reply with
  | matched node => exact congrArg (fun node => (Reply.matched node, later)) (Option.some.inj h)
  | _ => cases h

theorem unit_bounded_procedure :
    let parser := Parser.new procedureAndMore { predefined := false }
    let later := ((Program.rule .compilationUnit).execute parser.forgetMismatch).2
    let last := (parser.attempt (Program.rule .compilationUnit).execute).2
    let unit : NodeId := ⟨2⟩
    parser.Reachable ∧
      (Program.rule .compilationUnit).execute parser.forgetMismatch = (.matched unit, later) ∧ later.Confined 3 ∧
      procedureAlone.position = parser.position ∧
      (∀ index < 3, procedureAlone.tokens[index]? = parser.cursor.tokens[index]?) ∧
      (∃ cursor', cursor'.tokens = procedureAlone.tokens ∧ cursor'.position = later.position ∧
        (Program.rule .compilationUnit).execute (parser.onto procedureAlone) =
          (.matched unit, (later.remember none).onto cursor')) ∧
      Cursor.ofTokens procedureAndMore.tokens.toList.toArray = .ok procedureAndMore ∧ parser.Gathers [unit] last ∧
      [unit] ≠ [] ∧ last.Confined last.position ∧ (Token.endOfFile 12).kind = .endOfFile ∧
      ofTokens (procedureAndMore.tokens.toList.take last.position ++ [.endOfFile 12]) [] { predefined := false } =
        .ok (last.complete [] [unit]) := by
  intro parser later last unit
  have hreachable : parser.Reachable := .new procedureAndMore { predefined := false }
  have hrun := matched_of_value ((Program.rule .compilationUnit).execute parser.forgetMismatch) unit
    (by decide +kernel)
  have hconfined : later.Confined 3 := ⟨by decide +kernel, by decide +kernel, .inl (by decide +kernel)⟩
  have hsame : ∀ index < 3, procedureAlone.tokens[index]? = parser.cursor.tokens[index]? := by decide +kernel
  have hunit := matched_of_value (parser.attempt (Program.rule .compilationUnit).execute) unit
    (by decide +kernel)
  have hgathers : parser.Gathers [unit] last := .cons hunit .nil
  have hlast : last.Confined last.position := ⟨Nat.le_refl _, by decide +kernel, .inl rfl⟩
  exact ⟨hreachable, hrun, hconfined, rfl, hsame,
    (unit_bounded.1 parser later unit 3 hreachable hrun hconfined).2 procedureAlone rfl hsame,
    rfl, hgathers, List.cons_ne_nil _ _, hlast, rfl,
    unit_bounded.2 procedureAndMore.tokens.toList procedureAndMore _ [unit] last (.endOfFile 12) rfl hgathers
      (List.cons_ne_nil _ _) hlast rfl []⟩

def lonePackage : Cursor := .ofSource "package P is generic type T is (<>); end P;"

def precedingPackage : Cursor := .ofSource "package P is generic type T is (<>); end P; procedure Q;"

/-- Without a condition on what was tried this is not so: the procedure, which has a part in none of the
alternatives that the package consists of, ends the whole parse in one that is given up without it. -/
theorem unit_unbounded :
    let parser := Parser.new lonePackage { predefined := false }
    let result := (Program.rule .compilationUnit).execute parser
    parser.Reachable ∧ (∃ unit, result = (.matched unit, result.2)) ∧ result.2.position = 14 ∧
      precedingPackage.position = parser.position ∧
      (∀ index < 14, precedingPackage.tokens[index]? = parser.cursor.tokens[index]?) ∧
      ((Program.rule .compilationUnit).execute (parser.onto precedingPackage)).1.fatal? = some (.endOfStream 56) := by
  intro parser result
  have hunit := matched_of_value result ⟨1⟩ (by decide +kernel)
  exact ⟨.new lonePackage { predefined := false }, ⟨_, hunit⟩, by decide +kernel, rfl, by decide +kernel, by decide +kernel⟩

end Compilation

end AdaSyntax
