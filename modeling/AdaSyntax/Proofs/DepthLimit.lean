import AdaSyntax.Compilation
import AdaSyntax.Proofs.Parser.Continues
import AdaSyntax.Proofs.Parser.Mirror

/-!
The depth limit only cuts off. A parse that does not end at the limit comes to the same under any higher
limit: nothing that speculates, recovers or falls back takes the limit for an ordinary mismatch.
-/

namespace AdaSyntax

namespace Parser

theorem Move.options {parser later : Parser} (hmove : Move parser later) : later.options = parser.options := by
  cases hmove with
  | perform op => exact (parser.perform_allows op).continues.options
  | reject expected => exact (parser.recordMismatch_continues expected).options
  | descend hdescend =>
    obtain rfl := eq_deeper_of_descend hdescend
    rfl
  | restore checkpoint =>
    unfold Parser.restore
    split
    · rfl
    · split <;> rfl
  | fillNode id start payload => exact (parser.fillNode_allows id start payload).continues.options
  | declare declaration => exact (reportDeclared_continues ..).options
  | _ => rfl

def raise (limit : Nat) (parser : Parser) : Parser :=
  { parser with options := { parser.options with maxDepth := limit } }

def raised (limit : Nat) : Mirror where
  image := raise limit
  retell := id
  cuts error := ∃ exceeded offset, error = .depthExceeded exceeded offset
  sees parser := parser.options.maxDepth ≤ limit ∧ parser.symbols.Recoverable

theorem raised_basic (limit : Nat) : (raised limit).Basic where
  kind _ := rfl
  position _ := rfl
  remaining _ := rfl
  furthest _ := rfl
  withFurthest _ _ := rfl
  endOfStream _ := rfl
  take parser position := by
    show withPosition position (parser.raise limit).take = _
    have hcursor : (parser.raise limit).cursor = parser.cursor := rfl
    simp only [take, hcursor]
    cases parser.cursor.advance <;> rfl

theorem reportDeclared_raise (limit : Nat) (parser : Parser) (id : SymbolId) (declared : Declared) :
    (parser.raise limit).reportDeclared id declared = (parser.reportDeclared id declared).raise limit := by
  have hsymbols : (parser.raise limit).symbols = parser.symbols := rfl
  cases declared with
  | duplicate existing =>
    simp only [reportDeclared, hsymbols]
    cases parser.symbols.symbol? id with
    | none => rfl
    | some symbol => cases parser.symbols.symbol? existing <;> rfl
  | _ => rfl

theorem withSymbols_raise (limit : Nat) (parser : Parser) (symbols : SymbolTable) :
    ({ parser.raise limit with symbols } : Parser) = ({ parser with symbols } : Parser).raise limit := rfl

theorem declare_raise (limit : Nat) (parser : Parser) (declaration : Declaration) :
    (parser.raise limit).declare declaration =
      ((parser.declare declaration).1, (parser.declare declaration).2.raise limit) := by
  have hsymbols : (parser.raise limit).symbols = parser.symbols := rfl
  simp only [declare, hsymbols, withSymbols_raise, reportDeclared_raise]

theorem bind_raise (limit : Nat) (parser : Parser) (id : SymbolId) :
    (parser.raise limit).bind id = ((parser.bind id).1, (parser.bind id).2.raise limit) := by
  have hsymbols : (parser.raise limit).symbols = parser.symbols := rfl
  simp only [bind, hsymbols, withSymbols_raise, reportDeclared_raise]

theorem find_raise (limit : Nat) (parser : Parser) (finding : Finding) :
    (parser.raise limit).find finding = (parser.find finding).raise limit := by
  cases finding with
  | undeclaredTypeMark mark =>
    have hwarn : (parser.raise limit).options.warnUndeclared = parser.options.warnUndeclared := rfl
    simp only [find, hwarn]
    split <;> rfl
  | notAPackage package kind => cases kind <;> rfl
  | _ => rfl

theorem lookaheadClass_raise (limit : Nat) (parser : Parser) :
    (parser.raise limit).lookaheadClass = parser.lookaheadClass := by
  have hfrom (resolution : Resolution) (fuel n : Nat) :
      (parser.raise limit).lookaheadFrom resolution fuel n = parser.lookaheadFrom resolution fuel n := by
    induction fuel generalizing resolution n with
    | zero => rfl
    | succ fuel ih =>
      simp only [lookaheadFrom, ih]
      rfl
  simp only [lookaheadClass, hfrom]
  rfl

theorem perform_raise {α : Type} (limit : Nat) (parser : Parser) (op : Op α) :
    (parser.raise limit).perform op = (raised limit).reflect (parser.perform op) := by
  have hbasic := raised_basic limit
  cases op with
  | take => exact hbasic.take parser parser.position
  | expect kind => exact hbasic.expect parser parser.position kind
  | expectChoice kind => exact hbasic.expectChoice parser parser.position kind
  | lookaheadClass => exact congrArg (Reply.matched · , _) (lookaheadClass_raise ..)
  | fill id start payload =>
    have htree : (parser.raise limit).tree = parser.tree := rfl
    have hrange : (parser.raise limit).rangeFrom = parser.rangeFrom := rfl
    have hplace : (parser.raise limit).place = parser.place := rfl
    simp only [perform, fillNode, htree, hrange, hplace]
    split <;> rfl
  | declare name kind node shape =>
    have hplace : (parser.raise limit).place = parser.place := rfl
    simp only [perform, hplace, declare_raise]
    rfl
  | bind id =>
    simp only [perform, bind_raise]
    rfl
  | closeRegion =>
    have hsymbols : (parser.raise limit).symbols = parser.symbols := rfl
    simp only [perform, hsymbols]
    cases parser.symbols.closeRegion <;> rfl
  | find finding => exact congrArg (Prod.mk _) (find_raise ..)
  | _ => rfl

theorem raised_faithful (limit : Nat) : (raised limit).Faithful where
  toBasic := raised_basic limit
  recoverable h := h.2
  move h hmove := ⟨hmove.options ▸ h.1, hmove.recoverable h.2⟩
  checkpoint _ := rfl
  perform op parser := perform_raise limit parser op
  descend {parser} h := by
    unfold descend
    by_cases hdepth : parser.options.maxDepth ≤ parser.depth
    · exact .inl ⟨_, if_pos hdepth, _, _, rfl⟩
    · refine .inr ?_
      have hhigher : ¬limit ≤ parser.depth := fun hle => hdepth (Nat.le_trans h.1 hle)
      rw [if_neg hdepth]
      exact if_neg hhigher
  ascend _ := rfl
  pushContext _ _ := rfl
  popContext _ := rfl
  reportUnrecognized _ _ _ _ := rfl
  restore parser checkpoint := by
    show (parser.raise limit).restore checkpoint = _
    have hcursor : (parser.raise limit).cursor = parser.cursor := rfl
    have hlog : (parser.raise limit).log = parser.log := rfl
    simp only [restore, hcursor, hlog]
    cases parser.cursor.rewind checkpoint.position with
    | error error => rfl
    | ok cursor => cases parser.log.rollback checkpoint.log <;> rfl

theorem execute_raise {α : Type} (program : Program α) {parser : Parser} {limit : Nat}
    (hlimit : parser.options.maxDepth ≤ limit) (hrecoverable : parser.symbols.Recoverable)
    (hcut : ∀ exceeded offset, (program.execute parser).1 ≠ .fatal (.depthExceeded exceeded offset)) :
    program.execute (parser.raise limit) =
      ((program.execute parser).1, (program.execute parser).2.raise limit) := by
  have hshows := (Mirror.Follows.execute (raised_faithful limit) program).shows parser ⟨hlimit, hrecoverable⟩
  rcases hshows with ⟨error, herror, exceeded, offset, rfl⟩ | heq
  · exact absurd herror (hcut exceeded offset)
  · exact heq.trans (congrArg (Prod.mk · _) (Reply.mapFatal_id _))

theorem compile_raise {parser : Parser} {limit : Nat} (hlimit : parser.options.maxDepth ≤ limit)
    (hrecoverable : parser.symbols.Recoverable) (lexical : List Diagnostic)
    (hcut : ∀ rejection exceeded offset, parser.compile lexical = .error rejection →
      rejection.fatal ≠ some (.depthExceeded exceeded offset)) :
    (parser.raise limit).compile lexical = parser.compile lexical := by
  have hexecute := execute_raise Grammar.compilationUnits hlimit hrecoverable fun exceeded offset hfatal => by
    refine hcut (abort (Grammar.compilationUnits.execute parser).2 lexical (.depthExceeded exceeded offset))
      exceeded offset ?_ rfl
    unfold compile
    generalize Grammar.compilationUnits.execute parser = result at hfatal ⊢
    obtain ⟨reply, later⟩ := result
    obtain rfl : reply = _ := hfatal
    rfl
  unfold compile
  rw [hexecute]
  generalize Grammar.compilationUnits.execute parser = result
  obtain ⟨reply, later⟩ := result
  cases reply with
  | matched value =>
    obtain ⟨units, complete⟩ := value
    cases complete <;> rfl
  | _ => rfl

end Parser

namespace Compilation

/-- A compilation that does not end at the depth limit is the same under any higher limit, with all that is
reported and numbered, and so is a rejection. -/
theorem ofTokens_raise (tokens : List Token) (lexical : List Diagnostic) (options : Options) {limit : Nat}
    (hlimit : options.maxDepth ≤ limit)
    (hcut : ∀ rejection exceeded offset, ofTokens tokens lexical options = .error rejection →
      rejection.fatal ≠ some (.depthExceeded exceeded offset)) :
    ofTokens tokens lexical { options with maxDepth := limit } = ofTokens tokens lexical options := by
  unfold ofTokens at hcut ⊢
  cases hcursor : Cursor.ofTokens tokens.toArray with
  | error fatal => rfl
  | ok cursor =>
    rw [hcursor] at hcut
    have hrecoverable := (Parser.Reachable.new cursor options).recoverable
    exact Parser.compile_raise hlimit hrecoverable lexical hcut

def nestedConstant : List Token :=
  [.ofText .kwPackage "package" 0, .ofText .identifier "P" 8, .ofText .kwIs "is" 10,
    .ofText .identifier "X" 13, .ofText .colon ":" 15, .ofText .kwConstant "constant" 17,
    .ofText .assign ":=" 26, .ofText .leftParen "(" 29, .ofText .integerLiteral "1" 30,
    .ofText .rightParen ")" 31, .ofText .semicolon ";" 32, .ofText .kwEnd "end" 34,
    .ofText .semicolon ";" 37, .endOfFile 38]

theorem ofTokens_raise_nestedConstant :
    let options : Options := { predefined := false, maxDepth := 6 }
    options.maxDepth ≤ 7 ∧
      (∀ rejection exceeded offset, ofTokens nestedConstant [] options = .error rejection →
        rejection.fatal ≠ some (.depthExceeded exceeded offset)) ∧
      ofTokens nestedConstant [] { options with maxDepth := 7 } = ofTokens nestedConstant [] options := by
  intro options
  have haccepted : (ofTokens nestedConstant [] options).isOk = true := by decide +kernel
  have hcut : ∀ rejection exceeded offset, ofTokens nestedConstant [] options = .error rejection →
      rejection.fatal ≠ some (.depthExceeded exceeded offset) := by
    intro rejection exceeded offset hrejected
    rw [hrejected] at haccepted
    cases haccepted
  exact ⟨by decide, hcut, ofTokens_raise nestedConstant [] options (by decide) hcut⟩

end Compilation

end AdaSyntax
