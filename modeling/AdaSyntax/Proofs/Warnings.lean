import AdaSyntax.Compilation
import AdaSyntax.Proofs.Parser.Mirror
import AdaSyntax.Proofs.Parser.Tandem
import AdaSyntax.Proofs.Progress

/-!
Warnings about undeclared type marks can be switched off, and this is all that the switch does. Without them the
log is shorter, and so are the lengths that attempts go back to, but what is left of the log is the same.
-/

namespace AdaSyntax

/-- Whether a diagnostic is about something else than an undeclared type mark. -/
def Diagnostic.isLasting (diagnostic : Diagnostic) : Bool := diagnostic.code ≠ .undeclaredTypeMark

theorem Fatal.filter_diagnostic (error : Fatal) : [error.diagnostic].filter Diagnostic.isLasting = [error.diagnostic] := by
  cases error <;> rfl

def DiagnosticLog.quiet (log : DiagnosticLog) : DiagnosticLog := ⟨log.records.filter Diagnostic.isLasting⟩

theorem DiagnosticLog.quiet_report (log : DiagnosticLog) {diagnostic : Diagnostic} (h : diagnostic.isLasting = true) :
    (log.report diagnostic).quiet = log.quiet.report diagnostic := by
  simp [quiet, report, h]

namespace Parser

def hushed (parser : Parser) : Parser :=
  { parser with log := parser.log.quiet, options := { parser.options with warnUndeclared := false } }

theorem hushed_report (parser : Parser) {diagnostic : Diagnostic} (h : diagnostic.isLasting = true) :
    (parser.report diagnostic).hushed = parser.hushed.report diagnostic := by
  simp only [hushed, report, DiagnosticLog.quiet_report _ h]

def hushing : Mirror where
  image := hushed
  retell := id
  cuts _ := False
  sees parser := parser.symbols.Recoverable

theorem hushing_basic : hushing.Basic where
  kind _ := rfl
  position _ := rfl
  remaining _ := rfl
  furthest _ := rfl
  withFurthest _ _ := rfl
  endOfStream _ := rfl
  take parser position := by
    show withPosition position parser.hushed.take = _
    have hcursor : parser.hushed.cursor = parser.cursor := rfl
    simp only [take, hcursor]
    cases parser.cursor.advance <;> rfl

theorem reportDeclared_hushed (parser : Parser) (id : SymbolId) (declared : Declared) :
    parser.hushed.reportDeclared id declared = (parser.reportDeclared id declared).hushed := by
  have hsymbols : parser.hushed.symbols = parser.symbols := rfl
  cases declared with
  | duplicate existing =>
    simp only [reportDeclared, hsymbols]
    cases parser.symbols.symbol? id with
    | none => rfl
    | some symbol =>
      cases parser.symbols.symbol? existing with
      | none => rfl
      | some earlier =>
        refine (hushed_report _ ?_).symm
        split <;> rfl
  | _ => rfl

theorem lookaheadClass_hushed (parser : Parser) : parser.hushed.lookaheadClass = parser.lookaheadClass := by
  have hfrom (resolution : Resolution) (fuel n : Nat) :
      parser.hushed.lookaheadFrom resolution fuel n = parser.lookaheadFrom resolution fuel n := by
    induction fuel generalizing resolution n with
    | zero => rfl
    | succ fuel ih =>
      simp only [lookaheadFrom, ih]
      rfl
  simp only [lookaheadClass, hfrom]
  rfl

theorem find_hushed (parser : Parser) (finding : Finding) :
    parser.hushed.find finding = (parser.find finding).hushed := by
  have hreport (diagnostic : Diagnostic) (h : diagnostic.isLasting = true) :
      parser.hushed.report diagnostic = (parser.report diagnostic).hushed := (hushed_report parser h).symm
  cases finding with
  | undeclaredTypeMark mark =>
    have hoff : parser.hushed.options.warnUndeclared = false := rfl
    simp only [find, hoff]
    cases parser.options.warnUndeclared with
    | false => rfl
    | true =>
      have hdropped : (parser.log.report (parser.describe (.undeclaredTypeMark mark))).quiet = parser.log.quiet := by
        simp [DiagnosticLog.quiet, DiagnosticLog.report, describe, Diagnostic.isLasting, Diagnostic.ofCode]
      have hquiet : (parser.report (parser.describe (.undeclaredTypeMark mark))).hushed = parser.hushed := by
        simp only [hushed, report, hdropped]
      rw [if_pos rfl, hquiet]
      rfl
  | notAPackage package kind => cases kind <;> exact hreport _ rfl
  | _ => exact hreport _ rfl

theorem perform_hushed {α : Type} (parser : Parser) (op : Op α) :
    parser.hushed.perform op = ((parser.perform op).1, (parser.perform op).2.hushed) := by
  have hreflect (result : Reply α × Parser) : hushing.reflect result = (result.1, result.2.hushed) :=
    congrArg (Prod.mk · _) (Reply.mapFatal_id result.1)
  have hsymbols : parser.hushed.symbols = parser.symbols := rfl
  have hplace : parser.hushed.place = parser.place := rfl
  cases op with
  | take => exact (hushing_basic.take parser parser.position).trans (hreflect _)
  | expect kind => exact (hushing_basic.expect parser parser.position kind).trans (hreflect _)
  | expectChoice kind => exact (hushing_basic.expectChoice parser parser.position kind).trans (hreflect _)
  | lookaheadClass => exact congrArg (Reply.matched · , _) (lookaheadClass_hushed parser)
  | fill id start payload =>
    have htree : parser.hushed.tree = parser.tree := rfl
    have hrange : parser.hushed.rangeFrom = parser.rangeFrom := rfl
    simp only [perform, fillNode, htree, hrange, hplace]
    split <;> rfl
  | declare name kind node shape =>
    simp only [perform, declare, hsymbols, hplace]
    exact congrArg (Prod.mk _) (reportDeclared_hushed { parser with symbols := _ } _ _)
  | bind id =>
    simp only [perform, bind, hsymbols]
    exact congrArg (Prod.mk _) (reportDeclared_hushed { parser with symbols := _ } _ _)
  | closeRegion =>
    simp only [perform, hsymbols]
    cases parser.symbols.closeRegion <;> rfl
  | find finding => exact congrArg (Prod.mk _) (find_hushed parser finding)
  | _ => rfl

def hush : Tandem where
  alike first second := second = first.hushed
  seen _ := True
  bound := 0
  loose := False

theorem reportUnrecognized_hushed (parser : Parser) (context : Context) {code : Code}
    (hcode : code ≠ .undeclaredTypeMark) (first : Nat) :
    parser.hushed.reportUnrecognized context code first = (parser.reportUnrecognized context code first).hushed := by
  refine (hushed_report parser ?_).symm
  simp [Diagnostic.isLasting, Diagnostic.withRelated, Diagnostic.ofCode, hcode]

theorem dropItem_hushed (parser : Parser) (context : Context) {code : Code} (hcode : code ≠ .undeclaredTypeMark)
    (first : Nat) (outer : Option Mismatch) :
    parser.hushed.dropItem context code first outer = (parser.dropItem context code first outer).hushed := by
  have hskip := hushing_basic.resynchronize (parser.reportUnrecognized context code first) context.closers
  have hmerge := hushing_basic.mergeMismatch
    ((parser.reportUnrecognized context code first).resynchronize context.closers) outer
  simp only [dropItem, reportUnrecognized_hushed parser context hcode]
  exact (congrArg (·.mergeMismatch outer) hskip).trans hmerge

theorem hush_sound : hush.Sound where
  symbols h := h ▸ rfl
  position h := h ▸ rfl
  furthest h := h ▸ rfl
  noted _ _ _ := trivial
  withFurthest h _ := h ▸ rfl
  shows _ _ _ := Op.shows_all _ _
  perform h _ _ := by
    obtain rfl := h
    rw [perform_hushed]
    exact ⟨rfl, rfl⟩
  descend {first second} h _ := by
    obtain rfl := h
    unfold descend
    by_cases hdepth : first.options.maxDepth ≤ first.depth
    · exact .inl ⟨_, if_pos hdepth, if_pos hdepth⟩
    · exact .inr ⟨if_neg hdepth, if_neg hdepth⟩
  deeper h := h ▸ rfl
  ascend h := h ▸ rfl
  pushContext _ h := h ▸ rfl
  popContext h := h ▸ rfl
  atListEnd _ h _ := h ▸ rfl
  dropItem context _ hcode _ _ h _ := by
    obtain rfl := h
    exact dropItem_hushed _ context hcode _ _
  restore h hlater hcovers hcovers' := by
    obtain rfl := h
    obtain rfl := hlater
    rw [hcovers.restore, hcovers'.restore]
    rfl

theorem execute_hushed {α : Type} (program : Program α) [Program.Heedful program]
    (hends : ∀ parser, (program.execute parser).1 ≠ .exhausted) {parser : Parser}
    (hrecoverable : parser.symbols.Recoverable) :
    program.execute parser.hushed = ((program.execute parser).1, (program.execute parser).2.hushed) := by
  obtain ⟨hreply, hlater⟩ := program.execute_same hush_sound id hends hrecoverable (rfl : parser.hushed = parser.hushed)
  exact Prod.ext hreply hlater

end Parser

namespace Compilation

/-- What is left of the diagnostics without warnings about undeclared type marks. Nothing else is taken away. -/
def quiet : Except Rejection Compilation → Except Rejection Compilation
  | .ok compilation => .ok { compilation with diagnostics := compilation.diagnostics.filter Diagnostic.isLasting }
  | .error rejection => .error { rejection with diagnostics := rejection.diagnostics.filter Diagnostic.isLasting }

end Compilation

namespace Parser

theorem diagnostics_hushed (parser : Parser) :
    parser.hushed.diagnostics = parser.diagnostics.filter Diagnostic.isLasting := by
  simp [diagnostics, hushed, DiagnosticLog.quiet]

theorem complete_hushed (parser : Parser) {lexical : List Diagnostic}
    (hlexical : lexical.filter Diagnostic.isLasting = lexical) (units : List NodeId) :
    (Except.ok (parser.hushed.complete lexical units) : Except Rejection Compilation) =
      Compilation.quiet (.ok (parser.complete lexical units)) := by
  have hlog : parser.hushed.diagnostics = parser.diagnostics.filter Diagnostic.isLasting := parser.diagnostics_hushed
  have hdiagnostics : (parser.hushed.complete lexical units).diagnostics =
      (parser.complete lexical units).diagnostics.filter Diagnostic.isLasting := by
    change lexical ++ parser.hushed.diagnostics = (lexical ++ parser.diagnostics).filter Diagnostic.isLasting
    rw [hlog, List.filter_append, hlexical]
  rw [Compilation.quiet, ← hdiagnostics]
  rfl

theorem reject_hushed (parser : Parser) {lexical : List Diagnostic}
    (hlexical : lexical.filter Diagnostic.isLasting = lexical) (units : List NodeId) :
    (Except.error (parser.hushed.reject lexical units) : Except Rejection Compilation) =
      Compilation.quiet (.error (parser.reject lexical units)) := by
  have hcode : (if units.isEmpty then Code.noCompilationUnit else .trailingText) ≠ .undeclaredTypeMark := by
    split <;> decide
  have hdiagnostics : (parser.hushed.reject lexical units).diagnostics =
      (parser.reject lexical units).diagnostics.filter Diagnostic.isLasting := by
    change lexical ++ (parser.hushed.reportUnrecognized .compilation _ parser.position).diagnostics =
      (lexical ++ (parser.reportUnrecognized .compilation _ parser.position).diagnostics).filter Diagnostic.isLasting
    rw [reportUnrecognized_hushed parser .compilation hcode, diagnostics_hushed, List.filter_append, hlexical]
  exact congrArg (fun diagnostics => Except.error (Rejection.mk diagnostics none)) hdiagnostics

theorem abort_hushed (parser : Parser) {lexical : List Diagnostic}
    (hlexical : lexical.filter Diagnostic.isLasting = lexical) (error : Fatal) :
    (Except.error (parser.hushed.abort lexical error) : Except Rejection Compilation) =
      Compilation.quiet (.error (parser.abort lexical error)) := by
  simp only [abort, Compilation.quiet, List.filter_append, hlexical, diagnostics_hushed, error.filter_diagnostic]

theorem compile_hushed {parser : Parser} (hrecoverable : parser.symbols.Recoverable) {lexical : List Diagnostic}
    (hlexical : lexical.filter Diagnostic.isLasting = lexical) :
    parser.hushed.compile lexical = Compilation.quiet (parser.compile lexical) := by
  unfold compile
  rw [execute_hushed _ (fun parser => parser.progresses.units_end.1) hrecoverable]
  generalize Grammar.compilationUnits.execute parser = result
  obtain ⟨reply, later⟩ := result
  cases reply with
  | matched value =>
    obtain ⟨units, complete⟩ := value
    cases complete with
    | false => exact later.reject_hushed hlexical units
    | true => exact later.complete_hushed hlexical units
  | fatal error => exact later.abort_hushed hlexical error
  | mismatch => exact later.reject_hushed hlexical []
  | exhausted => exact later.reject_hushed hlexical []

theorem new_hushed (cursor : Cursor) (options : Options) :
    (Parser.new cursor { options with warnUndeclared := true }).hushed =
      .new cursor { options with warnUndeclared := false } := by
  simp [Parser.new, hushed, DiagnosticLog.quiet, DiagnosticLog.empty]

end Parser

namespace Compilation

/-- Without warnings about undeclared type marks a token stream is compiled to the same, or is rejected for the same
reason, and what is reported is what else is reported, in the same order. -/
theorem ofTokens_quiet (tokens : List Token) {lexical : List Diagnostic}
    (hlexical : ∀ diagnostic ∈ lexical, diagnostic.code ≠ .undeclaredTypeMark) (options : Options) :
    ofTokens tokens lexical { options with warnUndeclared := false } =
      quiet (ofTokens tokens lexical { options with warnUndeclared := true }) := by
  have hlasting : lexical.filter Diagnostic.isLasting = lexical :=
    List.filter_eq_self.mpr fun diagnostic hmem => decide_eq_true (hlexical diagnostic hmem)
  unfold ofTokens
  cases Cursor.ofTokens tokens.toArray with
  | error fatal =>
    simp only [quiet, List.filter_append, hlasting, fatal.filter_diagnostic]
  | ok cursor =>
    dsimp only
    rw [← Parser.new_hushed]
    exact Parser.compile_hushed (Parser.Reachable.new cursor _).recoverable hlasting

def undeclaredMark : List Token :=
  [.ofText .kwPackage "package" 0, .ofText .identifier "P" 8, .ofText .kwIs "is" 10,
    .ofText .identifier "X" 13, .ofText .colon ":" 15, .ofText .kwException "exception" 17, .ofText .semicolon ";" 26,
    .ofText .identifier "Y" 28, .ofText .colon ":" 30, .ofText .identifier "T" 32, .ofText .semicolon ";" 33,
    .ofText .identifier "X" 35, .ofText .colon ":" 37, .ofText .kwException "exception" 39, .ofText .semicolon ";" 48,
    .ofText .kwEnd "end" 50, .ofText .semicolon ";" 53, .endOfFile 54]

def codes : Except Rejection Compilation → List Code
  | .ok compilation => compilation.diagnostics.map (·.code)
  | .error rejection => rejection.diagnostics.map (·.code)

theorem ofTokens_quiet_undeclaredMark :
    let lexical := [Diagnostic.ofCode .invalidCharacter "invalid character '?'" (.upTo 11 12)]
    let options : Options := { predefined := false }
    (∀ diagnostic ∈ lexical, diagnostic.code ≠ .undeclaredTypeMark) ∧
      codes (ofTokens undeclaredMark lexical { options with warnUndeclared := true }) =
        [.invalidCharacter, .undeclaredTypeMark, .duplicateDeclaration] ∧
      codes (ofTokens undeclaredMark lexical { options with warnUndeclared := false }) =
        [.invalidCharacter, .duplicateDeclaration] ∧
      ofTokens undeclaredMark lexical { options with warnUndeclared := false } =
        quiet (ofTokens undeclaredMark lexical { options with warnUndeclared := true }) := by
  intro lexical options
  have hlexical : ∀ diagnostic ∈ lexical, diagnostic.code ≠ .undeclaredTypeMark := by decide
  exact ⟨hlexical, by decide +kernel, by decide +kernel, ofTokens_quiet undeclaredMark hlexical options⟩

end Compilation

theorem Token.defect_isLasting (token : Token) : token.defect.isLasting = true := by
  refine decide_eq_true ?_
  change defectCode token.text ≠ .undeclaredTypeMark
  unfold defectCode
  repeat' split
  all_goals decide

theorem Compilation.ofSource_quiet (source : String) (options : Options) :
    ofSource source { options with warnUndeclared := false } =
      quiet (ofSource source { options with warnUndeclared := true }) := by
  unfold ofSource
  rw [← Parser.new_hushed]
  refine Parser.compile_hushed (Parser.Reachable.new _ _).recoverable (List.filter_eq_self.mpr fun diagnostic hmem => ?_)
  obtain ⟨token, -, rfl⟩ := List.mem_map.mp hmem
  exact token.defect_isLasting

end AdaSyntax
