import AdaSyntax.Proofs.Parser.Reachable
import AdaSyntax.Proofs.Parser.Recovery
import AdaSyntax.Proofs.Scope.Renumber

namespace AdaSyntax

/-- The further one of an earlier mismatch and a later one, the earlier one if they are equally far. -/
def Mismatch.further : Option Mismatch → Option Mismatch → Option Mismatch
  | some earlier, some later => if later.position ≤ earlier.position then some earlier else some later
  | some earlier, none => some earlier
  | none, later => later

@[simp] theorem Mismatch.further_none (later : Option Mismatch) : further none later = later := rfl

theorem Mismatch.further_assoc (first second third : Option Mismatch) :
    further (further first second) third = further first (further second third) := by
  cases first <;> cases second <;> cases third <;> grind [further]

namespace Parser

def disguise (first distance : Nat) (outer : Option Mismatch) (parser : Parser) : Parser :=
  { parser with
    symbols := parser.symbols.renumber first distance
    furthest := Mismatch.further outer parser.furthest }

section

variable (first distance : Nat) (outer : Option Mismatch) (parser : Parser)

@[simp] theorem disguise_cursor : (parser.disguise first distance outer).cursor = parser.cursor := rfl

@[simp] theorem disguise_symbols : (parser.disguise first distance outer).symbols =
    parser.symbols.renumber first distance := rfl

theorem withSymbols_disguise (symbols : SymbolTable) :
    ({ parser.disguise first distance outer with symbols := symbols.renumber first distance } : Parser) =
      ({ parser with symbols } : Parser).disguise first distance outer := rfl

@[simp] theorem disguise_checkpoint :
    (parser.disguise first distance outer).checkpoint = parser.checkpoint := by
  simp only [checkpoint, disguise_symbols, SymbolTable.mark_renumber]
  rfl

theorem recordMismatch_eq_further (expected : String) :
    parser.recordMismatch expected =
      { parser with furthest := Mismatch.further parser.furthest (some ⟨parser.position, expected⟩) } := by
  unfold recordMismatch
  cases hfurthest : parser.furthest with
  | none => rfl
  | some mismatch =>
    simp only [Mismatch.further, decide_eq_true_eq]
    by_cases hlt : mismatch.position < parser.position
    · rw [if_pos hlt, if_neg (Nat.not_le.mpr hlt)]
    · rw [if_neg hlt, if_pos (Nat.not_lt.mp hlt), ← hfurthest]

theorem recordMismatch_disguise (expected : String) :
    (parser.disguise first distance outer).recordMismatch expected =
      (parser.recordMismatch expected).disguise first distance outer := by
  rw [recordMismatch_eq_further, recordMismatch_eq_further]
  simp only [disguise, Mismatch.further_assoc]
  rfl

theorem take_disguise : (parser.disguise first distance outer).take =
    (parser.take.1, parser.take.2.disguise first distance outer) := by
  simp only [take, disguise_cursor]
  cases parser.cursor.advance <;> rfl

theorem expectChoice_disguise (kind : TokenKind) :
    (parser.disguise first distance outer).expectChoice kind =
      ((parser.expectChoice kind).1, (parser.expectChoice kind).2.disguise first distance outer) := by
  have hkind : (parser.disguise first distance outer).kind = parser.kind := rfl
  simp only [expectChoice, hkind, take_disguise, recordMismatch_disguise]
  split <;> rfl

theorem expect_disguise (kind : TokenKind) :
    (parser.disguise first distance outer).expect kind =
      ((parser.expect kind).1, (parser.expect kind).2.disguise first distance outer) := by
  have hkind : (parser.disguise first distance outer).kind = parser.kind := rfl
  simp only [expect, hkind, take_disguise, recordMismatch_disguise, disguise_cursor]
  split
  · rfl
  · split <;> rfl

theorem lookaheadClass_disguise :
    (parser.disguise first distance outer).lookaheadClass = parser.lookaheadClass := by
  have hfrom (resolution : Resolution) (fuel n : Nat) :
      (parser.disguise first distance outer).lookaheadFrom resolution fuel n =
        parser.lookaheadFrom resolution fuel n := by
    induction fuel generalizing resolution n with
    | zero => rfl
    | succ fuel ih =>
      simp only [lookaheadFrom, ih, disguise_cursor, disguise_symbols,
        SymbolTable.resolveMember_renumber]
      rfl
  simp only [lookaheadClass, hfrom, disguise_symbols, SymbolTable.resolve_renumber]
  rfl

theorem reportDeclared_disguise (id : SymbolId) (declared : Declared) :
    (parser.disguise first distance outer).reportDeclared id declared =
      (parser.reportDeclared id declared).disguise first distance outer := by
  cases declared with
  | duplicate existing =>
    simp only [reportDeclared, disguise_symbols, SymbolTable.symbol?_renumber]
    cases parser.symbols.symbol? id with
    | none => rfl
    | some symbol => cases parser.symbols.symbol? existing <;> rfl
  | _ => rfl

theorem declare_disguise (declaration : Declaration) :
    (parser.disguise first distance outer).declare declaration =
      ((parser.declare declaration).1, (parser.declare declaration).2.disguise first distance outer) := by
  simp only [declare, disguise_symbols, SymbolTable.declare_renumber, withSymbols_disguise,
    reportDeclared_disguise]

theorem bind_disguise (id : SymbolId) :
    (parser.disguise first distance outer).bind id =
      ((parser.bind id).1, (parser.bind id).2.disguise first distance outer) := by
  simp only [bind, disguise_symbols, SymbolTable.bind_renumber, withSymbols_disguise,
    reportDeclared_disguise]

theorem find_disguise (finding : Finding) :
    (parser.disguise first distance outer).find finding =
      (parser.find finding).disguise first distance outer := by
  cases finding with
  | undeclaredTypeMark mark =>
    have hoptions : (parser.disguise first distance outer).options = parser.options := rfl
    simp only [find, hoptions]
    split <;> rfl
  | notAPackage package kind => cases kind <;> rfl
  | _ => rfl

theorem fillNode_disguise (id : NodeId) (start : Nat) (payload : Payload Range) :
    (parser.disguise first distance outer).fillNode id start payload =
      ((parser.fillNode id start payload).1,
        (parser.fillNode id start payload).2.disguise first distance outer) := by
  have hrange : (parser.disguise first distance outer).rangeFrom start = parser.rangeFrom start := rfl
  have htree : (parser.disguise first distance outer).tree = parser.tree := rfl
  simp only [fillNode, hrange, htree]
  cases parser.tree.fill id (parser.rangeFrom start) payload <;> rfl

theorem closeRegion_disguise :
    (parser.disguise first distance outer).perform .closeRegion =
      ((parser.perform .closeRegion).1,
        (parser.perform .closeRegion).2.disguise first distance outer) := by
  have hclose := parser.symbols.closeRegion_renumber first distance
  simp only [perform, disguise_symbols]
  revert hclose
  cases (parser.symbols.renumber first distance).closeRegion <;> cases parser.symbols.closeRegion <;>
    intro hclose
  · rfl
  · cases hclose
  · cases hclose
  · rename_i found closed
    obtain ⟨hmembers, hsymbols⟩ := Prod.mk.inj (Option.some.inj hclose)
    simp only [hmembers, hsymbols, withSymbols_disguise]

theorem declaredHere_disguise (id : SymbolId) :
    (parser.disguise first distance outer).perform (.declaredHere id) =
      ((parser.perform (.declaredHere id)).1,
        (parser.perform (.declaredHere id)).2.disguise first distance outer) := by
  have hregion (symbol : Symbol) :
      (symbol.renumber first distance).region = (parser.symbols.renumber first distance).innermost.id ↔
        symbol.region = parser.symbols.innermost.id := RegionId.shift_inj
  simp only [perform, disguise_symbols, SymbolTable.symbol?_renumber]
  cases parser.symbols.symbol? id with
  | none => rfl
  | some symbol => simp only [Option.map_some, hregion]

variable {first parser}

theorem perform_disguise {α : Type} (op : Op α) (h : first ≤ parser.symbols.nextRegion) :
    (parser.disguise first distance outer).perform op =
      ((parser.perform op).1, (parser.perform op).2.disguise first distance outer) := by
  cases op with
  | lookaheadClass => exact congrArg (Reply.matched · , _) (lookaheadClass_disguise ..)
  | take => simp only [perform, take_disguise]; rfl
  | expect kind => simp only [perform, expect_disguise]; rfl
  | expectChoice kind => simp only [perform, expectChoice_disguise]; rfl
  | fill id start payload => exact fillNode_disguise ..
  | resolve name => simp only [perform, disguise_symbols, SymbolTable.resolve_renumber]
  | resolveMember owner name => simp only [perform, disguise_symbols, SymbolTable.resolveMember_renumber]
  | kindOf id => simp only [perform, disguise_symbols, SymbolTable.kindOf_renumber]
  | shapeOf id =>
    simp only [perform, disguise_symbols, SymbolTable.symbol?_renumber]
    cases parser.symbols.symbol? id <;> rfl
  | declaredHere id => exact declaredHere_disguise ..
  | libraryUnit name =>
    simp only [perform, disguise_symbols, SymbolTable.library_renumber]
    rfl
  | enclosingLoop label => simp only [perform, disguise_symbols, SymbolTable.enclosingLoop_renumber]
  | declare name kind node shape =>
    have hplace : (parser.disguise first distance outer).place name.place = parser.place name.place := rfl
    simp only [perform, hplace, declare_disguise]
  | bind id => simp only [perform, bind_disguise]
  | openRegion kind owner =>
    simp only [perform, withSymbols, disguise_symbols, SymbolTable.openRegion_renumber _ _ _ h,
      withSymbols_disguise]
  | closeRegion => exact closeRegion_disguise ..
  | markPrivate =>
    simp only [perform, withSymbols, disguise_symbols, SymbolTable.markPrivate_renumber, withSymbols_disguise]
  | addImport package kind =>
    simp only [perform, withSymbols, disguise_symbols, SymbolTable.addImport_renumber, withSymbols_disguise]
  | publish owner members =>
    simp only [perform, withSymbols, disguise_symbols, SymbolTable.publish_renumber, withSymbols_disguise]
  | publishAlias synonym target =>
    simp only [perform, withSymbols, disguise_symbols, SymbolTable.publishAlias_renumber, withSymbols_disguise]
  | find finding => simp only [perform, find_disguise]
  | _ => rfl

theorem perform_nextRegion {α : Type} (op : Op α) :
    parser.symbols.nextRegion ≤ (parser.perform op).2.symbols.nextRegion := by
  rcases parser.perform_symbols op with heq | ⟨change, heq⟩
  · exact Nat.le_of_eq (congrArg SymbolTable.nextRegion heq.symm)
  · rw [heq]
    exact parser.symbols.nextRegion_le_change change

variable (first parser)

theorem restore_disguise (checkpoint : Checkpoint) :
    (parser.disguise first distance outer).restore checkpoint =
      ((parser.restore checkpoint).1, (parser.restore checkpoint).2.disguise first distance outer) := by
  have hlog : (parser.disguise first distance outer).log = parser.log := rfl
  simp only [restore, disguise_cursor, disguise_symbols, hlog, SymbolTable.rollback_renumber]
  cases parser.cursor.rewind checkpoint.position with
  | error error => rfl
  | ok cursor => cases parser.log.rollback checkpoint.log <;> rfl

theorem restore_nextRegion (checkpoint : Checkpoint) :
    (parser.restore checkpoint).2.symbols.nextRegion = parser.symbols.nextRegion := by
  rcases parser.restore_symbols checkpoint with heq | heq <;> rw [heq]
  exact parser.symbols.rollback_nextRegion _

theorem mergeMismatch_eq (outer : Option Mismatch) :
    parser.mergeMismatch outer = { parser with furthest := Mismatch.further outer parser.furthest } := by
  cases outer with
  | none => rfl
  | some earlier => simp only [mergeMismatch]; cases parser.furthest <;> rfl

theorem descend_disguise :
    (parser.disguise first distance outer).descend =
      parser.descend.map (disguise first distance outer) := by
  have hdepth : (parser.disguise first distance outer).depth = parser.depth := rfl
  have hoptions : (parser.disguise first distance outer).options = parser.options := rfl
  simp only [descend, hdepth, hoptions]
  split <;> rfl

theorem skip_disguise :
    (parser.disguise first distance outer).skip = parser.skip.disguise first distance outer := by
  simp only [skip, disguise_cursor]
  cases parser.cursor.advance <;> rfl

theorem skipPast_disguise (closers : List TokenKind) (fuel : Nat) :
    skipPast closers fuel (parser.disguise first distance outer) =
      (skipPast closers fuel parser).disguise first distance outer := by
  induction fuel generalizing parser with
  | zero => rfl
  | succ fuel ih =>
    have hkind : (parser.disguise first distance outer).kind = parser.kind := rfl
    have hany : (parser.disguise first distance outer).atAny closers = parser.atAny closers := rfl
    simp only [skipPast, disguise_cursor, hany, hkind, skip_disguise, ih]
    split
    · rfl
    · split <;> rfl

theorem resynchronize_disguise (closers : List TokenKind) :
    (parser.disguise first distance outer).resynchronize closers =
      (parser.resynchronize closers).disguise first distance outer := by
  have hkind : (parser.disguise first distance outer).kind = parser.kind := rfl
  simp only [resynchronize, disguise_cursor, hkind, skip_disguise, skipPast_disguise]
  split <;> rfl

theorem mergeMismatch_disguise (inner : Option Mismatch) :
    (parser.disguise first distance none).mergeMismatch (Mismatch.further outer inner) =
      (parser.mergeMismatch inner).disguise first distance outer := by
  rw [mergeMismatch_eq, mergeMismatch_eq]
  simp only [disguise, Mismatch.further_assoc, Mismatch.further_none]

theorem dropItem_disguise (inner : Option Mismatch) (context : Context) (code : Code) (start : Nat) :
    (parser.disguise first distance none).dropItem context code start (Mismatch.further outer inner) =
      (parser.dropItem context code start inner).disguise first distance outer := by
  have hreport : (parser.disguise first distance none).reportUnrecognized context code start =
      (parser.reportUnrecognized context code start).disguise first distance none := rfl
  simp only [dropItem, hreport, resynchronize_disguise, mergeMismatch_disguise]

theorem dropItem_symbols (context : Context) (code : Code) (start : Nat) (inner : Option Mismatch) :
    (parser.dropItem context code start inner).symbols = parser.symbols := by
  obtain ⟨diagnostic, cursor, furthest, heq, -⟩ := parser.dropItem_eq context code start inner
  rw [heq]
  rfl

end

end Parser

end AdaSyntax
