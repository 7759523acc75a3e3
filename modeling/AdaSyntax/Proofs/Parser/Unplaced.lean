import AdaSyntax.Proofs.Parser.Mirror
import AdaSyntax.Proofs.Scope.Unplaced
import AdaSyntax.Proofs.Token.Beside

namespace AdaSyntax

def Token.unplaced (token : Token) : Token := { token with range := .empty 0 }

def RelatedPlace.unplaced (related : RelatedPlace) : RelatedPlace := { related with range := .empty 0 }

def Diagnostic.unplaced (diagnostic : Diagnostic) : Diagnostic :=
  { diagnostic with range := .empty 0, related := diagnostic.related.map RelatedPlace.unplaced }

def Fatal.unplaced : Fatal → Fatal
  | endOfStream _ => .endOfStream 0
  | depthExceeded limit _ => .depthExceeded limit 0
  | error => error

def DiagnosticLog.unplaced (log : DiagnosticLog) : DiagnosticLog := ⟨log.records.map Diagnostic.unplaced⟩

def Payload.unplaced (payload : Payload Range) : Payload Range := payload.map fun _ => .empty 0

def Node.unplaced (node : Node) : Node := ⟨.empty 0, node.payload.unplaced⟩

def Tree.unplaced (tree : Tree) : Tree := ⟨tree.nodes.map Node.unplaced⟩

theorem Payload.map_map {ρ σ τ : Type} (f : ρ → σ) (g : σ → τ) (payload : Payload ρ) :
    (payload.map f).map g = payload.map fun place => g (f place) := by
  have hnames (names : List (DefiningName ρ)) :
      (names.map (·.map f)).map (·.map g) = names.map (·.map fun place => g (f place)) :=
    List.map_map
  cases payload with
  | unit part => cases part <;> simp only [Payload.map, UnitPart.map, hnames]
  | decl part =>
    cases part with
    | bodyStub stub => cases stub <;> rfl
    | _ => simp only [Payload.map, Decl.map, hnames] <;> rfl
  | type part => cases part <;> simp only [Payload.map, TypeDef.map, hnames]
  | stmt part =>
    cases part with
    | loop label scheme statements endName => cases label <;> cases scheme <;> rfl
    | block label declarations body endName => cases label <;> rfl
    | _ => simp only [Payload.map, Stmt.map, hnames]
  | _ => rfl

theorem DiagnosticLog.rollback_unplaced (log : DiagnosticLog) (length : Nat) :
    log.unplaced.rollback length = ((log.rollback length).mapError Fatal.unplaced).map DiagnosticLog.unplaced := by
  have hlength : log.unplaced.length = log.length := by simp [DiagnosticLog.length, unplaced]
  have hshrink : log.unplaced.records.shrink length = (log.records.shrink length).map Diagnostic.unplaced := by
    apply Array.toList_inj.mp
    simp [unplaced]
  simp only [rollback, hlength, hshrink]
  split <;> rfl

theorem Diagnostic.withRelated_unplaced (diagnostic : Diagnostic) (message : String) (range : Range) :
    (diagnostic.withRelated message range).unplaced = diagnostic.unplaced.withRelated message (.empty 0) := by
  simp [withRelated, unplaced, RelatedPlace.unplaced]

namespace Cursor

variable (cursor : Cursor)

def unplaced : Cursor where
  tokens := cursor.tokens.map Token.unplaced
  position := cursor.position
  position_lt := by simpa using cursor.position_lt
  last_kind := by
    have hlast := cursor.last_kind
    simp only [Array.back?, Array.size_map, Array.getElem?_map, Option.map_map]
    exact hlast

@[simp] theorem current_unplaced : cursor.unplaced.current = cursor.current.unplaced := by
  simp [current, unplaced]

@[simp] theorem kind_unplaced : cursor.unplaced.kind = cursor.kind :=
  (congrArg Token.kind cursor.current_unplaced :)

theorem tokenAt_unplaced (index : Nat) : cursor.unplaced.tokenAt index = (cursor.tokenAt index).unplaced := by
  have hsize : cursor.unplaced.tokens.size = cursor.tokens.size := by simp [unplaced]
  simp only [tokenAt, hsize, current_unplaced, Array.getD_eq_getD_getElem?]
  simp only [unplaced, Array.getElem?_map]
  cases cursor.tokens[min index (cursor.tokens.size - 1)]? <;> rfl

theorem ahead_unplaced (n : Nat) : cursor.unplaced.ahead n = (cursor.ahead n).unplaced :=
  cursor.tokenAt_unplaced _

theorem remaining_unplaced : cursor.unplaced.remaining = cursor.remaining := by
  simp [remaining, unplaced]

theorem advance_unplaced :
    cursor.unplaced.advance =
      (cursor.advance.mapError Fatal.unplaced).map fun next => (next.1.unplaced, next.2.unplaced) := by
  simp only [advance, kind_unplaced, current_unplaced]
  split <;> rfl

theorem rewind_unplaced (position : Nat) :
    cursor.unplaced.rewind position =
      ((cursor.rewind position).mapError Fatal.unplaced).map Cursor.unplaced := by
  have hsize : cursor.unplaced.tokens.size = cursor.tokens.size := by simp [unplaced]
  simp only [rewind, hsize]
  split <;> rfl

theorem previousEnd_unplaced : cursor.unplaced.previousEnd = 0 := by
  unfold previousEnd
  split
  · rw [current_unplaced]
    rfl
  · rw [tokenAt_unplaced]
    rfl

theorem groupHas_unplaced (tokens : Array Token) (kinds : List TokenKind) (index level : Nat) :
    groupHas (tokens.map Token.unplaced) kinds index level = groupHas tokens kinds index level := by
  fun_induction groupHas tokens kinds index level with
  | case9 index level h => rw [groupHas, dif_neg (by simpa using h)]
  | _ =>
    rw [groupHas]
    simp_all [Token.unplaced]

theorem aheadInGroup_unplaced (offset : Nat) (kinds : List TokenKind) :
    cursor.unplaced.aheadInGroup offset kinds = cursor.aheadInGroup offset kinds :=
  groupHas_unplaced ..

end Cursor

namespace Tree

variable (tree : Tree)

theorem get?_unplaced (id : NodeId) : tree.unplaced.get? id = (tree.get? id).map Node.unplaced :=
  Array.getElem?_map

theorem size_unplaced : tree.unplaced.size = tree.size := by
  simp [size, unplaced]

theorem payload_unplaced (id : NodeId) : tree.unplaced.payload id = (tree.payload id).unplaced := by
  simp only [payload, get?_unplaced]
  cases tree.get? id <;> rfl

theorem range_unplaced (id : NodeId) : tree.unplaced.range id = .empty 0 := by
  simp only [range, get?_unplaced]
  cases tree.get? id <;> rfl

theorem add_unplaced (range : Range) (payload : Payload Range) :
    tree.unplaced.add (.empty 0) payload.unplaced =
      ((tree.add range payload).1, (tree.add range payload).2.unplaced) := by
  simp only [add, size_unplaced]
  simp [unplaced, Node.unplaced]

theorem fill_unplaced (id : NodeId) (range : Range) (payload : Payload Range) :
    tree.unplaced.fill id (.empty 0) payload.unplaced =
      ((tree.fill id range payload).mapError Fatal.unplaced).map Tree.unplaced := by
  simp only [fill, get?_unplaced]
  cases tree.get? id with
  | none => rfl
  | some node =>
    simp only [Option.map_some, Node.unplaced, Payload.unplaced, Payload.isPlaceholder_map]
    split
    · have hset : (tree.nodes.setIfInBounds id.index ⟨range, payload⟩).map Node.unplaced =
          (tree.nodes.map Node.unplaced).setIfInBounds id.index (Node.unplaced ⟨range, payload⟩) :=
        Array.map_setIfInBounds
      exact congrArg (fun nodes => Except.ok (Tree.mk nodes)) hset.symm
    · rfl

theorem truncate_unplaced (size : Nat) : tree.unplaced.truncate size = (tree.truncate size).unplaced := by
  have hshrink : tree.unplaced.nodes.shrink size = (tree.nodes.shrink size).map Node.unplaced := by
    apply Array.toList_inj.mp
    simp [unplaced]
  exact congrArg Tree.mk hshrink

theorem spelling_unplaced (fuel : Nat) (id : NodeId) : tree.unplaced.spelling fuel id = tree.spelling fuel id := by
  induction fuel generalizing id with
  | zero => rfl
  | succ fuel ih =>
    simp only [spelling, payload_unplaced, ih]
    cases tree.payload id with
    | name use => rfl
    | _ => rfl

end Tree

namespace Parser

def unplaced (parser : Parser) : Parser :=
  { parser with
    cursor := parser.cursor.unplaced, log := parser.log.unplaced
    symbols := parser.symbols.unplaced, tree := parser.tree.unplaced }

def erased : Mirror where
  image := unplaced
  retell := Fatal.unplaced
  cuts _ := False
  sees parser := parser.symbols.Recoverable

variable (parser : Parser)

theorem start_unplaced : parser.unplaced.start = 0 :=
  congrArg (·.range.start) parser.cursor.current_unplaced

theorem place_unplaced (position : Nat) : parser.unplaced.place position = .empty 0 :=
  congrArg Token.range (parser.cursor.tokenAt_unplaced position)

theorem rangeFrom_unplaced : parser.unplaced.rangeFrom 0 = .empty 0 := by
  have hend : parser.unplaced.cursor.previousEnd = 0 := parser.cursor.previousEnd_unplaced
  rw [rangeFrom, hend]
  rfl

theorem erased_basic : erased.Basic where
  kind parser := parser.cursor.kind_unplaced
  position _ := rfl
  remaining parser := parser.cursor.remaining_unplaced
  furthest _ := rfl
  withFurthest _ _ := rfl
  endOfStream parser := congrArg Fatal.endOfStream parser.start_unplaced
  take parser position := by
    show withPosition position parser.unplaced.take = _
    have hcursor : parser.unplaced.cursor = parser.cursor.unplaced := rfl
    simp only [take, hcursor, Cursor.advance_unplaced]
    cases parser.cursor.advance <;> rfl

theorem report_unplaced (diagnostic : Diagnostic) :
    parser.unplaced.report diagnostic.unplaced = (parser.report diagnostic).unplaced := by
  simp [report, DiagnosticLog.report, unplaced, DiagnosticLog.unplaced]

theorem quotedName_unplaced (id : NodeId) : parser.unplaced.quotedName id = parser.quotedName id := by
  have htree : parser.unplaced.tree = parser.tree.unplaced := rfl
  simp only [quotedName, htree, Tree.size_unplaced, Tree.spelling_unplaced]

theorem describe_unplaced (finding : Finding) :
    parser.unplaced.describe finding = (parser.describe finding).unplaced := by
  have htree : parser.unplaced.tree = parser.tree.unplaced := rfl
  cases finding with
  | endMismatch position written expected =>
    simp only [describe, place_unplaced]
    rfl
  | mixedOperators position first next =>
    have hstart : (parser.unplaced.place position).start = 0 := congrArg Range.start (parser.place_unplaced _)
    simp only [describe, hstart, rangeFrom_unplaced]
    rfl
  | notAPackage package kind =>
    cases kind <;> simp only [describe, quotedName_unplaced, htree, Tree.range_unplaced] <;> rfl
  | _ =>
    simp only [describe, quotedName_unplaced, htree, Tree.range_unplaced]
    rfl

theorem find_unplaced (finding : Finding) :
    parser.unplaced.find finding = (parser.find finding).unplaced := by
  cases finding with
  | undeclaredTypeMark mark =>
    have hoptions : parser.unplaced.options = parser.options := rfl
    simp only [find, hoptions, describe_unplaced, report_unplaced]
    split <;> rfl
  | _ => simp only [find, describe_unplaced, report_unplaced]

theorem reportUnrecognized_unplaced (context : Context) (code : Code) (first : Nat) :
    parser.unplaced.reportUnrecognized context code first =
      (parser.reportUnrecognized context code first).unplaced := by
  have hfurthest : parser.unplaced.furthest = parser.furthest := rfl
  have htoken (position : Nat) : parser.unplaced.cursor.tokenAt position =
    (parser.cursor.tokenAt position).unplaced := Cursor.tokenAt_unplaced ..
  simp only [reportUnrecognized, hfurthest, htoken, ← report_unplaced]
  rw [Diagnostic.withRelated_unplaced]
  rfl

theorem reportDeclared_unplaced (id : SymbolId) (declared : Declared) :
    parser.unplaced.reportDeclared id declared = (parser.reportDeclared id declared).unplaced := by
  have hsymbols : parser.unplaced.symbols = parser.symbols.unplaced := rfl
  cases declared with
  | duplicate existing =>
    simp only [reportDeclared, hsymbols, SymbolTable.symbol?_unplaced]
    cases parser.symbols.symbol? id with
    | none => rfl
    | some symbol =>
      cases parser.symbols.symbol? existing with
      | none => rfl
      | some earlier =>
        simp only [Option.map_some, ← report_unplaced]
        refine congrArg parser.unplaced.report ?_
        have hpredefined : earlier.unplaced.isPredefined = earlier.isPredefined := rfl
        rw [hpredefined]
        split
        · rfl
        · rw [Diagnostic.withRelated_unplaced]
          rfl
  | _ => rfl

theorem withSymbols_unplaced (symbols : SymbolTable) :
    ({ parser.unplaced with symbols := symbols.unplaced } : Parser) =
      ({ parser with symbols } : Parser).unplaced := rfl

theorem declare_unplaced (declaration : Declaration) :
    parser.unplaced.declare declaration.unplaced =
      ((parser.declare declaration).1, (parser.declare declaration).2.unplaced) := by
  have hsymbols : parser.unplaced.symbols = parser.symbols.unplaced := rfl
  simp only [declare, hsymbols, SymbolTable.declare_unplaced, withSymbols_unplaced, reportDeclared_unplaced]

theorem bind_unplaced (id : SymbolId) :
    parser.unplaced.bind id = ((parser.bind id).1, (parser.bind id).2.unplaced) := by
  have hsymbols : parser.unplaced.symbols = parser.symbols.unplaced := rfl
  simp only [bind, hsymbols, SymbolTable.bind_unplaced, withSymbols_unplaced, reportDeclared_unplaced]

theorem lookaheadClass_unplaced : parser.unplaced.lookaheadClass = parser.lookaheadClass := by
  have hsymbols : parser.unplaced.symbols = parser.symbols.unplaced := rfl
  have hahead (n : Nat) : parser.unplaced.cursor.ahead n = (parser.cursor.ahead n).unplaced :=
    Cursor.ahead_unplaced ..
  have hfrom (resolution : Resolution) (fuel n : Nat) :
      parser.unplaced.lookaheadFrom resolution fuel n = parser.lookaheadFrom resolution fuel n := by
    induction fuel generalizing resolution n with
    | zero => rfl
    | succ fuel ih =>
      simp only [lookaheadFrom, ih, hahead, hsymbols, SymbolTable.resolveMember_unplaced]
      rfl
  have hkind : parser.unplaced.kind = parser.kind := erased_basic.kind parser
  have htext : parser.unplaced.current.text = parser.current.text :=
    (congrArg Token.text parser.cursor.current_unplaced :)
  have hremaining : parser.unplaced.cursor.remaining = parser.cursor.remaining := erased_basic.remaining parser
  simp only [lookaheadClass, hfrom, hkind, htext, hremaining, hsymbols, SymbolTable.resolve_unplaced]

theorem map_place_unplaced (payload : Payload Nat) :
    payload.map parser.unplaced.place = (payload.map parser.place).unplaced := by
  have hplace : parser.unplaced.place = fun _ => .empty 0 := funext parser.place_unplaced
  rw [hplace, Payload.unplaced, Payload.map_map]

theorem addNode_unplaced (start : Nat) (payload : Payload Range) :
    parser.unplaced.addNode 0 payload.unplaced =
      ((parser.addNode start payload).1, (parser.addNode start payload).2.unplaced) := by
  have htree : parser.unplaced.tree = parser.tree.unplaced := rfl
  simp only [addNode, rangeFrom_unplaced, htree, Tree.add_unplaced _ (parser.rangeFrom start)]
  rfl

theorem reserveNode_unplaced (start : Nat) :
    parser.unplaced.reserveNode 0 = ((parser.reserveNode start).1, (parser.reserveNode start).2.unplaced) := by
  have hadd := parser.tree.add_unplaced (.empty start) .placeholder
  have htree : parser.unplaced.tree = parser.tree.unplaced := rfl
  change parser.tree.unplaced.reserve (.empty 0) = _ at hadd
  simp only [reserveNode, htree, hadd]
  rfl

theorem fillNode_unplaced (id : NodeId) (start : Nat) (payload : Payload Range) :
    parser.unplaced.fillNode id 0 payload.unplaced = erased.reflect (parser.fillNode id start payload) := by
  have htree : parser.unplaced.tree = parser.tree.unplaced := rfl
  simp only [fillNode, rangeFrom_unplaced, htree, Tree.fill_unplaced _ _ (parser.rangeFrom start)]
  cases parser.tree.fill id (parser.rangeFrom start) payload <;> rfl

theorem perform_unplaced {α : Type} (op : Op α) :
    parser.unplaced.perform op = erased.reflect (parser.perform op) := by
  have hsymbols : parser.unplaced.symbols = parser.symbols.unplaced := rfl
  have htree : parser.unplaced.tree = parser.tree.unplaced := rfl
  have hcursor : parser.unplaced.cursor = parser.cursor.unplaced := rfl
  have hkind : parser.unplaced.kind = parser.kind := erased_basic.kind parser
  have hstart (start : Nat) : (parser.unplaced.place start).start = 0 :=
    congrArg Range.start (parser.place_unplaced start)
  cases op with
  | kind => exact congrArg (Reply.matched ·, parser.unplaced) hkind
  | position => rfl
  | followedBy first second =>
    simp only [perform, hkind, hcursor, Cursor.ahead_unplaced]
    rfl
  | aheadInGroup kinds =>
    simp only [perform, hcursor, Cursor.aheadInGroup_unplaced]
    rfl
  | aheadInParentheses kinds =>
    simp only [perform, hkind, hcursor, Cursor.aheadInGroup_unplaced]
    rfl
  | lookaheadClass =>
    simp only [perform, lookaheadClass_unplaced]
    rfl
  | take => exact erased_basic.take parser parser.position
  | expect kind => exact erased_basic.expect parser parser.position kind
  | expectChoice kind => exact erased_basic.expectChoice parser parser.position kind
  | add start payload =>
    simp only [perform, hstart, map_place_unplaced, parser.addNode_unplaced (parser.place start).start]
    rfl
  | reserve start =>
    simp only [perform, hstart, parser.reserveNode_unplaced (parser.place start).start]
    rfl
  | fill id start payload =>
    simp only [perform, hstart, map_place_unplaced]
    exact parser.fillNode_unplaced id (parser.place start).start _
  | inspect id =>
    simp only [perform, htree, Tree.payload_unplaced, Payload.unplaced, Payload.map_map]
    rfl
  | resolve name =>
    simp only [perform, hsymbols, SymbolTable.resolve_unplaced]
    rfl
  | resolveMember owner name =>
    simp only [perform, hsymbols, SymbolTable.resolveMember_unplaced]
    rfl
  | kindOf id =>
    simp only [perform, hsymbols, SymbolTable.kindOf_unplaced]
    rfl
  | shapeOf id =>
    simp only [perform, hsymbols, SymbolTable.symbol?_unplaced]
    cases parser.symbols.symbol? id <;> rfl
  | declaredHere id =>
    simp only [perform, hsymbols, SymbolTable.symbol?_unplaced]
    cases parser.symbols.symbol? id <;> rfl
  | libraryUnit name => rfl
  | enclosingLoop label => rfl
  | declare name kind node shape =>
    have hdeclare := parser.declare_unplaced
      { name := name.name, kind, node := some node, range := parser.place name.place, shape }
    simp only [Declaration.unplaced] at hdeclare
    simp only [perform, place_unplaced, hdeclare]
    rfl
  | bind id =>
    simp only [perform, bind_unplaced]
    rfl
  | openRegion kind owner => rfl
  | closeRegion =>
    simp only [perform, hsymbols, SymbolTable.closeRegion_unplaced]
    cases parser.symbols.closeRegion <;> rfl
  | markPrivate => rfl
  | addImport package kind => rfl
  | publish owner members =>
    simp only [perform, hsymbols, SymbolTable.publish_unplaced]
    rfl
  | publishAlias synonym target =>
    simp only [perform, hsymbols, SymbolTable.publishAlias_unplaced]
    rfl
  | find finding =>
    simp only [perform, find_unplaced]
    rfl

theorem erased_faithful : erased.Faithful where
  toBasic := erased_basic
  recoverable h := h
  move h hmove := hmove.recoverable h
  checkpoint parser := by
    simp [erased, Parser.checkpoint, unplaced, position, Cursor.unplaced, DiagnosticLog.length,
      DiagnosticLog.unplaced, SymbolTable.mark_unplaced, Tree.size_unplaced]
  perform op parser := parser.perform_unplaced op
  descend {parser} _ := by
    refine .inr ?_
    show parser.unplaced.descend = _
    have hoptions : parser.unplaced.options = parser.options := rfl
    have hdepth : parser.unplaced.depth = parser.depth := rfl
    simp only [descend, hoptions, hdepth, start_unplaced]
    split <;> rfl
  ascend _ := rfl
  pushContext _ _ := rfl
  popContext _ := rfl
  reportUnrecognized parser := parser.reportUnrecognized_unplaced
  restore parser checkpoint := by
    show parser.unplaced.restore checkpoint = _
    have hcursor : parser.unplaced.cursor = parser.cursor.unplaced := rfl
    have hlog : parser.unplaced.log.rollback checkpoint.log =
        ((parser.log.rollback checkpoint.log).mapError Fatal.unplaced).map DiagnosticLog.unplaced :=
      parser.log.rollback_unplaced checkpoint.log
    have hsymbols : parser.unplaced.symbols.rollback checkpoint.scopes =
        (parser.symbols.rollback checkpoint.scopes).unplaced := parser.symbols.rollback_unplaced _
    have htree : parser.unplaced.tree.truncate checkpoint.nodes =
        (parser.tree.truncate checkpoint.nodes).unplaced := parser.tree.truncate_unplaced _
    simp only [restore, hcursor, Cursor.rewind_unplaced, hlog, hsymbols, htree]
    cases parser.cursor.rewind checkpoint.position with
    | error error => rfl
    | ok cursor => cases parser.log.rollback checkpoint.log <;> rfl

end Parser

end AdaSyntax
