import AdaSyntax.Proofs.Parser.Course
import AdaSyntax.Proofs.Scope.Growth

namespace AdaSyntax

namespace Cursor

variable {token : Token} {earlier later : Cursor}

theorem advance_eq (h : earlier.advance = .ok (token, later)) :
    later.tokens = earlier.tokens ∧ later.position = earlier.position + 1 := by
  unfold advance at h
  split at h
  · cases h
  · cases h
    exact ⟨rfl, rfl⟩

theorem Follows.tokens (h : later.Follows earlier) : later.tokens = earlier.tokens := by
  rcases h with rfl | ⟨token, hadvance⟩
  · rfl
  · exact (advance_eq hadvance).1

theorem Follows.le (h : later.Follows earlier) : earlier.position ≤ later.position := by
  rcases h with rfl | ⟨token, hadvance⟩
  · exact Nat.le_refl _
  · exact (advance_eq hadvance).2 ▸ Nat.le_succ _

end Cursor

namespace Parser

theorem place_start (parser : Parser) {position : Nat} (h : position < parser.cursor.tokens.size) :
    (parser.place position).start = tokenStart parser.cursor.tokens position := by
  have hmin : min position (parser.cursor.tokens.size - 1) = position := by omega
  simp [place, Cursor.tokenAt, hmin, tokenStart, h]

theorem place_stop (parser : Parser) {position : Nat} (h : position < parser.cursor.tokens.size) :
    (parser.place position).stop = tokenStop parser.cursor.tokens (position + 1) := by
  have hmin : min position (parser.cursor.tokens.size - 1) = position := by omega
  simp [place, Cursor.tokenAt, hmin, tokenStop, h]

theorem previousEnd_eq (parser : Parser) :
    parser.cursor.previousEnd = tokenStop parser.cursor.tokens parser.position := by
  have hlt := parser.cursor.position_lt
  unfold Cursor.previousEnd Parser.position
  split
  · rename_i hzero
    rw [hzero] at hlt
    simp [tokenStop, tokenStart, Cursor.current, hzero, hlt]
  · rename_i n hn
    have hmin : min n (parser.cursor.tokens.size - 1) = n := by omega
    have hn' : n < parser.cursor.tokens.size := by omega
    simp [tokenStop, hn, Cursor.tokenAt, hmin, hn']

theorem rangeFrom_eq (parser : Parser) {position : Nat} (h : position < parser.cursor.tokens.size) :
    parser.rangeFrom (parser.place position).start =
      tokenSpan parser.cursor.tokens position parser.position := by
  rw [rangeFrom, place_start parser h, previousEnd_eq, tokenSpan]

def Reports (later earlier : Parser) : Prop :=
  later = earlier ∨ ∃ diagnostic, later = earlier.report diagnostic

def Notes (later earlier : Parser) : Prop :=
  later = earlier ∨ ∃ diagnostic, diagnostic.code ≠ .duplicateDeclaration ∧ later = earlier.report diagnostic

theorem Notes.reports {earlier later : Parser} (h : later.Notes earlier) : later.Reports earlier :=
  h.imp_right fun ⟨diagnostic, _, heq⟩ => ⟨diagnostic, heq⟩

theorem describe_code (parser : Parser) (finding : Finding) :
    (parser.describe finding).code ≠ .duplicateDeclaration := by
  intro h
  cases finding with
  | notAPackage package kind => cases kind <;> cases h
  | _ => cases h

theorem find_notes (parser : Parser) (finding : Finding) : (parser.find finding).Notes parser := by
  have hcode := parser.describe_code finding
  cases finding with
  | undeclaredTypeMark mark =>
    by_cases hwarn : parser.options.warnUndeclared = true
    · exact .inr ⟨_, hcode, if_pos hwarn⟩
    · exact .inl (if_neg hwarn)
  | _ => exact .inr ⟨_, hcode, rfl⟩

theorem find_reports (parser : Parser) (finding : Finding) : (parser.find finding).Reports parser :=
  (parser.find_notes finding).reports

theorem reportDeclared_eq (parser : Parser) (id : SymbolId) (declared : Declared) :
    parser.reportDeclared id declared = parser ∨
      ∃ diagnostic symbol, diagnostic.code = .duplicateDeclaration ∧
        parser.symbols.symbol? id = some symbol ∧ diagnostic.range = symbol.range ∧
        parser.reportDeclared id declared = parser.report diagnostic := by
  cases declared with
  | duplicate existing =>
    unfold reportDeclared
    simp only
    split
    · rename_i symbol earlier hsymbol _
      refine .inr ⟨_, symbol, ?_, hsymbol, ?_, rfl⟩ <;> cases earlier.isPredefined <;> rfl
    · exact .inl rfl
  | _ => exact .inl rfl

theorem reportDeclared_reports (parser : Parser) (id : SymbolId) (declared : Declared) :
    (parser.reportDeclared id declared).Reports parser :=
  (parser.reportDeclared_eq id declared).imp_right fun ⟨diagnostic, _, _, _, _, heq⟩ => ⟨diagnostic, heq⟩

theorem checkMark_notes (parser : Parser) (mark : NodeId) : (parser.checkMark mark).Notes parser := by
  dsimp only [checkMark]
  split
  · exact parser.find_notes _
  · split
    · exact .inl rfl
    · exact parser.find_notes _

theorem checkMark_reports (parser : Parser) (mark : NodeId) : (parser.checkMark mark).Reports parser :=
  (parser.checkMark_notes mark).reports

theorem checkExit_notes (parser : Parser) (statement : NodeId) (target : Option NodeId) :
    (parser.checkExit statement target).Notes parser := by
  unfold checkExit
  split
  · split
    · split
      · exact .inl rfl
      · exact parser.find_notes _
    · exact .inl rfl
  · exact parser.find_notes _

theorem checkExit_reports (parser : Parser) (statement : NodeId) (target : Option NodeId) :
    (parser.checkExit statement target).Reports parser :=
  (parser.checkExit_notes statement target).reports

theorem Reports.cursor_eq {earlier later : Parser} (h : later.Reports earlier) :
    later.cursor = earlier.cursor := by
  rcases h with rfl | ⟨diagnostic, rfl⟩ <;> rfl

theorem usePackages_cursor (parser : Parser) (packages : List NodeId) :
    (parser.usePackages packages).cursor = parser.cursor := by
  induction packages generalizing parser with
  | nil => rfl
  | cons package packages ih =>
    refine (ih (parser.usePackage package)).trans ?_
    unfold usePackage
    split
    · rfl
    · rfl
    · exact (parser.find_reports _).cursor_eq

theorem Awaits.mono {earlier later : Parser} {node : NodeId} {start : Nat}
    (h : earlier.Awaits node start) (htokens : later.cursor.tokens = earlier.cursor.tokens)
    (hposition : earlier.position ≤ later.position)
    (hnodes : earlier.tree.nodes.toList <+: later.tree.nodes.toList) : later.Awaits node start := by
  have hlt : node.index < earlier.tree.size := (Array.getElem?_eq_some_iff.mp h.2).1
  exact ⟨Nat.le_trans h.1 hposition, by rw [Tree.get?_of_isPrefix hnodes hlt, htokens]; exact h.2⟩

structure Built (base parser : Parser) (yield : Yield) (nodes : List NodeId) : Prop where
  reverts : parser.RevertsTo base
  reaches : base.position ≤ parser.position
  scopes : SymbolTable.Grown base.symbols parser.symbols yield.opened.length
  proper : parser.symbols.Proper
  row : Row parser.cursor.tokens parser.tree base.position parser.position
    (yield.pieces.map Piece.node) nodes
  listed : (yield.holes.map Hole.node ++ nodes).Perm (nodesBetween base.tree.size parser.tree.size)
  holes : ∀ hole ∈ yield.holes, parser.Awaits hole.node hole.start ∧ base.position ≤ hole.start
  places : ∀ place ∈ yield.places, base.position ≤ place ∧ place < parser.position

namespace Built

variable {base middle parser later : Parser} {yield yield' : Yield} {nodes nodes' : List NodeId}

theorem refl (h : parser.symbols.Proper) : Built parser parser .empty [] where
  reverts := .refl parser
  reaches := Nat.le_refl _
  scopes := .refl _
  proper := h
  row := .nil (Nat.le_refl _)
  listed := by rw [nodesBetween_self]; rfl
  holes := by simp [Yield.empty]
  places := by simp [Yield.empty]

theorem lt_of_mem (h : Built base parser yield nodes) {id : NodeId} (hid : id ∈ nodes) :
    base.tree.size ≤ id.index ∧ id.index < parser.tree.size :=
  mem_nodesBetween.mp (h.listed.mem_iff.mp (List.mem_append_right _ hid))

theorem lt_of_hole (h : Built base parser yield nodes) {hole : Hole} (hhole : hole ∈ yield.holes) :
    base.tree.size ≤ hole.node.index ∧ hole.node.index < parser.tree.size :=
  mem_nodesBetween.mp
    (h.listed.mem_iff.mp (List.mem_append_left _ (List.mem_map_of_mem hhole)))

theorem size_le (h : Built base parser yield nodes) : base.tree.size ≤ parser.tree.size :=
  Tree.size_le_of_isPrefix h.reverts.nodes

theorem position_lt (h : Built base parser yield nodes) :
    base.position < parser.cursor.tokens.size :=
  Nat.lt_of_le_of_lt h.reaches parser.cursor.position_lt

theorem row_later (later : Parser) (h : Built base parser yield nodes)
    (htokens : later.cursor.tokens = parser.cursor.tokens)
    (hnodes : parser.tree.nodes.toList <+: later.tree.nodes.toList) :
    Row later.cursor.tokens later.tree base.position parser.position (yield.pieces.map Piece.node)
      nodes := by
  rw [htokens]
  exact h.row.transfer fun id hid => Tree.get?_of_isPrefix hnodes (h.lt_of_mem hid).2

theorem trans (h : Built base middle yield nodes) (h' : Built middle parser yield' nodes') :
    Built base parser (yield ++ yield') (nodes ++ nodes') where
  reverts := h'.reverts.trans h.reverts
  reaches := Nat.le_trans h.reaches h'.reaches
  scopes := by
    rw [Yield.append_opened, List.length_append]
    exact h.scopes.trans h'.scopes
  proper := h'.proper
  row := by
    rw [Yield.append_pieces, List.map_append, Piece.map_node_within]
    exact (h.row_later _ h'.reverts.tokens h'.reverts.nodes).append h'.row
  listed := by
    rw [Yield.append_holes, List.map_append, ← nodesBetween_append h.size_le h'.size_le]
    refine List.Perm.trans ?_ (h.listed.append h'.listed)
    simp only [List.append_assoc]
    refine List.Perm.append_left _ ?_
    rw [← List.append_assoc, ← List.append_assoc]
    exact List.perm_append_comm.append_right _
  holes := by
    intro hole hhole
    rcases List.mem_append.mp hhole with hhole | hhole
    · obtain ⟨hawaits, hle⟩ := h.holes hole hhole
      exact ⟨hawaits.mono h'.reverts.tokens h'.reaches h'.reverts.nodes, hle⟩
    · obtain ⟨hawaits, hle⟩ := h'.holes hole hhole
      exact ⟨hawaits, Nat.le_trans h.reaches hle⟩
  places := by
    intro place hplace
    have hfirst := h.reaches
    have hsecond := h'.reaches
    rcases List.mem_append.mp hplace with hplace | hplace
    · have := h.places place hplace
      omega
    · have := h'.places place hplace
      omega

theorem weaken (h : Built base parser yield nodes) (hyield : yield.Weakens yield') :
    Built base parser yield' nodes where
  reverts := h.reverts
  reaches := h.reaches
  scopes := hyield.opened ▸ h.scopes
  proper := h.proper
  row := by
    have hpieces := hyield.pieces
    have hrow := h.row
    revert hpieces hrow
    generalize yield.pieces = pieces
    generalize yield'.pieces = pieces'
    rintro (⟨⟩ | ⟨_⟩) hrow <;> exact hrow
  listed := hyield.holes ▸ h.listed
  holes := hyield.holes ▸ h.holes
  places place hplace := h.places place (hyield.places place hplace)

theorem symbols {table : SymbolTable} (h : Built base parser yield nodes)
    (hscopes : SymbolTable.Grown base.symbols table yield.opened.length) (hproper : table.Proper) :
    Built base { parser with symbols := table } yield nodes :=
  { h with reverts := { h.reverts with symbols := hscopes.reverts }, scopes := hscopes, proper := hproper }

theorem resume (h : Built base parser yield nodes) (hlater : later.Resumes parser) :
    Built base later yield nodes := by
  obtain ⟨next, furthest, hnext, rfl⟩ := hlater
  have hsymbols := h.symbols (h.scopes.trans (.of_counter hnext)) h.proper
  exact { hsymbols with reverts := { hsymbols.reverts with } }

theorem report (h : Built base parser yield nodes) (diagnostic : Diagnostic) :
    Built base (parser.report diagnostic) yield nodes :=
  { h with
    reverts := { h.reverts with
      log := h.reverts.log.trans (by simp [Parser.report, DiagnosticLog.report]) } }

theorem reports (h : Built base parser yield nodes) (hlater : later.Reports parser) :
    Built base later yield nodes := by
  rcases hlater with rfl | ⟨diagnostic, rfl⟩
  · exact h
  · exact h.report diagnostic

theorem usePackage (h : Built base parser yield nodes) (package : NodeId) :
    Built base (parser.usePackage package) yield nodes := by
  unfold Parser.usePackage
  split
  · exact h.symbols (h.scopes.trans (.addImport ..)) (h.proper.of_bindings rfl rfl)
  · exact h.symbols (h.scopes.trans (.addImport ..)) (h.proper.of_bindings rfl rfl)
  · exact h.reports (parser.find_reports _)

theorem usePackages (h : Built base parser yield nodes) (packages : List NodeId) :
    Built base (parser.usePackages packages) yield nodes := by
  induction packages generalizing parser with
  | nil => exact h
  | cons package packages ih => exact ih (h.usePackage package)

theorem advance {token : Token} {cursor : Cursor} (h : Built base parser yield nodes)
    (hadvance : parser.cursor.advance = .ok (token, cursor)) :
    Built base { parser with cursor } { yield with places := yield.places ++ [parser.position] } nodes := by
  let later : Parser := { parser with cursor }
  obtain ⟨htokens, hposition⟩ : later.cursor.tokens = parser.cursor.tokens ∧
    later.position = parser.position + 1 := Cursor.advance_eq hadvance
  have hle : parser.position ≤ later.position := hposition ▸ Nat.le_succ _
  exact {
    reverts := { h.reverts with tokens := htokens.trans h.reverts.tokens }
    reaches := Nat.le_trans h.reaches hle
    scopes := h.scopes
    proper := h.proper
    row := (h.row_later later htokens List.prefix_rfl).mono_high hle
    listed := h.listed
    holes := fun hole hhole => ⟨(h.holes hole hhole).1.mono htokens hle List.prefix_rfl, (h.holes hole hhole).2⟩
    places := by
      intro place hplace
      have hreaches := h.reaches
      change base.position ≤ place ∧ place < later.position
      rcases List.mem_append.mp hplace with hplace | hplace
      · have := h.places place hplace
        omega
      · rw [List.mem_singleton.mp hplace]
        omega }

theorem hold {hole held : Hole} (h : Built base parser yield nodes) (hholes : yield.holes = [hole])
    (hnode : held.node = hole.node) (hstart : held.start = hole.start) :
    Built base parser { yield with holes := [held], silent := false } nodes := by
  have hhole := h.holes hole (hholes ▸ List.mem_singleton_self _)
  have hlisted := h.listed
  rw [hholes, List.map_singleton, ← hnode] at hlisted
  exact {
    h with
    row := h.row
    listed := hlisted
    holes := by
      intro other hother
      rw [List.mem_singleton.mp hother, hnode, hstart]
      exact hhole }

theorem change {change : TableChange} (h : Built base parser yield nodes)
    (hchange : Change base parser yield change yield') :
    Built base { parser with symbols := parser.symbols.change change } yield' nodes := by
  have hproper := h.proper.change change
  cases hchange with
  | declare hkind hnode hrange hspans => 
    exact (h.symbols (h.scopes.trans (.declare h.proper _)) hproper).weaken (.unsilent _)
  | label hholes =>
    exact (h.symbols (h.scopes.trans (.declare h.proper _)) hproper).hold hholes rfl rfl
  | parameter hholes =>
    exact (h.symbols (h.scopes.trans (.declare h.proper _)) hproper).hold hholes rfl rfl
  | bind => exact (h.symbols (h.scopes.trans (.bind h.proper _)) hproper).weaken (.unsilent _)
  | file id => exact (h.symbols (h.scopes.trans (.bind h.proper id)) hproper).weaken (.filing _)
  | openRegion owner hkind =>
    exact { h with
      reverts := { h.reverts with symbols := (h.scopes.trans (.openRegion ..)).reverts }
      scopes := by
        rw [Yield.opening, List.length_append]
        exact h.scopes.trans (.openRegion _ _ owner)
      proper := hproper }
  | openLoop hholes howner =>
    exact { h with
      reverts := { h.reverts with symbols := (h.scopes.trans (.openRegion ..)).reverts }
      scopes := by
        rw [Yield.opening, List.length_append]
        exact h.scopes.trans (.openRegion _ _ _)
      proper := hproper }
  | closeRegion hopened =>
    obtain ⟨count, hcount⟩ := Nat.exists_eq_succ_of_ne_zero (mt List.length_eq_zero_iff.mp hopened)
    have hscopes := h.scopes
    rw [hcount] at hscopes
    obtain ⟨closed, table, hclose, hgrown⟩ := hscopes.closeRegion
    have htable : parser.symbols.change .closeRegion = table := by
      simp only [SymbolTable.change, hclose]
    rw [htable] at hproper ⊢
    exact { h with
      reverts := { h.reverts with symbols := hgrown.reverts }
      scopes := by
        rw [Yield.closing, List.length_dropLast, hcount]
        exact hgrown
      proper := hproper }
  | markPrivate hopened =>
    obtain ⟨count, hcount⟩ := Nat.exists_eq_succ_of_ne_zero (mt List.length_eq_zero_iff.mp hopened)
    have hscopes := h.scopes
    rw [hcount] at hscopes
    exact h.symbols (by rw [hcount]; exact hscopes.markPrivate) hproper
  | addImport package kind => exact h.symbols (h.scopes.trans (.addImport ..)) hproper
  | publish members howner => exact h.symbols (h.scopes.publish howner members) hproper
  | publishAlias target hsynonym => exact h.symbols (h.scopes.publishAlias hsynonym target) hproper

theorem row_parent (later : Parser) {payload : Payload Nat} {node : NodeId} {role : Role}
    {start : Nat} (h : Built base parser yield nodes) (hfits : payload.Fits yield node role)
    (htokens : later.cursor.tokens = parser.cursor.tokens) (hmoved : base.position < later.position)
    (hle : parser.position ≤ later.position)
    (hsame : ∀ id ∈ nodes, later.tree.get? id = parser.tree.get? id)
    (hnode : later.tree.get? node =
      some ⟨parser.rangeFrom start, payload.map parser.place⟩)
    (hstart : start = (parser.place base.position).start) :
    Row later.cursor.tokens later.tree base.position later.position [node] (node :: nodes) := by
  have hchildren : (payload.map parser.place).children = yield.pieces.map Piece.node := by
    rw [Payload.children_map, hfits.pieces, Payload.map_node_pieces]
  have hbelow := h.row.transfer hsame
  rw [← hchildren] at hbelow
  rw [htokens]
  refine hbelow.parent hmoved hle hnode ?_ ?_
  · rw [Payload.isPlaceholder_map]
    exact Role.admits_filled hfits.admits
  · rw [hstart]
    exact rangeFrom_eq parser h.position_lt

theorem add {payload : Payload Nat} {role : Role} {cursor : Cursor} (h : Built base parser yield nodes)
    (hfits : payload.Fits yield ⟨parser.tree.size⟩ role) (hcursor : cursor.Follows parser.cursor)
    (hmoved : base.position < cursor.position) :
    Built base { parser.added base.position payload with cursor } (yield.fold ⟨parser.tree.size⟩ role)
      (⟨parser.tree.size⟩ :: nodes) := by
  let later : Parser := { parser.added base.position payload with cursor }
  have hprefix : parser.tree.nodes.toList <+: later.tree.nodes.toList := by
    simp [later, added, addNode, Tree.add]
  have hsize : later.tree.size = parser.tree.size + 1 := by simp [later, added, addNode, Tree.add, Tree.size]
  exact {
    reverts := { h.reverts with
      tokens := hcursor.tokens.trans h.reverts.tokens, nodes := h.reverts.nodes.trans hprefix }
    reaches := Nat.le_of_lt hmoved
    scopes := h.scopes
    proper := h.proper
    row := h.row_parent later hfits hcursor.tokens hmoved hcursor.le
      (fun id hid => Tree.get?_of_isPrefix hprefix (h.lt_of_mem hid).2)
      (parser.tree.get?_add_self _ _) rfl
    listed := by
      change (yield.holes.map Hole.node ++ ⟨parser.tree.size⟩ :: nodes).Perm
        (nodesBetween base.tree.size later.tree.size)
      rw [hsize, ← nodesBetween_append h.size_le (Nat.le_succ _), nodesBetween_succ]
      refine List.perm_middle.trans ((h.listed.cons _).trans ?_)
      exact (List.perm_append_singleton _ _).symm
    holes := fun hole hhole =>
      ⟨(h.holes hole hhole).1.mono hcursor.tokens hcursor.le hprefix, (h.holes hole hhole).2⟩
    places := fun place hplace =>
      ⟨(h.places place hplace).1, Nat.lt_of_lt_of_le (h.places place hplace).2 hcursor.le⟩ }

theorem reserve (h : Built base parser yield nodes) :
    Built base (parser.reserveNode (parser.place base.position).start).2
      (yield.reserving ⟨parser.tree.size⟩ base.position) nodes := by
  let later := (parser.reserveNode (parser.place base.position).start).2
  have hprefix : parser.tree.nodes.toList <+: later.tree.nodes.toList := by
    simp [later, reserveNode, Tree.reserve, Tree.add]
  have hsize : later.tree.size = parser.tree.size + 1 := by
    simp [later, reserveNode, Tree.reserve, Tree.add, Tree.size]
  have hnode : later.tree.get? ⟨parser.tree.size⟩ =
      some ⟨.empty (tokenStart parser.cursor.tokens base.position), .placeholder⟩ := by
    rw [← place_start parser h.position_lt]
    exact parser.tree.get?_add_self _ _
  exact {
    reverts := { h.reverts with nodes := h.reverts.nodes.trans hprefix }
    reaches := h.reaches
    scopes := h.scopes
    proper := h.proper
    row := h.row_later later rfl hprefix
    listed := by
      change ((yield.holes ++ [_]).map Hole.node ++ nodes).Perm
        (nodesBetween base.tree.size later.tree.size)
      rw [hsize, ← nodesBetween_append h.size_le (Nat.le_succ _), nodesBetween_succ, List.map_append,
        List.append_assoc]
      refine List.perm_middle.trans ((h.listed.cons _).trans ?_)
      exact (List.perm_append_singleton _ _).symm
    holes := by
      intro hole hhole
      rcases List.mem_append.mp hhole with hhole | hhole
      · exact ⟨(h.holes hole hhole).1.mono rfl (Nat.le_refl _) hprefix, (h.holes hole hhole).2⟩
      · rw [List.mem_singleton.mp hhole]
        exact ⟨⟨h.reaches, hnode⟩, Nat.le_refl _⟩
    places := h.places }

theorem hole_notMem {hole : Hole} (h : Built base parser yield nodes) (hholes : yield.holes = [hole]) :
    hole.node ∉ nodes := by
  have hlisted := h.listed
  rw [hholes] at hlisted
  exact (List.nodup_cons.mp (hlisted.nodup_iff.mpr (nodup_nodesBetween _ _))).1

theorem fill {hole : Hole} {payload : Payload Nat} {role : Role} (h : Built base parser yield nodes)
    (hholes : yield.holes = [hole]) (hfits : payload.Fits yield hole.node role)
    (hmoved : base.position < parser.position) :
    Built base
      { parser with
        tree := parser.tree.replace hole.node
          ⟨parser.rangeFrom (parser.place base.position).start, payload.map parser.place⟩ }
      (yield.filling.fold hole.node role) (hole.node :: nodes) := by
  have hlisted := h.listed
  have hlt := h.lt_of_hole (hholes ▸ List.mem_singleton_self hole)
  rw [hholes] at hlisted
  have hfresh := h.hole_notMem hholes
  let new : Node := ⟨parser.rangeFrom (parser.place base.position).start, payload.map parser.place⟩
  let later : Parser := { parser with tree := parser.tree.replace hole.node new }
  exact {
    reverts := { h.reverts with nodes := Tree.prefix_replace new h.reverts.nodes hlt.1 }
    reaches := h.reaches
    scopes := h.scopes
    proper := h.proper
    row := h.row_parent later hfits rfl hmoved (Nat.le_refl _)
      (fun id hid => Tree.get?_replace_of_ne new fun heq => hfresh (heq ▸ hid))
      (Tree.get?_replace_self new hlt.2) rfl
    listed := by
      rw [Tree.size_replace]
      exact hlisted
    holes := fun _ hhole => by cases hhole
    places := h.places }

end Built

end Parser

theorem Course.built {base parser : Parser} {yield : Yield} {nodes : List NodeId}
    (h : Course base parser yield nodes) (hproper : base.symbols.Proper) :
    Parser.Built base parser yield nodes := by
  induction h with
  | refl => exact .refl hproper
  | append _ _ ih ih' =>
    have h := ih hproper
    exact h.trans (ih' h.proper)
  | nested _ ih =>
    have h := ih hproper
    exact { h with reverts := h.reverts.ascend }
  | listed _ ih =>
    have h := ih hproper
    exact { h with
      reverts := { h.reverts with
        contexts := by simp [Parser.popContext, h.reverts.contexts, Parser.pushContext] } }
  | resume _ hlater ih => exact (ih hproper).resume hlater
  | weaken _ hyield ih => exact (ih hproper).weaken hyield
  | advance _ hadvance ih => exact (ih hproper).advance hadvance
  | report _ _ ih => exact (ih hproper).report _
  | declared declared _ _ _ ih => exact (ih hproper).reports (Parser.reportDeclared_reports ..)
  | @mark _ parser node _ _ ih =>
    have h := (ih hproper).reports (parser.checkMark_reports node)
    exact { h with row := h.row }
  | bounds _ _ ih =>
    have h := ih hproper
    exact { h with row := h.row }
  | @packages _ _ _ packages _ ih =>
    have h := (ih hproper).usePackages packages
    exact { h with row := by simpa using h.row }
  | add _ hfits _ _ hcursor hmoved ih => exact (ih hproper).add hfits hcursor hmoved
  | exit _ hfits _ _ hmoved ih =>
    exact ((ih hproper).add hfits (.inl rfl) hmoved).reports (Parser.checkExit_reports _ _ _)
  | reserve _ ih => exact (ih hproper).reserve
  | fill _ hholes _ hfits _ hmoved ih => exact (ih hproper).fill hholes hfits hmoved
  | change _ hchange ih => exact (ih hproper).change hchange

end AdaSyntax
