import AdaSyntax.Proofs.Marks
import AdaSyntax.Proofs.Parser.Looped

/-!
The reports on exit statements, as the finished tree shows them. An exit statement that no loop of its own
body encloses is reported, and so is one whose target is not the label of such a loop; nothing else is.
-/

namespace AdaSyntax

def Code.isExitFault : Code → Bool
  | exitOutsideLoop | exitNotEnclosing => true
  | _ => false

theorem Code.isChecked_of_isExitFault (code : Code) (h : code.isExitFault = true) : code.isChecked = true := by
  cases code <;> first | rfl | cases h

theorem Code.isExitFault_of_isMarkFault (code : Code) (h : code.isMarkFault = true) :
    code.isExitFault = false := by
  cases code <;> first | rfl | cases h

namespace Tree

/-- Whether a name stands for a label that one of these loops declares. -/
def namesLoop (tree : Tree) (symbols : SymbolTable) (loops : List NodeId) (name : NodeId) : Bool :=
  match (tree.payload name).classify.1.bind symbols.symbol? with
  | some symbol => symbol.kind = .label && loops.any (symbol.node = some ·)
  | none => false

/-- What is wrong with an exit statement that may leave these loops: there is none, or its target is the label
of none of them. -/
def exitFault (tree : Tree) (symbols : SymbolTable) : NodeId × List NodeId → Option (Code × Range)
  | (id, loops) =>
    match tree.payload id with
    | .stmt (.exit target _) =>
      if loops.isEmpty then some (.exitOutsideLoop, tree.range id)
      else
        match target with
        | some name =>
          if tree.namesLoop symbols loops name then none else some (.exitNotEnclosing, tree.range name)
        | none => none
    | _ => none

end Tree

namespace Parser

variable {parser : Parser} {brackets : List Bracket}

theorem namesEnclosingLoop_eq (h : parser.Inside brackets) (target : NodeId) :
    parser.namesEnclosingLoop target =
      parser.tree.namesLoop parser.symbols (Bracket.around brackets) target := by
  have hknown := h.linked.classify_of_some target
  unfold namesEnclosingLoop Tree.namesLoop
  generalize (parser.tree.payload target).classify = found at hknown
  obtain ⟨_ | label, kind⟩ := found
  · rfl
  · obtain ⟨entity, hentity, rfl⟩ : ∃ entity, parser.symbols.symbol? label = some entity ∧ kind = entity.kind :=
      hknown label rfl
    have henclosing := h.framed.enclosingLoop_some label
    simp only [hentity, Option.bind_some]
    split
    · rename_i heq
      obtain ⟨hlabel, hkind⟩ := Prod.mk.inj heq
      obtain rfl := Option.some.inj hlabel
      rw [Bool.eq_iff_iff, henclosing]
      simp [hentity, hkind]
    · rename_i hother
      have hkind : entity.kind ≠ .label := fun hkind => hother label (hkind ▸ rfl)
      simp [hkind]

theorem checkExit_faults {statement : NodeId} {target condition : Option NodeId}
    (h : parser.Inside brackets) (hpayload : parser.tree.payload statement = .stmt (.exit target condition)) :
    (parser.checkExit statement target).faults Code.isExitFault = parser.faults Code.isExitFault ++
      (parser.tree.exitFault parser.symbols (statement, Bracket.around brackets)).toList := by
  simp only [checkExit, Tree.exitFault, hpayload, h.framed.enclosingLoop_none, namesEnclosingLoop_eq h]
  cases Bracket.around brackets with
  | nil => exact faults_report _ _ _
  | cons loop loops =>
    cases target with
    | none => exact (List.append_nil _).symm
    | some name =>
      by_cases hnames : parser.tree.namesLoop parser.symbols (loop :: loops) name = true
      · simp [hnames]
      · simp only [hnames]
        exact faults_report _ _ _

end Parser

namespace Parser

theorem Linked.exitFault_eq {parser : Parser} (h : parser.Linked) {later : Tree} {table : SymbolTable} {id : NodeId}
    {target condition : Option NodeId} (loops : List NodeId)
    (hpayload : parser.tree.payload id = .stmt (.exit target condition))
    (hid : later.get? id = parser.tree.get? id)
    (htarget : ∀ name ∈ target, later.get? name = parser.tree.get? name)
    (htable : parser.symbols.symbols.toList <+: table.symbols.toList) :
    later.exitFault table (id, loops) = parser.tree.exitFault parser.symbols (id, loops) := by
  have hlater := (Tree.payload_congr hid).trans hpayload
  simp only [Tree.exitFault, hlater, hpayload, Tree.range_congr hid]
  cases target with
  | none => rfl
  | some name =>
    have hname := htarget name rfl
    have hsame : later.namesLoop table loops name = parser.tree.namesLoop parser.symbols loops name := by
      have hknown := h.classify_of_some name
      rw [Tree.namesLoop, Tree.payload_congr hname, Tree.namesLoop]
      cases hsymbol : (parser.tree.payload name).classify.1 with
      | none => rfl
      | some label =>
        obtain ⟨entity, hentity, -⟩ := hknown label hsymbol
        simp only [Option.bind_some, hentity, SymbolTable.symbol?_of_isPrefix htable hentity]
    simp only [hsame, Tree.range_congr hname]

end Parser

namespace Course

variable {base parser : Parser} {yield : Yield} {nodes : List NodeId} {brackets : List Bracket}

theorem cast {later : Tree} (h : Course base parser yield nodes) (hbase : base.Inside brackets)
    (hnodes : ∀ id ∈ nodes, later.get? id = parser.tree.get? id) :
    ∃ checks, later.Cast yield.pieces nodes checks := by
  obtain ⟨checks, hchecked⟩ := h.checked hbase.proper hbase.ordered hbase.linked
  exact ⟨checks, hchecked.cast.transfer hnodes⟩

theorem exitsOf_fold {later : Tree} {payload : Payload Nat} {node : NodeId} {role : Role} {range : Range}
    (h : Course base parser yield nodes) (hbase : base.Inside brackets)
    (hnodes : ∀ id ∈ nodes, later.get? id = parser.tree.get? id) (hfits : payload.Fits yield node role)
    (hnode : later.get? node = some ⟨range, payload.map parser.place⟩) (height : Nat) (around : List NodeId) :
    later.exitsOf (height + 1) around ⟨node, role⟩ =
      (if payload.isExit then [(node, role.loops around)] else []) ++
        yield.pieces.flatMap (later.exitsOf height around) := by
  obtain ⟨checks, hcast⟩ := h.cast hbase hnodes
  rw [hfits.pieces, ← Payload.pieces_map parser.place] at hcast ⊢
  have hadmits := (payload.admits_map parser.place role).trans hfits.admits
  rw [hcast.exits_parent hnode hadmits hfits.fresh, Payload.isExit_map]

theorem exits_of_silent {later : Tree} {height : Nat} (h : Course base parser yield nodes)
    (hbase : base.Inside brackets) (hnodes : ∀ id ∈ nodes, later.get? id = parser.tree.get? id)
    (hsilent : yield.silent = true) (hheight : nodes.length ≤ height) :
    yield.pieces.flatMap (later.exitsOf height (Bracket.around brackets)) = [] := by
  obtain ⟨checks, hcast⟩ := h.cast hbase hnodes
  refine hcast.exits_eq_nil hheight fun id hid => ?_
  have hexpression := h.expressions_of_silent hbase.proper hsilent id hid
  rw [Tree.payload_congr (hnodes id hid)]
  generalize parser.tree.payload id = payload at hexpression
  cases payload <;> first | rfl | cases hexpression

theorem exit_fault {later : Tree} {table : SymbolTable} {target condition : Option NodeId}
    (h : Course base parser yield nodes) (hbase : base.Inside brackets)
    (hfits : (Payload.stmt (.exit target condition)).Fits yield ⟨parser.tree.size⟩ (.statement []))
    (hopened : yield.opened = [])
    (hnodes : ∀ id ∈ (⟨parser.tree.size⟩ :: nodes : List NodeId),
      later.get? id = (parser.added base.position (.stmt (.exit target condition))).tree.get? id)
    (htable : parser.symbols.symbols.toList <+: table.symbols.toList) :
    ((parser.added base.position (.stmt (.exit target condition))).checkExit ⟨parser.tree.size⟩ target).faults
        Code.isExitFault =
      parser.faults Code.isExitFault ++
        (later.exitFault table (⟨parser.tree.size⟩, Bracket.around brackets)).toList := by
  let added := parser.added base.position (.stmt (.exit target condition))
  have hinside : added.Inside brackets := by
    have hinside := h.inside hbase
    rw [hopened] at hinside
    exact hinside.added _ rfl
  have hself : added.tree.get? ⟨parser.tree.size⟩ = some ⟨_, .stmt (.exit target condition)⟩ :=
    parser.tree.get?_add_self _ _
  have hpayload := Tree.payload_of_get? hself
  obtain ⟨hnode, hbelow⟩ := List.forall_mem_cons.mp hnodes
  obtain ⟨checks, hcast⟩ : ∃ checks, parser.tree.Cast yield.pieces nodes checks :=
    h.cast hbase fun _ _ => rfl
  have htarget : ∀ name ∈ target, later.get? name = added.tree.get? name := fun name hname => by
    have hpiece : (⟨name, .expression⟩ : Piece) ∈ yield.pieces := by
      simp [hfits.pieces, Piece.mem_many, Option.mem_def.mp hname]
    exact hbelow name (hcast.mem_nodes hpiece)
  rw [hinside.linked.exitFault_eq _ hpayload hnode htarget htable]
  exact Parser.checkExit_faults hinside hpayload

theorem exit_faults {later : Tree} {table : SymbolTable} {height : Nat} (h : Course base parser yield nodes)
    (hbase : base.Inside brackets) (hnodes : ∀ id ∈ nodes, later.get? id = parser.tree.get? id)
    (htable : parser.symbols.symbols.toList <+: table.symbols.toList) (hheight : nodes.length ≤ height) :
    parser.faults Code.isExitFault = base.faults Code.isExitFault ++
      (yield.pieces.flatMap (later.exitsOf height (Bracket.around brackets))).filterMap
        (later.exitFault table) := by
  induction h generalizing brackets height with
  | refl => exact (List.append_nil _).symm
  | @append base middle parser yield yield' nodes nodes' h h' ih ih' =>
    have hbuilt := h.built hbase.proper
    have hbuilt' := h'.built hbuilt.proper
    rw [List.length_append] at hheight
    have hfirst := ih hbase
      (fun id hid => (hnodes id (List.mem_append_left _ hid)).trans
        (Tree.get?_of_isPrefix hbuilt'.reverts.nodes (hbuilt.lt_of_mem hid).2))
      (hbuilt'.reverts.symbols.symbols.trans htable) (Nat.le_trans (Nat.le_add_right _ _) hheight)
    have hsecond := ih' (h.inside hbase) (fun id hid => hnodes id (List.mem_append_right _ hid)) htable
      (Nat.le_trans (Nat.le_add_left _ _) hheight)
    rw [hsecond, hfirst, Yield.append_pieces, List.flatMap_append, List.filterMap_append,
      Tree.flatMap_within, Bracket.around_append, List.append_assoc]
  | nested _ ih => exact ih hbase.deeper hnodes htable hheight
  | listed _ ih => exact ih (hbase.pushContext _) hnodes htable hheight
  | resume _ hlater ih =>
    obtain ⟨next, furthest, -, rfl⟩ := hlater
    exact ih hbase hnodes htable hheight
  | @weaken base parser yield yield' nodes h hyield ih =>
    obtain ⟨checks, hcast⟩ := h.cast hbase hnodes
    rw [ih hbase hnodes htable hheight]
    have hpieces := hyield.pieces
    revert hpieces hcast
    generalize yield.pieces = pieces
    generalize yield'.pieces = pieces'
    rintro hcast (_ | hserves)
    · rfl
    · rw [List.flatMap_singleton, List.flatMap_singleton, hcast.exits_serve hserves]
  | advance _ _ ih => exact ih hbase hnodes htable hheight
  | @report _ _ _ _ diagnostic _ hcode ih =>
    have hother : diagnostic.code.isExitFault = false := by
      cases hcode' : diagnostic.code <;> rw [hcode'] at hcode <;> first | rfl | cases hcode
    exact (Parser.faults_report_of_not hother).trans (ih hbase hnodes htable hheight)
  | @declared _ parser _ _ id declared _ _ _ ih =>
    have hreports := parser.reportDeclared_reports id declared
    rw [hreports.tree_eq] at hnodes
    rw [hreports.symbols_eq] at htable
    rcases parser.reportDeclared_eq id declared with heq | ⟨diagnostic, symbol, hcode, -, -, heq⟩ <;> rw [heq]
    · exact ih hbase hnodes htable hheight
    · exact (Parser.faults_report_of_not (by rw [hcode]; rfl)).trans (ih hbase hnodes htable hheight)
  | @mark _ parser node _ _ ih =>
    rw [(parser.checkMark_reports node).tree_eq] at hnodes
    rw [(parser.checkMark_reports node).symbols_eq] at htable
    exact (Parser.checkMark_faults_of_not Code.isExitFault_of_isMarkFault node).trans
      (ih hbase hnodes htable hheight)
  | bounds _ _ ih => exact ih hbase hnodes htable hheight
  | @packages _ parser _ packages _ ih =>
    obtain ⟨htree, hsymbols⟩ := parser.usePackages_same packages
    rw [htree] at hnodes
    rw [hsymbols] at htable
    refine (Parser.usePackages_faults_of_not rfl packages).trans ((ih hbase hnodes htable hheight).trans ?_)
    rw [Yield.expressions, Yield.many, Yield.many, Tree.flatMap_many, Tree.flatMap_many]
    rfl
  | @add base parser yield nodes payload role cursor h hfits hexit _ _ _ ih =>
    obtain ⟨hnode, hbelow⟩ := List.forall_mem_cons.mp hnodes
    have hnodes : ∀ id ∈ nodes, later.get? id = parser.tree.get? id := fun id hid =>
      (hbelow id hid).trans (parser.tree.get?_add_of_lt _ _ ((h.built hbase.proper).lt_of_mem hid).2)
    obtain _ | height := height
    · cases hheight
    have hfold := h.exitsOf_fold hbase hnodes hfits (hnode.trans (parser.tree.get?_add_self _ _)) height
      (Bracket.around brackets)
    rw [hexit, if_neg Bool.false_ne_true, List.nil_append] at hfold
    rw [Yield.fold, List.flatMap_singleton, hfold]
    exact ih hbase hnodes htable (Nat.le_of_succ_le_succ hheight)
  | @exit base parser yield nodes target condition h hfits hopened hsilent _ ih =>
    have hreports := (parser.added base.position (.stmt (.exit target condition))).checkExit_reports
      ⟨parser.tree.size⟩ target
    rw [hreports.tree_eq] at hnodes
    rw [hreports.symbols_eq] at htable
    have hcheck := h.exit_fault hbase hfits hopened hnodes htable
    obtain ⟨hnode, hbelow⟩ := List.forall_mem_cons.mp hnodes
    have hnodes : ∀ id ∈ nodes, later.get? id = parser.tree.get? id := fun id hid =>
      (hbelow id hid).trans (parser.tree.get?_add_of_lt _ _ ((h.built hbase.proper).lt_of_mem hid).2)
    obtain _ | height := height
    · cases hheight
    have hheight := Nat.le_of_succ_le_succ hheight
    have hnone := h.exits_of_silent hbase hnodes hsilent hheight
    have hbefore := ih hbase hnodes htable hheight
    rw [hnone, List.filterMap_nil, List.append_nil] at hbefore
    have hfold := h.exitsOf_fold hbase hnodes hfits (hnode.trans (parser.tree.get?_add_self _ _)) height
      (Bracket.around brackets)
    have hself : later.exitsOf (height + 1) (Bracket.around brackets) ⟨⟨parser.tree.size⟩, .statement []⟩ =
        [(⟨parser.tree.size⟩, Bracket.around brackets)] := by
      rw [hfold, hnone]
      rfl
    rw [hcheck, hbefore, Yield.fold, List.flatMap_singleton, hself]
    refine congrArg (base.faults Code.isExitFault ++ ·) ?_
    rw [List.filterMap_cons]
    cases later.exitFault table (⟨parser.tree.size⟩, Bracket.around brackets) <;> rfl
  | @reserve base parser _ nodes h ih =>
    have hnodes : ∀ id ∈ nodes, later.get? id = parser.tree.get? id := fun id hid =>
      (hnodes id hid).trans (parser.tree.get?_add_of_lt _ _ ((h.built hbase.proper).lt_of_mem hid).2)
    exact ih hbase hnodes htable hheight
  | @fill base parser yield nodes hole payload role h hholes _ hfits hcompletes _ ih =>
    have hbuilt := h.built hbase.proper
    have hlt := (hbuilt.lt_of_hole (hholes ▸ List.mem_singleton_self _)).2
    obtain ⟨hnode, hbelow⟩ := List.forall_mem_cons.mp hnodes
    have hnodes : ∀ id ∈ nodes, later.get? id = parser.tree.get? id := fun id hid =>
      (hbelow id hid).trans (Tree.get?_replace_of_ne _ fun heq => hbuilt.hole_notMem hholes (heq ▸ hid))
    obtain _ | height := height
    · cases hheight
    have hfold := h.exitsOf_fold hbase hnodes hfits (hnode.trans (Tree.get?_replace_self _ hlt)) height
      (Bracket.around brackets)
    rw [hcompletes.isExit, if_neg Bool.false_ne_true, List.nil_append] at hfold
    rw [Yield.fold, List.flatMap_singleton, hfold]
    exact ih hbase hnodes htable (Nat.le_of_succ_le_succ hheight)
  | @change _ _ _ _ _ change h hchange ih =>
    have hreverts := SymbolTable.change_revertsTo (h.built hbase.proper).proper change
    have hbefore := ih hbase hnodes (hreverts.symbols.trans htable) hheight
    cases hchange <;> exact hbefore

end Course

namespace Parser

theorem new_inside {cursor : Cursor} (options : Options) (hordered : Token.Ordered cursor.tokens.toList) :
    (Parser.new cursor options).Inside [.body] where
  proper := (Parser.Reachable.new cursor options).proper
  ordered := hordered
  linked := new_linked
  framed := by
    have hframes : (Parser.new cursor options).symbols.frames = SymbolTable.empty.frames := by
      rcases new_symbols cursor options with heq | heq <;> rw [heq]
      exact SymbolTable.empty.frames_addPredefined
    rw [SymbolTable.Framed, hframes]
    exact .cons rfl .nil
  loops := by simp

theorem compile_exits {cursor : Cursor} {options : Options} {compilation : Compilation}
    {lexical : List Diagnostic} (h : (Parser.new cursor options).compile lexical = .ok compilation)
    (hordered : Token.Ordered cursor.tokens.toList) :
    let exits := compilation.tree.exits compilation.tree.size [] compilation.root
    exits.map Prod.fst =
        (compilation.tree.preorder compilation.root).toList.filter (compilation.tree.payload · |>.isExit) ∧
      Diagnostic.faults Code.isExitFault compilation.diagnostics =
        Diagnostic.faults Code.isExitFault lexical ++
          exits.filterMap (compilation.tree.exitFault compilation.symbols) := by
  obtain ⟨units, later, nodes, hcourse, rfl⟩ := compile_course h
  have hinside := new_inside options hordered
  have hbuilt := hcourse.built hinside.proper
  obtain ⟨node, hrooted⟩ := complete_rooted lexical hbuilt
  have hsame : ∀ id ∈ nodes, (later.complete lexical units).tree.get? id = later.tree.get? id := fun id hid =>
    later.tree.get?_add_of_lt _ _ (hbuilt.lt_of_mem hid).2
  have hsize : (later.complete lexical units).tree.size = nodes.length + 1 := by
    have hlength := hrooted.listed.length_eq
    simp only [nodesBetween, List.length_map, List.length_range', List.length_cons] at hlength
    omega
  obtain ⟨checks, hcast⟩ := hcourse.cast hinside hsame
  have hnode : (later.complete lexical units).tree.get? (later.complete lexical units).root =
      some ⟨later.rangeFrom 0, .unit (.compilation units later.symbols.librarySymbols)⟩ :=
    later.tree.get?_add_self _ _
  have hroot : (later.complete lexical units).tree.Cast [⟨(later.complete lexical units).root, .declaration⟩]
      ((later.complete lexical units).root :: nodes) _ := hcast.parent hnode rfl
  rw [hrooted.preorder_eq, hsize]
  constructor
  · have hnodes := hroot.exits_nodes (Nat.le_refl _) fun _ => []
    rwa [List.flatMap_singleton] at hnodes
  · have hbelow : (later.complete lexical units).tree.exits (nodes.length + 1) []
        (later.complete lexical units).root = _ :=
      @Tree.Cast.exits_parent _ _ _ _ .declaration _ _ [] hnode hcast rfl rfl
    have hfaults : later.faults Code.isExitFault = _ :=
      hcourse.exit_faults hinside hsame (@List.prefix_rfl _ later.symbols.symbols.toList) (Nat.le_refl _)
    rw [complete_faults, hfaults, hbelow]
    rfl

end Parser

namespace Compilation

/-- The reports on exit statements are those that the tree calls for, in the order of its exit statements. -/
theorem exit_faults_eq {options : Options} {source : String} {compilation : Compilation}
    (h : ofSource source options = .ok compilation) :
    let exits := compilation.tree.exits compilation.tree.size [] compilation.root
    exits.map Prod.fst =
        (compilation.tree.preorder compilation.root).toList.filter (compilation.tree.payload · |>.isExit) ∧
      Diagnostic.faults Code.isExitFault compilation.diagnostics =
        exits.filterMap (compilation.tree.exitFault compilation.symbols) := by
  obtain ⟨hexits, hfaults⟩ := Parser.compile_exits h (Token.wellFormed_ordered source)
  rw [Token.defects_faults Code.isChecked_of_isExitFault, List.nil_append] at hfaults
  exact ⟨hexits, hfaults⟩

theorem exit_faults_eq_nested :
    ∃ compilation, ofSource
        "procedure P is begin A: loop B: loop exit A; exit P; end loop B; end loop A; exit; end P;"
        { predefined := false } = .ok compilation ∧
      let exits := compilation.tree.exits compilation.tree.size [] compilation.root
      exits.map Prod.fst =
          (compilation.tree.preorder compilation.root).toList.filter (compilation.tree.payload · |>.isExit) ∧
        Diagnostic.faults Code.isExitFault compilation.diagnostics =
          exits.filterMap (compilation.tree.exitFault compilation.symbols) := by
  obtain ⟨compilation, h⟩ := exists_of_isOk
    (show (ofSource
      "procedure P is begin A: loop B: loop exit A; exit P; end loop B; end loop A; exit; end P;"
      { predefined := false }).isOk = true by decide +kernel)
  exact ⟨compilation, h, exit_faults_eq h⟩

end Compilation

end AdaSyntax
