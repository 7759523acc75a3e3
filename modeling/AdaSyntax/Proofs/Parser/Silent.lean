import AdaSyntax.Proofs.Parser.Built

namespace AdaSyntax

namespace Parser

theorem Reports.symbols_eq {earlier later : Parser} (h : later.Reports earlier) :
    later.symbols = earlier.symbols := by
  rcases h with rfl | ⟨diagnostic, rfl⟩ <;> rfl

theorem Reports.tree_eq {earlier later : Parser} (h : later.Reports earlier) : later.tree = earlier.tree := by
  rcases h with rfl | ⟨diagnostic, rfl⟩ <;> rfl

theorem usePackages_same (parser : Parser) (packages : List NodeId) :
    (parser.usePackages packages).tree = parser.tree ∧
      (parser.usePackages packages).symbols.symbols = parser.symbols.symbols := by
  induction packages generalizing parser with
  | nil => exact ⟨rfl, rfl⟩
  | cons package packages ih =>
    obtain ⟨htree, hsymbols⟩ := ih (parser.usePackage package)
    have hone : (parser.usePackage package).tree = parser.tree ∧
        (parser.usePackage package).symbols.symbols = parser.symbols.symbols := by
      unfold usePackage
      split
      · exact ⟨rfl, rfl⟩
      · exact ⟨rfl, rfl⟩
      · have hreports := parser.find_reports (.notAPackage package (parser.tree.payload package).classify.2)
        exact ⟨hreports.tree_eq, congrArg SymbolTable.symbols hreports.symbols_eq⟩
    exact ⟨htree.trans hone.1, hsymbols.trans hone.2⟩

end Parser

namespace Course

variable {base parser : Parser} {yield : Yield} {nodes : List NodeId}

theorem symbols_of_silent (h : Course base parser yield nodes) (hsilent : yield.silent = true) :
    parser.symbols.symbols = base.symbols.symbols := by
  induction h with
  | refl => rfl
  | append _ _ ih ih' =>
    obtain ⟨hfirst, hsecond⟩ := Bool.and_eq_true_iff.mp hsilent
    exact (ih' hsecond).trans (ih hfirst)
  | nested _ ih => exact ih hsilent
  | listed _ ih => exact ih hsilent
  | resume _ hlater ih =>
    obtain ⟨next, furthest, -, rfl⟩ := hlater
    exact ih hsilent
  | weaken _ hyield ih => exact ih (hyield.silent hsilent)
  | advance _ _ ih => exact ih hsilent
  | report _ _ ih => exact ih hsilent
  | declared _ _ hloud => simp [hloud] at hsilent
  | @mark _ parser node _ _ ih =>
    exact (congrArg SymbolTable.symbols (parser.checkMark_reports node).symbols_eq).trans (ih rfl)
  | bounds _ _ ih => exact ih rfl
  | @packages _ parser _ packages _ ih => exact (parser.usePackages_same packages).2.trans (ih rfl)
  | add _ _ _ _ _ _ ih => exact ih (Bool.and_eq_true_iff.mp hsilent).1
  | exit => cases (Bool.and_eq_true_iff.mp hsilent).2
  | reserve => cases hsilent
  | fill _ _ _ _ _ _ ih => exact ih (Bool.and_eq_true_iff.mp hsilent).1
  | change _ hchange ih =>
    cases hchange with
    | declare | label | parameter | bind | file | openRegion | openLoop => cases hsilent
    | _ => exact (SymbolTable.change_symbols _ rfl).trans (ih hsilent)

theorem expressions_of_silent (h : Course base parser yield nodes) (hproper : base.symbols.Proper)
    (hsilent : yield.silent = true) : ∀ id ∈ nodes, (parser.tree.payload id).isExpression = true := by
  induction h with
  | refl => nofun
  | @append _ middle parser _ _ _ _ h h' ih ih' =>
    have hbuilt := h.built hproper
    have hbuilt' := h'.built hbuilt.proper
    obtain ⟨hfirst, hsecond⟩ := Bool.and_eq_true_iff.mp hsilent
    intro id hid
    rcases List.mem_append.mp hid with hid | hid
    · have hsame := Tree.get?_of_isPrefix hbuilt'.reverts.nodes (hbuilt.lt_of_mem hid).2
      rw [Tree.payload, hsame]
      exact ih hproper hfirst id hid
    · exact ih' hbuilt.proper hsecond id hid
  | nested _ ih => exact ih hproper hsilent
  | listed _ ih => exact ih hproper hsilent
  | resume _ hlater ih =>
    obtain ⟨next, furthest, -, rfl⟩ := hlater
    exact ih hproper hsilent
  | weaken _ hyield ih => exact ih hproper (hyield.silent hsilent)
  | advance _ _ ih => exact ih hproper hsilent
  | report _ _ ih => exact ih hproper hsilent
  | declared _ _ hloud => simp [hloud] at hsilent
  | @mark _ parser node _ _ ih => exact (parser.checkMark_reports node).tree_eq ▸ ih hproper rfl
  | bounds _ _ ih => exact ih hproper rfl
  | @packages _ parser _ packages _ ih => exact (parser.usePackages_same packages).1 ▸ ih hproper rfl
  | exit => cases (Bool.and_eq_true_iff.mp hsilent).2
  | @add _ parser _ _ payload role _ h hfits _ _ _ _ ih =>
    obtain ⟨hbefore, hrole⟩ := Bool.and_eq_true_iff.mp hsilent
    intro id hid
    change (((parser.tree.add _ _).2.payload id).isExpression = true)
    rcases List.mem_cons.mp hid with rfl | hid
    · rw [Tree.payload_of_get? (parser.tree.get?_add_self _ _), Payload.isExpression_map]
      exact Role.admits_expression hfits.admits hrole
    · have hlt := ((h.built hproper).lt_of_mem hid).2
      rw [Tree.payload_congr (parser.tree.get?_add_of_lt _ _ hlt)]
      exact ih hproper hbefore id hid
  | reserve => cases hsilent
  | @fill _ parser _ _ hole payload role h hholes _ hfits _ _ ih =>
    obtain ⟨hbefore, hrole⟩ := Bool.and_eq_true_iff.mp hsilent
    have hbuilt := h.built hproper
    have hlt := (hbuilt.lt_of_hole (hholes ▸ List.mem_singleton_self _)).2
    intro id hid
    rcases List.mem_cons.mp hid with rfl | hid
    · rw [Tree.payload_of_get? (Tree.get?_replace_self _ hlt), Payload.isExpression_map]
      exact Role.admits_expression hfits.admits hrole
    · have hne : id ≠ hole.node := fun heq => hbuilt.hole_notMem hholes (heq ▸ hid)
      rw [Tree.payload_congr (Tree.get?_replace_of_ne _ hne)]
      exact ih hproper hbefore id hid
  | change _ hchange ih =>
    cases hchange with
    | declare | label | parameter | bind | file | openRegion | openLoop => cases hsilent
    | _ => exact ih hproper hsilent

end Course

end AdaSyntax
