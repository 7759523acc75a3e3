import AdaSyntax.Proofs.Tree.Growth
import AdaSyntax.Proofs.Tree.Piece

namespace AdaSyntax

def Piece.checks {ρ : Type} (payload : Payload ρ) : Piece → List Piece
  | ⟨node, .mark⟩ => [⟨node, .mark⟩]
  | ⟨node, .tested⟩ => if payload.isSimpleName then [⟨node, .mark⟩] else []
  | ⟨node, .package⟩ => [⟨node, .package⟩]
  | _ => []

namespace Tree

inductive Cast (tree : Tree) : List Piece → List NodeId → List Piece → Prop where
  | nil : Cast tree [] [] []
  | cons {node : NodeId} {role : Role} {entry : Node} {rest checks checks' : List Piece}
      {below beyond : List NodeId} (hentry : tree.get? node = some entry)
      (hadmits : role.admits entry.payload = true)
      (hbelow : Cast tree (entry.payload.pieces node role) below checks)
      (hbeyond : Cast tree rest beyond checks') :
      Cast tree (⟨node, role⟩ :: rest) (node :: (below ++ beyond))
        (Piece.checks entry.payload ⟨node, role⟩ ++ (checks ++ checks'))

end Tree

namespace Role

theorem pieces_congr {ρ : Type} (role role' : Role) (payload : Payload ρ) (node : NodeId)
    (hmark : role'.ofMark = role.ofMark) (hbase : role'.ofPrefix = role.ofPrefix) :
    payload.pieces node role' = payload.pieces node role := by
  cases payload with
  | expr part => cases part <;> simp [hmark]
  | name part => cases part <;> simp [hbase]
  | _ => rfl

end Role

theorem Payload.role_ne_package {ρ : Type} (payload : Payload ρ) (node : NodeId) (role : Role)
    (h : payload.isExpression = true) : ∀ piece ∈ payload.pieces node role, piece.role ≠ .package := by
  have hmark : role.ofMark ≠ .package := by cases role <;> nofun
  have hbase : role.ofPrefix ≠ .package := by cases role <;> nofun
  cases payload with
  | type part => cases part <;> simp +contextual [Piece.mem_many, or_imp]
  | expr part => cases part <;> simp +contextual [Piece.mem_many, or_imp, hmark]
  | name part => cases part <;> simp +contextual [Piece.mem_many, or_imp, hbase]
  | _ => cases h

namespace Tree.Cast

variable {tree later : Tree} {pieces pieces' checks checks' : List Piece} {nodes nodes' : List NodeId}
variable {node : NodeId} {role role' : Role}

theorem transfer (h : tree.Cast pieces nodes checks) (hsame : ∀ id ∈ nodes, later.get? id = tree.get? id) :
    later.Cast pieces nodes checks := by
  induction h with
  | nil => exact .nil
  | cons hentry hadmits _ _ ihbelow ihbeyond =>
    refine .cons ((hsame _ List.mem_cons_self).trans hentry) hadmits (ihbelow ?_) (ihbeyond ?_)
    · exact fun id hid => hsame id (List.mem_cons_of_mem _ (List.mem_append_left _ hid))
    · exact fun id hid => hsame id (List.mem_cons_of_mem _ (List.mem_append_right _ hid))

theorem append (h : tree.Cast pieces nodes checks) (h' : tree.Cast pieces' nodes' checks') :
    tree.Cast (pieces ++ pieces') (nodes ++ nodes') (checks ++ checks') := by
  induction h with
  | nil => exact h'
  | cons hentry hadmits hbelow _ _ ihbeyond =>
    simp only [List.cons_append, List.append_assoc]
    exact .cons hentry hadmits hbelow ihbeyond

theorem parent {entry : Node} (h : tree.Cast (entry.payload.pieces node role) nodes checks)
    (hentry : tree.get? node = some entry) (hadmits : role.admits entry.payload = true) :
    tree.Cast [⟨node, role⟩] (node :: nodes) (Piece.checks entry.payload ⟨node, role⟩ ++ checks) := by
  have h := Cast.cons hentry hadmits h .nil
  rwa [List.append_nil, List.append_nil] at h

theorem single (h : tree.Cast [⟨node, role⟩] nodes checks) : ∃ entry below checks',
    tree.get? node = some entry ∧ role.admits entry.payload = true ∧
      tree.Cast (entry.payload.pieces node role) below checks' ∧ nodes = node :: below ∧
      checks = Piece.checks entry.payload ⟨node, role⟩ ++ checks' := by
  cases h with
  | cons hentry hadmits hbelow hbeyond =>
    cases hbeyond
    exact ⟨_, _, _, hentry, hadmits, hbelow, by simp, by simp⟩

theorem mem_nodes (h : tree.Cast pieces nodes checks) {piece : Piece} (hpiece : piece ∈ pieces) :
    piece.node ∈ nodes := by
  induction h with
  | nil => cases hpiece
  | cons _ _ _ _ _ ihbeyond =>
    rcases List.mem_cons.mp hpiece with rfl | hpiece
    · exact List.mem_cons_self
    · exact List.mem_cons_of_mem _ (List.mem_append_right _ (ihbeyond hpiece))

theorem recast (h : tree.Cast [⟨node, role⟩] nodes checks)
    (halike : ∀ payload : Payload Range, role.admits payload = true → role'.admits payload = true ∧
      payload.pieces node role' = payload.pieces node role ∧
      Piece.checks payload ⟨node, role'⟩ = Piece.checks payload ⟨node, role⟩) :
    tree.Cast [⟨node, role'⟩] nodes checks := by
  obtain ⟨entry, below, checks', hentry, hadmits, hbelow, rfl, rfl⟩ := h.single
  obtain ⟨hadmits', hpieces, hchecks⟩ := halike entry.payload hadmits
  rw [← hchecks]
  exact parent (hpieces ▸ hbelow) hentry hadmits'

theorem unname (names : List NodeId) (h : tree.Cast (Piece.many .name names) nodes checks) :
    checks = [] ∧ tree.Cast (Piece.many .expression names) nodes [] := by
  generalize hpieces : Piece.many .name names = pieces at h
  induction h generalizing names with
  | nil =>
    obtain rfl : names = [] := by simpa [Piece.many] using hpieces.symm
    exact ⟨rfl, .nil⟩
  | @cons node role entry rest checks checks' below beyond hentry hadmits _ _ ihbelow ihbeyond =>
    obtain _ | ⟨name, names⟩ := names
    · cases hpieces
    obtain ⟨⟨rfl, rfl⟩, rfl⟩ : (name = node ∧ .name = role) ∧ Piece.many .name names = rest := by
      simpa using hpieces
    obtain ⟨rfl, hbeyond⟩ := ihbeyond names rfl
    obtain ⟨range, payload⟩ := entry
    have hbelow : checks = [] ∧ tree.Cast (payload.pieces name .expression) below [] := by
      cases payload with
      | name use =>
        cases use with
        | identifier => exact ihbelow [] rfl
        | selected base => exact ihbelow [base] rfl
        | _ => cases hadmits
      | _ => cases hadmits
    obtain ⟨rfl, hbelow⟩ := hbelow
    have hexpression := payload.isExpression_of_isSimpleName hadmits
    exact ⟨rfl, @Cast.cons _ _ .expression _ _ _ _ _ _ hentry hexpression hbelow hbeyond⟩

theorem serve (h : tree.Cast [⟨node, role⟩] nodes checks) (hserves : role.Serves role') :
    tree.Cast [⟨node, role'⟩] nodes checks := by
  have hadmits : ∀ payload : Payload Range, role.admits payload = true → role'.admits payload = true :=
    fun _ => Role.admits_of_serves hserves
  cases hserves with
  | refl => exact h
  | name =>
    obtain ⟨rfl, hname⟩ := h.unname [node]
    exact hname
  | testedMark =>
    refine h.recast fun payload hmark => ⟨hadmits _ hmark, Role.pieces_congr _ _ _ _ rfl rfl, ?_⟩
    exact if_pos (show payload.isSimpleName = true from hmark)
  | testedBounds =>
    refine h.recast fun payload hbounds => ⟨hadmits _ hbounds, Role.pieces_congr _ _ _ _ rfl rfl, ?_⟩
    exact if_neg (by simpa using (Bool.and_eq_true_iff.mp hbounds).2)
  | allocatedIndication =>
    refine h.recast fun payload hindication => ⟨hadmits _ hindication, ?_, rfl⟩
    -- an indication is no qualified expression, whose mark would have been checked
    cases payload with
    | expr part => cases part <;> first | rfl | cases hindication
    | _ => rfl
  | _ => exact h.recast fun payload hrole => ⟨hadmits _ hrole, Role.pieces_congr _ _ _ _ rfl rfl, rfl⟩

theorem within (h : tree.Cast pieces nodes checks) (outer : List Bracket) :
    tree.Cast (pieces.map (Piece.within outer)) nodes checks := by
  induction h with
  | nil => exact .nil
  | @cons node role entry _ _ _ _ _ hentry hadmits hbelow _ _ ihbeyond =>
    cases role with
    | statement => exact .cons hentry hadmits hbelow ihbeyond
    | _ => exact .cons hentry hadmits hbelow ihbeyond

theorem mark (h : tree.Cast [⟨node, .name⟩] nodes checks) :
    checks = [] ∧ tree.Cast [⟨node, .mark⟩] nodes [⟨node, .mark⟩] := by
  obtain ⟨hnone, hname⟩ := h.unname [node]
  obtain ⟨entry, below, checks', hentry, -, hbelow, rfl, hchecks⟩ := hname.single
  obtain ⟨entry', -, -, hentry', hadmits, -⟩ := h.single
  obtain rfl := Option.some.inj (hentry.symm.trans hentry')
  obtain rfl : [] = checks' := hchecks
  rw [← Role.pieces_congr .expression .mark entry.payload node rfl rfl] at hbelow
  exact ⟨hnone, parent hbelow hentry hadmits⟩

theorem bounds (h : tree.Cast [⟨node, .expression⟩] nodes checks)
    (hname : (tree.payload node).isSimpleName = false) : tree.Cast [⟨node, .bounds⟩] nodes checks := by
  obtain ⟨entry, below, checks', hentry, hadmits, hbelow, rfl, rfl⟩ := h.single
  rw [payload_of_get? hentry] at hname
  rw [← Role.pieces_congr .expression .bounds entry.payload node rfl rfl] at hbelow
  exact parent hbelow hentry (by simpa [Role.admits, hname] using hadmits)

theorem mark_of_expressions (h : tree.Cast pieces nodes checks)
    (hpieces : ∀ piece ∈ pieces, piece.role ≠ .package)
    (hnodes : ∀ id ∈ nodes, (tree.payload id).isExpression = true) : ∀ check ∈ checks, check.role = .mark := by
  induction h with
  | nil => nofun
  | @cons node role entry rest checks checks' below beyond hentry _ _ _ ihbelow ihbeyond =>
    obtain ⟨hpiece, hrest⟩ := List.forall_mem_cons.mp hpieces
    obtain ⟨hnode, hothers⟩ := List.forall_mem_cons.mp hnodes
    rw [payload_of_get? hentry] at hnode
    have hown : ∀ check ∈ Piece.checks entry.payload ⟨node, role⟩, check.role = .mark := by
      cases role <;> simp [Piece.checks] at hpiece ⊢
    have hchildren := entry.payload.role_ne_package node role hnode
    intro check hcheck
    rcases List.mem_append.mp hcheck with hcheck | hcheck
    · exact hown check hcheck
    · rcases List.mem_append.mp hcheck with hcheck | hcheck
      · exact ihbelow hchildren (fun id hid => hothers id (List.mem_append_left _ hid)) check hcheck
      · exact ihbeyond hrest (fun id hid => hothers id (List.mem_append_right _ hid)) check hcheck

theorem packages {packages : List NodeId} (h : tree.Cast (Piece.many .expression packages) nodes checks)
    (hchecks : ∀ check ∈ checks, check.role = .mark) :
    ∃ checks', tree.Cast (Piece.many .package packages) nodes checks' ∧
      checks'.filter (·.role = .mark) = checks ∧
        checks'.filter (·.role = .package) = Piece.many .package packages := by
  generalize hpieces : Piece.many .expression packages = pieces at h
  induction h generalizing packages with
  | nil =>
    obtain rfl : packages = [] := by simpa [Piece.many] using hpieces
    exact ⟨[], .nil, rfl, rfl⟩
  | @cons node role entry rest below_checks checks' below beyond hentry hadmits hbelow _ _ ih =>
    obtain _ | ⟨package, packages⟩ := packages
    · cases hpieces
    obtain ⟨⟨rfl, rfl⟩, rfl⟩ : (package = node ∧ .expression = role) ∧ Piece.many .expression packages = rest := by
      simpa using hpieces
    have hown : Piece.checks entry.payload ⟨package, .expression⟩ = [] := rfl
    rw [hown, List.nil_append] at hchecks ⊢
    obtain ⟨hinside, hbehind⟩ := List.forall_mem_append.mp hchecks
    obtain ⟨checks'', hcast, hmarks, hpackages⟩ := ih hbehind rfl
    rw [Role.pieces_congr .package .expression entry.payload package rfl rfl] at hbelow
    refine ⟨_, .cons hentry hadmits hbelow hcast, ?_, ?_⟩
    · have hself : below_checks.filter (·.role = .mark) = below_checks := by simpa using hinside
      simp [Piece.checks, hself, hmarks]
    · have hself : below_checks.filter (·.role = .package) = [] := by
        simp +contextual [hinside]
      simp [Piece.checks, hself, hpackages]

end Tree.Cast

end AdaSyntax
