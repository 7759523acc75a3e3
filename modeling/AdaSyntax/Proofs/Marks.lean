import AdaSyntax.Proofs.Parser.Checked
import AdaSyntax.Proofs.References

/-!
The reports on type marks and use clauses, as the finished tree shows them. A traversal from the root meets
the type marks, and among them those that are not declared or denote no type, in the order in which they
were reported; and likewise the names in use clauses that denote no package.
-/

namespace AdaSyntax

namespace Tree

def qualifiedMark (tree : Tree) (id : NodeId) : List NodeId :=
  match tree.payload id with
  | .expr (.qualified mark _) => [mark]
  | _ => []

/-- The type marks that belong to a node. The mark of a qualified expression is one below an allocator
only, and the target of a membership test is one if it is a name. -/
def typeMarks (tree : Tree) (id : NodeId) : List NodeId :=
  match tree.payload id with
  | .type (.subtypeIndication mark _) | .type (.indexSubtype mark) => [mark]
  | .decl (.parameter _ _ mark _) | .decl (.discriminant _ mark _) | .decl (.formalObject _ _ mark _) => [mark]
  | .decl (.renames _ (.object mark) _) => [mark]
  | .decl (.subprogramSpec _ _ _ result) => result.toList
  | .expr (.allocator operand) => tree.qualifiedMark operand
  | .expr (.membership _ _ target) => if (tree.payload target).isSimpleName then [target] else []
  | _ => []

def usedPackages (tree : Tree) (id : NodeId) : List NodeId :=
  match tree.payload id with
  | .decl (.useClause packages) => packages
  | _ => []

def held (tree : Tree) (root : NodeId) (belonging : NodeId → List NodeId) : List NodeId :=
  let nodes := (tree.preorder root).toList
  nodes.filter fun id => nodes.any fun holder => (belonging holder).contains id

def marksOf (tree : Tree) : Piece → List NodeId
  | ⟨node, .mark⟩ => [node]
  | ⟨node, .tested⟩ => if (tree.payload node).isSimpleName then [node] else []
  | ⟨node, .allocated⟩ => tree.qualifiedMark node
  | _ => []

def packagesOf : Piece → List NodeId
  | ⟨node, .package⟩ => [node]
  | _ => []

variable {tree : Tree} {node : NodeId} {role : Role}

theorem flatMap_many {α : Type} (f : Piece → List α) (role : Role) (nodes : List NodeId) :
    (Piece.many role nodes).flatMap f = nodes.flatMap fun node => f ⟨node, role⟩ := by
  simp [Piece.many, List.flatMap_map]

section

@[simp] theorem marksOf_expression : tree.marksOf ⟨node, .expression⟩ = [] := rfl

@[simp] theorem marksOf_declaration : tree.marksOf ⟨node, .declaration⟩ = [] := rfl

@[simp] theorem marksOf_statement (within : List Bracket) : tree.marksOf ⟨node, .statement within⟩ = [] := rfl

@[simp] theorem marksOf_package : tree.marksOf ⟨node, .package⟩ = [] := rfl

@[simp] theorem marksOf_mark : tree.marksOf ⟨node, .mark⟩ = [node] := rfl

end

theorem marksOf_pieces {payload : Payload Range} (hpayload : tree.payload node = payload) :
    (payload.pieces node role).flatMap tree.marksOf =
      (if role = .allocated then tree.qualifiedMark node else []) ++ tree.typeMarks node := by
  subst hpayload
  unfold qualifiedMark typeMarks
  cases hpayload : tree.payload node with
  | unit part => cases part <;> simp [flatMap_many]
  | decl part =>
    cases part with
    | renames name kind renamed => cases kind <;> simp
    | _ => simp [flatMap_many]
  | type part => cases part <;> simp [flatMap_many]
  | expr part =>
    cases part with
    | qualified mark operand => cases role <;> simp [Role.ofMark]
    | membership operand negated target => simp [marksOf]
    | allocator operand => simp [marksOf, qualifiedMark]
    | _ => simp [flatMap_many]
  | name part =>
    cases part with
    | selected base => cases role <;> simp [Role.ofPrefix, marksOf]
    | _ => simp [flatMap_many]
  | stmt part => cases part <;> simp [flatMap_many]
  | placeholder => simp

theorem mem_marks {entry : Node} (hentry : tree.get? node = some entry) (id : NodeId) :
    (⟨id, .mark⟩ ∈ Piece.checks entry.payload ⟨node, role⟩ ∨
      id ∈ (entry.payload.pieces node role).flatMap tree.marksOf) ↔
        (id ∈ tree.marksOf ⟨node, role⟩ ∨ id ∈ tree.typeMarks node) := by
  have hpayload := payload_of_get? hentry
  rw [marksOf_pieces hpayload, List.mem_append, ← or_assoc]
  refine or_congr_left ?_
  by_cases hname : entry.payload.isSimpleName = true <;>
    cases role <;> simp [Piece.checks, marksOf, hpayload, hname]

theorem packagesOf_pieces {payload : Payload Range} (hpayload : tree.payload node = payload) :
    (payload.pieces node role).flatMap packagesOf = tree.usedPackages node := by
  subst hpayload
  unfold usedPackages
  cases hpayload : tree.payload node with
  | unit part => cases part <;> simp [flatMap_many, packagesOf]
  | decl part =>
    cases part with
    | renames name kind renamed => cases kind <;> simp [packagesOf]
    | _ => simp [flatMap_many, packagesOf]
  | type part => cases part <;> simp [flatMap_many, packagesOf]
  | expr part =>
    cases part with
    | qualified mark operand => cases role <;> simp [Role.ofMark, packagesOf]
    | _ => simp [flatMap_many, packagesOf]
  | name part =>
    cases part with
    | selected base => cases role <;> simp [Role.ofPrefix, packagesOf]
    | _ => simp [flatMap_many, packagesOf]
  | stmt part => cases part <;> simp [flatMap_many, packagesOf]
  | placeholder => simp

theorem mem_packages {entry : Node} (hentry : tree.get? node = some entry) (id : NodeId) :
    (⟨id, .package⟩ ∈ Piece.checks entry.payload ⟨node, role⟩ ∨
      id ∈ (entry.payload.pieces node role).flatMap packagesOf) ↔
        (id ∈ packagesOf ⟨node, role⟩ ∨ id ∈ tree.usedPackages node) := by
  rw [packagesOf_pieces (payload_of_get? hentry)]
  refine or_congr_left ?_
  by_cases hname : entry.payload.isSimpleName = true <;>
    cases role <;> simp [Piece.checks, packagesOf, hname]

namespace Cast

variable {pieces checks : List Piece} {nodes : List NodeId}

theorem mem_checks (h : tree.Cast pieces nodes checks) {checked : Role} {brought : Piece → List NodeId}
    {belonging : NodeId → List NodeId}
    (hnode : ∀ node role entry, tree.get? node = some entry → ∀ id,
      (⟨id, checked⟩ ∈ Piece.checks entry.payload ⟨node, role⟩ ∨
        id ∈ (entry.payload.pieces node role).flatMap brought) ↔
          (id ∈ brought ⟨node, role⟩ ∨ id ∈ belonging node)) (id : NodeId) :
    ⟨id, checked⟩ ∈ checks ↔
      id ∈ pieces.flatMap brought ∨ ∃ holder ∈ nodes, id ∈ belonging holder := by
  induction h with
  | nil => simp
  | @cons node role entry rest checks checks' below beyond hentry _ _ _ ihbelow ihbeyond =>
    have hself := hnode node role entry hentry id
    simp only [List.mem_append, ihbelow, ihbeyond, List.flatMap_cons, List.mem_cons, or_and_right, exists_or,
      exists_eq_left, or_assoc]
    rw [← or_assoc, hself]
    simp only [or_assoc, or_left_comm]

end Cast

end Tree

theorem sublist_eq_filter {α : Type} {part list : List α} {p : α → Bool} (h : part.Sublist list)
    (hnodup : list.Nodup) (hp : ∀ a ∈ list, a ∈ part ↔ p a = true) : part = list.filter p := by
  induction h with
  | slnil => rfl
  | @cons part list a h ih =>
    obtain ⟨ha, hrest⟩ := List.nodup_cons.mp hnodup
    obtain ⟨hhead, htail⟩ := List.forall_mem_cons.mp hp
    have hfalse : ¬p a = true := fun htrue => ha (h.subset (hhead.mpr htrue))
    rw [List.filter_cons_of_neg hfalse]
    exact ih hrest htail
  | @cons_cons part list a h ih =>
    obtain ⟨ha, hrest⟩ := List.nodup_cons.mp hnodup
    obtain ⟨hhead, htail⟩ := List.forall_mem_cons.mp hp
    rw [List.filter_cons_of_pos (hhead.mp List.mem_cons_self)]
    refine congrArg (a :: ·) (ih hrest fun b hb => ?_)
    have hne : b ≠ a := fun heq => ha (heq ▸ hb)
    rw [← htail b hb, List.mem_cons, or_iff_right hne]

namespace Tree

theorem Cast.held_eq {tree : Tree} {root : NodeId} {role : Role} {nodes : List NodeId} {checks : List Piece}
    {checked : Role} (h : tree.Cast [⟨root, role⟩] nodes checks) (belonging : NodeId → List NodeId)
    (hpreorder : (tree.preorder root).toList = nodes) (hnodup : nodes.Nodup)
    (hchecks : ∀ id, ⟨id, checked⟩ ∈ checks ↔ ∃ holder ∈ nodes, id ∈ belonging holder) :
    (checks.filter (·.role = checked)).map Piece.node = tree.held root belonging := by
  unfold held
  rw [hpreorder]
  refine sublist_eq_filter ((List.filter_sublist.map _).trans h.checks_sublist) hnodup fun id _ => ?_
  have hmem : id ∈ (checks.filter (·.role = checked)).map Piece.node ↔ ⟨id, checked⟩ ∈ checks := by
    simp only [List.mem_map, List.mem_filter, decide_eq_true_eq]
    constructor
    · rintro ⟨⟨node, role⟩, ⟨hcheck, rfl⟩, rfl⟩
      exact hcheck
    · exact fun hcheck => ⟨_, ⟨hcheck, rfl⟩, rfl⟩
  rw [hmem, hchecks]
  simp

end Tree

namespace Token

theorem defectCode_isChecked (text : String) : (defectCode text).isChecked = false := by
  unfold defectCode
  repeat' split
  all_goals rfl

theorem defects_faults {codes : Code → Bool} (hcodes : ∀ code, codes code = true → code.isChecked = true)
    (tokens : List Token) : Diagnostic.faults codes (defects tokens) = [] := by
  have hnone : (defects tokens).filter (codes ·.code) = [] := by
    refine List.filter_eq_nil_iff.mpr fun diagnostic hdiagnostic hcode => ?_
    obtain ⟨token, -, rfl⟩ := List.mem_map.mp hdiagnostic
    cases (defectCode_isChecked token.text).symm.trans (hcodes _ hcode)
  rw [Diagnostic.faults, hnone, List.map_nil]

end Token

namespace Parser

theorem complete_faults (parser : Parser) (lexical : List Diagnostic) (units : List NodeId)
    (codes : Code → Bool) : Diagnostic.faults codes (parser.complete lexical units).diagnostics =
      Diagnostic.faults codes lexical ++ parser.faults codes := by
  simp [complete, Diagnostic.faults, faults, Parser.diagnostics, addNode]

theorem compile_checked {cursor : Cursor} {options : Options} {compilation : Compilation}
    {lexical : List Diagnostic} (h : (Parser.new cursor options).compile lexical = .ok compilation)
    (hordered : Token.Ordered cursor.tokens.toList) :
    ∃ checks, compilation.tree.Cast [⟨compilation.root, .declaration⟩]
        (compilation.tree.preorder compilation.root).toList checks ∧
      (compilation.tree.preorder compilation.root).toList.Nodup ∧
      (options.warnUndeclared = true → Diagnostic.faults Code.isMarkFault compilation.diagnostics =
        Diagnostic.faults Code.isMarkFault lexical ++ compilation.tree.markFaults checks) ∧
      Diagnostic.faults Code.isPackageFault compilation.diagnostics =
        Diagnostic.faults Code.isPackageFault lexical ++ compilation.tree.packageFaults checks := by
  obtain ⟨units, later, nodes, hcourse, rfl⟩ := compile_course h
  have hproper := (Parser.Reachable.new cursor options).proper
  have hbuilt := hcourse.built hproper
  obtain ⟨node, hrooted⟩ := complete_rooted lexical hbuilt
  obtain ⟨checks, hchecked⟩ := hcourse.checked hproper hordered new_linked
  have hsame : ∀ id ∈ nodes, (later.complete lexical units).tree.get? id = later.tree.get? id := fun id hid =>
    later.tree.get?_add_of_lt _ _ (hbuilt.lt_of_mem hid).2
  obtain ⟨hmarks, hpackages⟩ := hchecked.cast.faults_congr hsame
  rw [hrooted.preorder_eq]
  refine ⟨checks, ?_, hrooted.nodup, ?_, ?_⟩
  · exact (hchecked.cast.transfer hsame).parent (later.tree.get?_add_self _ _) rfl
  · intro hwarn
    rw [complete_faults, hmarks]
    exact congrArg _ (hchecked.marks hwarn)
  · rw [complete_faults, hpackages]
    exact congrArg _ hchecked.packages

end Parser

namespace Compilation

/-- The reports on type marks and on names in use clauses are those that the tree calls for. -/
theorem mark_faults_eq {options : Options} {source : String} {compilation : Compilation}
    (h : ofSource source options = .ok compilation) (hwarn : options.warnUndeclared = true) :
    Diagnostic.faults Code.isMarkFault compilation.diagnostics =
        (compilation.tree.held compilation.root compilation.tree.typeMarks).filterMap
          compilation.tree.markFault ∧
      Diagnostic.faults Code.isPackageFault compilation.diagnostics =
        (compilation.tree.held compilation.root compilation.tree.usedPackages).filterMap
          compilation.tree.packageFault := by
  obtain ⟨checks, hcast, hnodup, hmarks, hpackages⟩ :=
    Parser.compile_checked h (Token.wellFormed_ordered source)
  have hlexical : ∀ {codes : Code → Bool}, (∀ code, codes code = true → code.isChecked = true) →
      Diagnostic.faults codes (Token.defects (Token.significant source)) = [] :=
    fun hcodes => Token.defects_faults hcodes _
  constructor
  · have hheld := hcast.held_eq compilation.tree.typeMarks rfl hnodup fun id =>
      (hcast.mem_checks (fun _ _ _ hentry => Tree.mem_marks hentry) id).trans (by simp)
    rw [hmarks hwarn, hlexical Code.isChecked_of_isMarkFault, List.nil_append, ← hheld, List.filterMap_map]
    rfl
  · have hheld := hcast.held_eq compilation.tree.usedPackages rfl hnodup fun id =>
      (hcast.mem_checks (fun _ _ _ hentry => Tree.mem_packages hentry) id).trans (by simp [Tree.packagesOf])
    rw [hpackages, hlexical Code.isChecked_of_isPackageFault, List.nil_append, ← hheld, List.filterMap_map]
    rfl

theorem mark_faults_eq_nested :
    ∃ compilation, ofSource "procedure P is X : Q; Y : P; use P; begin null; end P;" {} = .ok compilation ∧
      Diagnostic.faults Code.isMarkFault compilation.diagnostics =
        (compilation.tree.held compilation.root compilation.tree.typeMarks).filterMap
          compilation.tree.markFault ∧
      Diagnostic.faults Code.isPackageFault compilation.diagnostics =
        (compilation.tree.held compilation.root compilation.tree.usedPackages).filterMap
          compilation.tree.packageFault := by
  obtain ⟨compilation, h⟩ := exists_of_isOk
    (show (ofSource "procedure P is X : Q; Y : P; use P; begin null; end P;" {}).isOk = true by decide +kernel)
  exact ⟨compilation, h, mark_faults_eq h rfl⟩

end Compilation

end AdaSyntax
