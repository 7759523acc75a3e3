import AdaSyntax.Proofs.Parser.Linked
import AdaSyntax.Proofs.Tree.Cast
import Mathlib.Data.List.Basic

namespace AdaSyntax

namespace Code

def isMarkFault : Code → Bool
  | undeclaredTypeMark | notAType => true
  | _ => false

def isPackageFault : Code → Bool
  | notAPackage => true
  | _ => false

theorem isPackageFault_of_isMarkFault (code : Code) (h : code.isMarkFault = true) :
    code.isPackageFault = false := by
  cases code <;> first | rfl | cases h

theorem isChecked_of_isMarkFault (code : Code) (h : code.isMarkFault = true) : code.isChecked = true := by
  cases code <;> first | rfl | cases h

theorem isChecked_of_isPackageFault (code : Code) (h : code.isPackageFault = true) : code.isChecked = true := by
  cases code <;> first | rfl | cases h

end Code

/-- Codes and places of the diagnostics that have certain codes. -/
def Diagnostic.faults (codes : Code → Bool) (diagnostics : List Diagnostic) : List (Code × Range) :=
  (diagnostics.filter (codes ·.code)).map fun diagnostic => (diagnostic.code, diagnostic.range)

namespace Tree

/-- What is wrong with a type mark: it is not declared, or is no type. -/
def markFault (tree : Tree) (mark : NodeId) : Option (Code × Range) :=
  let kind := (tree.payload mark).classify.2
  if kind = .unresolved then some (.undeclaredTypeMark, tree.range mark)
  else if kind.isTypeMark then none
  else some (.notAType, tree.range mark)

def packageFault (tree : Tree) (package : NodeId) : Option (Code × Range) :=
  let kind := (tree.payload package).classify.2
  if kind = .package || kind = .unit then none else some (.notAPackage, tree.range package)

def markFaults (tree : Tree) (checks : List Piece) : List (Code × Range) :=
  (checks.filter (·.role = .mark)).filterMap (tree.markFault ·.node)

def packageFaults (tree : Tree) (checks : List Piece) : List (Code × Range) :=
  (checks.filter (·.role = .package)).filterMap (tree.packageFault ·.node)

end Tree

namespace Parser

def faults (parser : Parser) (codes : Code → Bool) : List (Code × Range) :=
  Diagnostic.faults codes parser.log.records.toList

variable {base parser later : Parser}

theorem faults_report (parser : Parser) (codes : Code → Bool) (diagnostic : Diagnostic) :
    (parser.report diagnostic).faults codes = parser.faults codes ++
      if codes diagnostic.code then [(diagnostic.code, diagnostic.range)] else [] := by
  simp only [faults, Diagnostic.faults, report, DiagnosticLog.report, Array.toList_push,
    List.filter_append, List.map_append, List.filter_cons, List.filter_nil]
  split <;> rfl

theorem faults_report_of_not {codes : Code → Bool} {diagnostic : Diagnostic}
    (h : codes diagnostic.code = false) : (parser.report diagnostic).faults codes = parser.faults codes := by
  simp [faults_report, h]

theorem describe_notAPackage (parser : Parser) (package : NodeId) (kind : SymbolKind) :
    (parser.describe (.notAPackage package kind)).code = .notAPackage ∧
      (parser.describe (.notAPackage package kind)).range = parser.tree.range package := by
  cases kind <;> exact ⟨rfl, rfl⟩

theorem checkMark_faults (hwarn : parser.options.warnUndeclared = true) (mark : NodeId) :
    (parser.checkMark mark).faults Code.isMarkFault =
      parser.faults Code.isMarkFault ++ (parser.tree.markFault mark).toList := by
  simp only [checkMark, Tree.markFault]
  split
  · simp only [find, hwarn, if_true, faults_report]
    rfl
  · split
    · simp
    · simp only [find, faults_report]
      rfl

theorem checkMark_faults_of_not {codes : Code → Bool} (h : ∀ code, code.isMarkFault = true → codes code = false)
    (mark : NodeId) : (parser.checkMark mark).faults codes = parser.faults codes := by
  simp only [checkMark, find]
  split
  · split
    · exact faults_report_of_not (h _ rfl)
    · rfl
  · split
    · rfl
    · exact faults_report_of_not (h _ rfl)

theorem checkExit_faults_of_not {codes : Code → Bool} (hstatement : codes .exitOutsideLoop = false)
    (htarget : codes .exitNotEnclosing = false) (statement : NodeId) (target : Option NodeId) :
    (parser.checkExit statement target).faults codes = parser.faults codes := by
  unfold checkExit
  split
  · split
    · split
      · rfl
      · exact faults_report_of_not htarget
    · rfl
  · exact faults_report_of_not hstatement

theorem Linked.classify_of_none (h : parser.Linked) (id : NodeId)
    (hnone : (parser.tree.payload id).classify.1 = none) :
    (parser.tree.payload id).classify.2 = .unresolved ∨ (parser.tree.payload id).classify.2 = .component := by
  cases hentry : parser.tree.get? id with
  | none => exact .inl (by rw [Tree.payload, hentry]; rfl)
  | some entry =>
    rw [Tree.payload_of_get? hentry] at hnone ⊢
    obtain ⟨range, payload⟩ := entry
    cases payload with
    | name use => exact (h.names id range use hentry).unknown hnone
    | _ => exact .inl rfl

theorem Linked.classify_of_some (h : parser.Linked) (id : NodeId) (symbol : SymbolId)
    (hsome : (parser.tree.payload id).classify.1 = some symbol) :
    ∃ entity, parser.symbols.symbol? symbol = some entity ∧
      (parser.tree.payload id).classify.2 = entity.kind := by
  cases hentry : parser.tree.get? id with
  | none =>
    rw [Tree.payload, hentry] at hsome
    cases hsome
  | some entry =>
    rw [Tree.payload_of_get? hentry] at hsome ⊢
    obtain ⟨range, payload⟩ := entry
    cases payload with
    | name use =>
      obtain ⟨entity, hentity, -, hkind, -⟩ := (h.names id range use hentry).known symbol hsome
      exact ⟨entity, hentity, hkind⟩
    | _ => cases hsome

theorem usePackage_faults (h : parser.Linked) (package : NodeId) :
    (parser.usePackage package).faults Code.isPackageFault =
      parser.faults Code.isPackageFault ++ (parser.tree.packageFault package).toList := by
  have hreport : ∀ kind, (parser.find (.notAPackage package kind)).faults Code.isPackageFault =
      parser.faults Code.isPackageFault ++ [(.notAPackage, parser.tree.range package)] := by
    intro kind
    obtain ⟨hcode, hrange⟩ := parser.describe_notAPackage package kind
    simp only [find, faults_report, hcode, hrange]
    rfl
  have hnone := h.classify_of_none package
  unfold usePackage Tree.packageFault
  generalize (parser.tree.payload package).classify = found at hnone
  obtain ⟨symbol, kind⟩ := found
  split
  · rename_i heq
    obtain ⟨-, rfl⟩ := Prod.mk.inj heq
    exact (List.append_nil _).symm
  · rename_i heq
    obtain ⟨-, rfl⟩ := Prod.mk.inj heq
    exact (List.append_nil _).symm
  · rename_i hpackage hunit heq
    obtain ⟨rfl, rfl⟩ := Prod.mk.inj heq
    have hother : (kind = .package || kind = .unit) = false := by
      cases symbol with
      | none => rcases hnone rfl with rfl | rfl <;> rfl
      | some id =>
        simp only [Bool.or_eq_false_iff, decide_eq_false_iff_not]
        exact ⟨hpackage id rfl, hunit id rfl⟩
    simp [hreport, hother]

theorem usePackage_faults_of_not {codes : Code → Bool} (h : codes .notAPackage = false) (package : NodeId) :
    (parser.usePackage package).faults codes = parser.faults codes := by
  unfold usePackage
  split
  · rfl
  · rfl
  · exact faults_report_of_not ((parser.describe_notAPackage _ _).1 ▸ h)

theorem usePackages_packageFaults (h : parser.Linked) (packages : List NodeId) :
    (parser.usePackages packages).faults Code.isPackageFault =
      parser.faults Code.isPackageFault ++ packages.filterMap parser.tree.packageFault := by
  induction packages generalizing parser with
  | nil => exact (List.append_nil _).symm
  | cons package packages ih =>
    have htree : (parser.usePackage package).tree = parser.tree := (parser.usePackages_same [package]).1
    have hnext : (parser.usePackage package).Linked := h.usePackages [package]
    refine (ih hnext).trans ?_
    rw [usePackage_faults h, htree, List.append_assoc]
    refine congrArg (parser.faults Code.isPackageFault ++ ·) ?_
    rw [List.filterMap_cons]
    cases parser.tree.packageFault package <;> rfl

theorem usePackages_faults_of_not {codes : Code → Bool} (h : codes .notAPackage = false)
    (packages : List NodeId) : (parser.usePackages packages).faults codes = parser.faults codes := by
  induction packages generalizing parser with
  | nil => rfl
  | cons package packages ih => exact ih.trans (usePackage_faults_of_not h package)

structure Checked (base parser : Parser) (yield : Yield) (nodes : List NodeId) (checks : List Piece) :
    Prop where
  cast : parser.tree.Cast yield.pieces nodes checks
  marks : base.options.warnUndeclared = true →
    parser.faults Code.isMarkFault = base.faults Code.isMarkFault ++ parser.tree.markFaults checks
  packages : parser.faults Code.isPackageFault =
    base.faults Code.isPackageFault ++ parser.tree.packageFaults checks

end Parser

namespace Tree

variable {tree later : Tree} {pieces checks checks' : List Piece} {nodes : List NodeId}

theorem markFaults_append : tree.markFaults (checks ++ checks') = tree.markFaults checks ++ tree.markFaults checks' := by
  simp [markFaults]

theorem packageFaults_append :
    tree.packageFaults (checks ++ checks') = tree.packageFaults checks ++ tree.packageFaults checks' := by
  simp [packageFaults]

theorem markFault_congr {id : NodeId} (h : later.get? id = tree.get? id) :
    later.markFault id = tree.markFault id := by
  simp only [markFault, payload_congr h, range_congr h]

theorem packageFault_congr {id : NodeId} (h : later.get? id = tree.get? id) :
    later.packageFault id = tree.packageFault id := by
  simp only [packageFault, payload_congr h, range_congr h]

theorem Cast.checks_sublist (h : tree.Cast pieces nodes checks) : (checks.map Piece.node).Sublist nodes := by
  induction h with
  | nil => exact .slnil
  | @cons node role entry _ _ _ _ _ _ _ _ _ ihbelow ihbeyond =>
    have hown : ((Piece.checks entry.payload ⟨node, role⟩).map Piece.node).Sublist [node] := by
      by_cases hname : entry.payload.isSimpleName = true <;> cases role <;> simp [Piece.checks, hname]
    rw [List.map_append, List.map_append]
    exact hown.append (ihbelow.append ihbeyond)

theorem Cast.faults_congr (h : tree.Cast pieces nodes checks)
    (hsame : ∀ id ∈ nodes, later.get? id = tree.get? id) :
    later.markFaults checks = tree.markFaults checks ∧ later.packageFaults checks = tree.packageFaults checks := by
  have hnode : ∀ check ∈ checks, later.get? check.node = tree.get? check.node := fun check hcheck =>
    hsame _ (h.checks_sublist.subset (List.mem_map_of_mem hcheck))
  constructor
  · exact List.filterMap_congr fun check hcheck => markFault_congr (hnode check (List.mem_filter.mp hcheck).1)
  · exact List.filterMap_congr fun check hcheck => packageFault_congr (hnode check (List.mem_filter.mp hcheck).1)

end Tree

namespace Parser.Checked

variable {base middle parser later : Parser} {yield yield' : Yield} {nodes nodes' : List NodeId}
variable {checks checks' : List Piece}

theorem refl (parser : Parser) : Checked parser parser .empty [] [] :=
  ⟨.nil, fun _ => (List.append_nil _).symm, (List.append_nil _).symm⟩

theorem transfer (h : Checked base parser yield nodes checks)
    (hsame : ∀ id ∈ nodes, later.tree.get? id = parser.tree.get? id) (hlog : later.log = parser.log)
    (hpieces : yield'.pieces = yield.pieces) : Checked base later yield' nodes checks := by
  obtain ⟨hmarks, hpackages⟩ := h.cast.faults_congr hsame
  constructor
  · exact hpieces ▸ h.cast.transfer hsame
  · intro hwarn
    rw [hmarks, ← h.marks hwarn, faults, hlog, faults]
  · rw [hpackages, ← h.packages, faults, hlog, faults]

theorem of_same (h : Checked base parser yield nodes checks) (htree : later.tree = parser.tree)
    (hlog : later.log = parser.log) (hpieces : yield'.pieces = yield.pieces) :
    Checked base later yield' nodes checks :=
  h.transfer (fun _ _ => htree ▸ rfl) hlog hpieces

theorem trans (h : Checked base middle yield nodes checks) (h' : Checked middle parser yield' nodes' checks')
    (hoptions : middle.options = base.options)
    (hsame : ∀ id ∈ nodes, parser.tree.get? id = middle.tree.get? id) :
    Checked base parser (yield ++ yield') (nodes ++ nodes') (checks ++ checks') := by
  obtain ⟨hmarks, hpackages⟩ := h.cast.faults_congr hsame
  constructor
  · rw [Yield.append_pieces]
    exact (h.cast.transfer hsame).append (h'.cast.within _)
  · intro hwarn
    rw [h'.marks (hoptions ▸ hwarn), h.marks hwarn, Tree.markFaults_append, hmarks, List.append_assoc]
  · rw [h'.packages, h.packages, Tree.packageFaults_append, hpackages, List.append_assoc]

theorem weaken (h : Checked base parser yield nodes checks) (hyield : yield.Weakens yield') :
    Checked base parser yield' nodes checks := by
  refine { h with cast := ?_ }
  have hpieces := hyield.pieces
  have hcast := h.cast
  revert hpieces hcast
  generalize yield.pieces = pieces
  generalize yield'.pieces = pieces'
  rintro (_ | hserves) hcast
  · exact hcast
  · exact hcast.serve hserves

theorem report {diagnostic : Diagnostic} (h : Checked base parser yield nodes checks)
    (hcode : diagnostic.code.isChecked = false) : Checked base (parser.report diagnostic) yield nodes checks := by
  have hmark : diagnostic.code.isMarkFault = false := by
    cases hcode' : diagnostic.code <;> rw [hcode'] at hcode <;> first | rfl | cases hcode
  have hpackage : diagnostic.code.isPackageFault = false := by
    cases hcode' : diagnostic.code <;> rw [hcode'] at hcode <;> first | rfl | cases hcode
  exact ⟨h.cast, fun hwarn => (faults_report_of_not hmark).trans (h.marks hwarn),
    (faults_report_of_not hpackage).trans h.packages⟩

theorem fold {payload : Payload Nat} {node : NodeId} {role : Role} {range : Range}
    (h : Checked base parser yield nodes checks) (hfits : payload.Fits yield node role)
    (hsame : ∀ id ∈ nodes, later.tree.get? id = parser.tree.get? id) (hlog : later.log = parser.log)
    (hpieces : yield'.pieces = [⟨node, role⟩])
    (hnode : later.tree.get? node = some ⟨range, payload.map parser.place⟩) :
    Checked base later yield' (node :: nodes) checks := by
  have hbelow := h.transfer hsame hlog rfl
  refine { hbelow with cast := ?_ }
  have hcast := hbelow.cast
  rw [hfits.pieces, ← Payload.pieces_map parser.place] at hcast
  have hparent := hcast.parent hnode ((payload.admits_map parser.place role).trans hfits.admits)
  have hown : Piece.checks (payload.map parser.place) ⟨node, role⟩ = [] := by
    have hfresh := hfits.fresh
    cases role <;> first | rfl | cases hfresh
  rw [hown, List.nil_append] at hparent
  exact hpieces ▸ hparent

end Parser.Checked

theorem Course.checked {base parser : Parser} {yield : Yield} {nodes : List NodeId}
    (h : Course base parser yield nodes) (hproper : base.symbols.Proper)
    (hordered : Token.Ordered base.cursor.tokens.toList) (hlinked : base.Linked) :
    ∃ checks, Parser.Checked base parser yield nodes checks := by
  induction h with
  | refl parser => exact ⟨[], .refl parser⟩
  | append h h' ih ih' =>
    have hbuilt := h.built hproper
    have hbuilt' := h'.built hbuilt.proper
    obtain ⟨checks, hchecked⟩ := ih hproper hordered hlinked
    obtain ⟨checks', hchecked'⟩ := ih' hbuilt.proper (hbuilt.reverts.tokens ▸ hordered)
      (h.linked hproper hordered hlinked)
    refine ⟨checks ++ checks', hchecked.trans hchecked' hbuilt.reverts.options fun id hid => ?_⟩
    exact Tree.get?_of_isPrefix hbuilt'.reverts.nodes (hbuilt.lt_of_mem hid).2
  | nested _ ih =>
    obtain ⟨checks, hchecked⟩ := ih hproper hordered
      (hlinked.of_same hlinked.filed rfl rfl (Nat.le_refl _))
    exact ⟨checks, hchecked.cast, hchecked.marks, hchecked.packages⟩
  | listed _ ih =>
    obtain ⟨checks, hchecked⟩ := ih hproper hordered
      (hlinked.of_same hlinked.filed rfl rfl (Nat.le_refl _))
    exact ⟨checks, hchecked.cast, hchecked.marks, hchecked.packages⟩
  | resume _ hlater ih =>
    obtain ⟨next, furthest, -, rfl⟩ := hlater
    obtain ⟨checks, hchecked⟩ := ih hproper hordered hlinked
    exact ⟨checks, hchecked.of_same rfl rfl rfl⟩
  | weaken _ hyield ih =>
    obtain ⟨checks, hchecked⟩ := ih hproper hordered hlinked
    exact ⟨checks, hchecked.weaken hyield⟩
  | advance _ _ ih =>
    obtain ⟨checks, hchecked⟩ := ih hproper hordered hlinked
    exact ⟨checks, hchecked.of_same rfl rfl rfl⟩
  | report _ hcode ih =>
    obtain ⟨checks, hchecked⟩ := ih hproper hordered hlinked
    exact ⟨checks, hchecked.report (Code.isChecked_of_isPlain hcode)⟩
  | @declared _ parser _ _ id declared _ _ _ ih =>
    obtain ⟨checks, hchecked⟩ := ih hproper hordered hlinked
    rcases parser.reportDeclared_eq id declared with heq | ⟨diagnostic, symbol, hcode, -, -, heq⟩ <;> rw [heq]
    · exact ⟨checks, hchecked⟩
    · exact ⟨checks, hchecked.report (hcode ▸ rfl)⟩
  | @mark base parser node nodes h ih =>
    have hoptions := (h.built hproper).reverts.options
    have htree := (parser.checkMark_reports node).tree_eq
    obtain ⟨checks, hchecked⟩ := ih hproper hordered hlinked
    obtain ⟨rfl, hcast⟩ := hchecked.cast.mark
    refine ⟨[⟨node, .mark⟩], htree ▸ hcast, ?_, ?_⟩
    · intro hwarn
      rw [Parser.checkMark_faults (hoptions ▸ hwarn), hchecked.marks hwarn, htree]
      simp only [Tree.markFaults, List.filter_nil, List.filterMap_nil, List.append_nil, List.filter_cons,
        decide_true, if_true, List.filterMap_cons]
      cases parser.tree.markFault node <;> rfl
    · rw [Parser.checkMark_faults_of_not Code.isPackageFault_of_isMarkFault, hchecked.packages, htree]
      rfl
  | bounds h hname ih =>
    obtain ⟨checks, hchecked⟩ := ih hproper hordered hlinked
    exact ⟨checks, { hchecked with cast := hchecked.cast.bounds hname }⟩
  | @packages base parser nodes packages h ih =>
    have hafter := h.linked hproper hordered hlinked
    have hexpressions := h.expressions_of_silent hproper rfl
    have htree := (parser.usePackages_same packages).1
    obtain ⟨checks, hchecked⟩ := ih hproper hordered hlinked
    have honly := hchecked.cast.mark_of_expressions (by simp +contextual [Piece.mem_many]) hexpressions
    obtain ⟨checks', hcast, hmarks, hpackages⟩ := hchecked.cast.packages honly
    refine ⟨checks', htree ▸ hcast, ?_, ?_⟩
    · intro hwarn
      rw [Parser.usePackages_faults_of_not rfl, hchecked.marks hwarn, htree]
      have hself : checks.filter (·.role = .mark) = checks := by simpa using honly
      rw [Tree.markFaults, hself, Tree.markFaults, hmarks]
    · rw [Parser.usePackages_packageFaults hafter, hchecked.packages, htree]
      have hnone : checks.filter (·.role = .package) = [] := by simp +contextual [honly]
      simp [Tree.packageFaults, hnone, hpackages, Piece.many]
  | @exit base parser yield _ target condition h hfits _ _ _ ih =>
    have hreports := (parser.added base.position (.stmt (.exit target condition))).checkExit_reports
      ⟨parser.tree.size⟩ target
    obtain ⟨checks, hchecked⟩ := ih hproper hordered hlinked
    have hadded : Parser.Checked base (parser.added base.position (.stmt (.exit target condition)))
        (yield.fold ⟨parser.tree.size⟩ (.statement [])) _ checks := hchecked.fold hfits
      (fun id hid => parser.tree.get?_add_of_lt _ _ ((h.built hproper).lt_of_mem hid).2) rfl rfl
      (parser.tree.get?_add_self _ _)
    refine ⟨checks, hreports.tree_eq ▸ hadded.cast, ?_, ?_⟩
    · intro hwarn
      rw [Parser.checkExit_faults_of_not rfl rfl, hadded.marks hwarn, hreports.tree_eq]
    · rw [Parser.checkExit_faults_of_not rfl rfl, hadded.packages, hreports.tree_eq]
  | @add base parser _ _ _ _ _ h hfits _ _ _ _ ih =>
    obtain ⟨checks, hchecked⟩ := ih hproper hordered hlinked
    refine ⟨checks, hchecked.fold hfits (fun id hid => ?_) rfl rfl (parser.tree.get?_add_self _ _)⟩
    exact parser.tree.get?_add_of_lt _ _ ((h.built hproper).lt_of_mem hid).2
  | @reserve base parser _ _ h ih =>
    obtain ⟨checks, hchecked⟩ := ih hproper hordered hlinked
    refine ⟨checks, hchecked.transfer (fun id hid => ?_) rfl rfl⟩
    exact parser.tree.get?_add_of_lt _ _ ((h.built hproper).lt_of_mem hid).2
  | @fill base parser _ _ hole _ _ h hholes _ hfits _ _ ih =>
    have hbuilt := h.built hproper
    have hlt := (hbuilt.lt_of_hole (hholes ▸ List.mem_singleton_self _)).2
    obtain ⟨checks, hchecked⟩ := ih hproper hordered hlinked
    refine ⟨checks, hchecked.fold hfits (fun id hid => ?_) rfl rfl (Tree.get?_replace_self _ hlt)⟩
    exact Tree.get?_replace_of_ne _ fun heq => hbuilt.hole_notMem hholes (heq ▸ hid)
  | change _ hchange ih =>
    obtain ⟨checks, hchecked⟩ := ih hproper hordered hlinked
    refine ⟨checks, ?_⟩
    cases hchange <;> exact hchecked.of_same rfl rfl rfl

end AdaSyntax
