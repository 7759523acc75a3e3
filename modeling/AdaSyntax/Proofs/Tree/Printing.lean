import AdaSyntax.Proofs.Token.Line
import AdaSyntax.Proofs.Tree.Recursion
import AdaSyntax.Tree.Printer
import Mathlib.Data.List.Forall2
import Mathlib.Data.List.Nodup

namespace AdaSyntax

theorem Payload.label_all_isAlpha {ρ : Type} (payload : Payload ρ) : payload.label.toList.all Char.isAlpha = true := by
  cases payload with
  | placeholder => dsimp only [label]; decide +kernel
  | unit part => cases part <;> dsimp only [label, UnitPart.label] <;> decide +kernel
  | decl part => cases part <;> dsimp only [label, Decl.label] <;> decide +kernel
  | type part => cases part <;> dsimp only [label, TypeDef.label] <;> decide +kernel
  | expr part => cases part <;> dsimp only [label, Expr.label] <;> decide +kernel
  | name part =>
    dsimp only [label]
    unfold NameUse.label
    split <;> decide +kernel
  | stmt part => cases part <;> dsimp only [label, Stmt.label] <;> decide +kernel

namespace Tree

variable {tree other : Tree} {root root' : NodeId} {roots roots' : List NodeId}

/-- The node is so many steps below the root. -/
inductive AtLevel (tree : Tree) (root : NodeId) : NodeId → Nat → Prop where
  | root : AtLevel tree root root 0
  | child {parent child : NodeId} {level : Nat} (hparent : AtLevel tree root parent level)
      (hchild : tree.HasChild parent child) : AtLevel tree root child (level + 1)

inductive Layered (tree : Tree) : Nat → List NodeId → List (NodeId × Nat) → Prop where
  | nil {level : Nat} : Layered tree level [] []
  | cons {level : Nat} {id : NodeId} {node : Node} {rest : List NodeId} {below beyond : List (NodeId × Nat)}
      (hnode : tree.get? id = some node) (hbelow : Layered tree (level + 1) node.payload.children below)
      (hbeyond : Layered tree level rest beyond) :
      Layered tree level (id :: rest) ((id, level) :: (below ++ beyond))

variable {level : Nat} {entries entries' : List (NodeId × Nat)}

theorem Forest.exists_layered {nodes : List NodeId} (h : tree.Forest roots nodes) (level : Nat) :
    ∃ entries, tree.Layered level roots entries ∧ entries.map Prod.fst = nodes := by
  induction h generalizing level with
  | nil => exact ⟨[], .nil, rfl⟩
  | cons hnode _ _ _ ihbelow ihbeyond =>
    obtain ⟨below, hbelow, rfl⟩ := ihbelow (level + 1)
    obtain ⟨beyond, hbeyond, rfl⟩ := ihbeyond level
    exact ⟨_, .cons hnode hbelow hbeyond, by rw [List.map_cons, List.map_append]⟩

theorem Layered.mem_of_root (h : tree.Layered level roots entries) : ∀ id ∈ roots, (id, level) ∈ entries := by
  induction h with
  | nil => exact List.forall_mem_nil _
  | cons _ _ _ _ ihbeyond =>
    refine List.forall_mem_cons.mpr ⟨List.mem_cons_self, fun other hother => ?_⟩
    exact List.mem_cons_of_mem _ (List.mem_append_right _ (ihbeyond other hother))

theorem Layered.mem_of_hasChild (h : tree.Layered level roots entries) {parent child : NodeId}
    (hchild : tree.HasChild parent child) {above : Nat} (hparent : (parent, above) ∈ entries) :
    (child, above + 1) ∈ entries := by
  induction h with
  | nil => cases hparent
  | cons hnode hbelow _ ihbelow ihbeyond =>
    refine List.mem_cons_of_mem _ (List.mem_append.mpr ?_)
    rcases List.mem_cons.mp hparent with heq | hparent
    · obtain ⟨rfl, rfl⟩ := Prod.mk.inj heq
      rw [HasChild, children_of_get? hnode] at hchild
      exact .inl (hbelow.mem_of_root child hchild)
    · exact (List.mem_append.mp hparent).imp ihbelow ihbeyond

theorem Layered.atLevel (h : tree.Layered level roots entries) (hroots : ∀ id ∈ roots, tree.AtLevel root id level) :
    ∀ entry ∈ entries, tree.AtLevel root entry.1 entry.2 := by
  induction h with
  | nil => exact List.forall_mem_nil _
  | @cons level id node rest below beyond hnode _ _ ihbelow ihbeyond =>
    obtain ⟨hid, hrest⟩ := List.forall_mem_cons.mp hroots
    refine List.forall_mem_cons.mpr ⟨hid, List.forall_mem_append.mpr ⟨ihbelow fun child hchild => ?_, ihbeyond hrest⟩⟩
    refine hid.child ?_
    rwa [HasChild, children_of_get? hnode]

theorem Layered.mem_iff (h : tree.Layered 0 [root] entries) {id : NodeId} :
    (id, level) ∈ entries ↔ tree.AtLevel root id level := by
  constructor
  · exact h.atLevel (List.forall_mem_singleton.mpr .root) (id, level)
  · intro hlevel
    induction hlevel with
    | root => exact h.mem_of_root root List.mem_cons_self
    | child _ hchild ih => exact h.mem_of_hasChild hchild ih

theorem Layered.level_unique (h : tree.Layered 0 [root] entries) (hnodup : (entries.map Prod.fst).Nodup)
    {entry : NodeId × Nat} (hentry : entry ∈ entries) (level : Nat) :
    tree.AtLevel root entry.1 level ↔ level = entry.2 := by
  refine ⟨fun hlevel => ?_, fun heq => heq ▸ h.mem_iff.mp hentry⟩
  exact congrArg Prod.snd (List.inj_on_of_nodup_map hnodup (h.mem_iff.mpr hlevel) hentry rfl)

/-- The line starts with two blanks for each level, a parenthesis and the label, and the label ends there. -/
def Opens (line : List Char) (level : Nat) (label : String) : Prop :=
  ∃ rest, line = List.replicate (2 * level) ' ' ++ '(' :: (label.toList ++ rest) ∧
    ∀ c ∈ rest.head?, c = ' ' ∨ c = ')'

theorem Opens.concat {line : List Char} {label : String} (h : Opens line level label) :
    Opens (line ++ [')']) level label := by
  obtain ⟨rest, rfl, hrest⟩ := h
  refine ⟨rest ++ [')'], by simp, fun c hc => ?_⟩
  cases rest with
  | nil => exact .inr (Option.some.inj hc).symm
  | cons first rest => exact hrest c hc

theorem takeWhile_blanks (level : Nat) (behind : List Char) :
    (List.replicate (2 * level) ' ' ++ '(' :: behind).takeWhile (· == ' ') = List.replicate (2 * level) ' ' := by
  rw [List.takeWhile_append_of_pos (by simp), List.takeWhile_cons_of_neg (by decide), List.append_nil]

theorem takeWhile_label {label : String} (hword : label.toList.all Char.isAlpha = true) {rest : List Char}
    (hrest : ∀ c ∈ rest.head?, c = ' ' ∨ c = ')') : (label.toList ++ rest).takeWhile Char.isAlpha = label.toList := by
  rw [List.takeWhile_append_of_pos (List.all_eq_true.mp hword)]
  cases rest with
  | nil => rw [List.takeWhile_nil, List.append_nil]
  | cons c rest =>
    have hc : ¬c.isAlpha = true := by
      rcases hrest c rfl with rfl | rfl <;> decide
    rw [List.takeWhile_cons_of_neg hc, List.append_nil]

theorem Opens.unique {line : List Char} {level' : Nat} {label label' : String} (h : Opens line level label)
    (h' : Opens line level' label') (hword : label.toList.all Char.isAlpha = true)
    (hword' : label'.toList.all Char.isAlpha = true) : level = level' ∧ label = label' := by
  obtain ⟨rest, rfl, hrest⟩ := h
  obtain ⟨rest', heq, hrest'⟩ := h'
  have hlength := congrArg (fun line => (line.takeWhile (· == ' ')).length) heq
  simp only [takeWhile_blanks, List.length_replicate] at hlength
  obtain rfl : level = level' := by omega
  have hbehind := congrArg (List.takeWhile Char.isAlpha) (List.cons.inj (List.append_cancel_left heq)).2
  rw [takeWhile_label hword hrest, takeWhile_label hword' hrest'] at hbehind
  exact ⟨rfl, String.toList_inj.mp hbehind⟩

theorem toList_indentation (level : Nat) : (indentation level).toList = List.replicate (2 * level) ' ' := by
  induction level with
  | zero => rfl
  | succ level ih => rw [indentation, String.toList_append, ih, Nat.mul_succ, Nat.add_comm, List.replicate_add]; rfl

theorem opens_line {ρ : Type} (level : Nat) (payload : Payload ρ) :
    Opens (indentation level ++ openingText payload).toList level payload.label := by
  refine ⟨(if payload.details.isEmpty then "" else " " ++ payload.details).toList, ?_, ?_⟩
  · rw [String.toList_append, toList_indentation, openingText, String.toList_append, String.toList_append]
    rfl
  · split
    · intro c hc
      cases hc
    · intro c hc
      rw [String.toList_append] at hc
      exact .inl (Option.some.inj hc).symm

theorem line_onLine {ρ : Type} (level : Nat) {payload : Payload ρ} (h : OnLine payload.details) :
    OnLine (indentation level ++ openingText payload) := by
  have hblanks : OnLine (indentation level) := by
    rw [OnLine, toList_indentation]
    exact fun hmem => absurd (List.eq_of_mem_replicate hmem) (by decide)
  have hlabel : OnLine payload.label := fun hmem =>
    absurd (List.all_eq_true.mp payload.label_all_isAlpha _ hmem) (by decide)
  have hparenthesis : OnLine "(" := by decide
  have hblank : OnLine " " := by decide
  refine hblanks.append ((hparenthesis.append hlabel).append ?_)
  split
  · exact List.not_mem_nil
  · exact hblank.append h

def Laid (tree : Tree) (entries : List (NodeId × Nat)) (text : String) : Prop :=
  List.Forall₂ (fun entry line => Opens line entry.2 (tree.payload entry.1).label) entries (text.toList.splitOn '\n')

theorem splitOn_concat {c : Char} (hc : c ≠ '\n') (cs : List Char) :
    ∃ lines last, cs.splitOn '\n' = lines ++ [last] ∧ (cs ++ [c]).splitOn '\n' = lines ++ [last ++ [c]] := by
  induction cs with
  | nil =>
    have hline : '\n' ∉ [c] := fun hmem => hc (List.mem_singleton.mp hmem).symm
    exact ⟨[], [], List.splitOn_nil _, List.splitOn_eq_singleton hline⟩
  | cons first cs ih =>
    obtain ⟨lines, last, hlines, hlater⟩ := ih
    rw [List.cons_append, List.splitOn_cons_eq_if_modifyHead, List.splitOn_cons_eq_if_modifyHead, hlines, hlater]
    split
    · exact ⟨[] :: lines, last, rfl, rfl⟩
    · cases lines with
      | nil => exact ⟨[], first :: last, rfl, rfl⟩
      | cons line lines => exact ⟨(first :: line) :: lines, last, rfl, rfl⟩

theorem Laid.not_isEmpty {text : String} (h : tree.Laid entries text) : text.isEmpty = false := by
  refine Bool.eq_false_iff.mpr fun hempty => ?_
  rw [String.isEmpty_iff.mp hempty] at h
  change List.Forall₂ _ entries [[]] at h
  obtain ⟨_, _, ⟨rest, hline, _⟩, -, -⟩ := List.forall₂_cons_right_iff.mp h
  exact absurd hline (by simp)

theorem Laid.close {text : String} (h : tree.Laid entries text) : tree.Laid entries (text ++ ")") := by
  obtain ⟨lines, last, hlines, hlater⟩ := splitOn_concat (c := ')') (by decide) text.toList
  rw [Laid, hlines] at h
  rw [Laid, String.toList_append, show ")".toList = [')'] from rfl, hlater]
  clear hlines hlater
  induction lines generalizing entries with
  | nil =>
    obtain ⟨entry, rest, hopens, hrest, rfl⟩ := List.forall₂_cons_right_iff.mp h
    exact .cons hopens.concat hrest
  | cons line lines ih =>
    obtain ⟨entry, rest, hopens, hrest, rfl⟩ := List.forall₂_cons_right_iff.mp h
    exact .cons hopens (ih hrest)

theorem Laid.append {text line : String} {entry : NodeId × Nat} (h : tree.Laid entries text) (hline : OnLine line)
    (hopens : Opens line.toList entry.2 (tree.payload entry.1).label) :
    tree.Laid (entries ++ [entry]) (text ++ "\n" ++ line) := by
  have hsplit : (text ++ "\n" ++ line).toList.splitOn '\n' = text.toList.splitOn '\n' ++ [line.toList] := by
    rw [String.toList_append, String.toList_append, List.append_assoc]
    change (text.toList ++ '\n' :: line.toList).splitOn '\n' = _
    rw [List.splitOn_append_cons_self, List.splitOn_eq_singleton hline]
  rw [Laid, hsplit]
  exact List.rel_append h (.cons hopens .nil)

theorem Laid.enter {text : String} {id : NodeId} {node : Node} (h : tree.Laid entries text) (level : Nat)
    (hnode : tree.get? id = some node) (hline : OnLine (tree.payload id).details) :
    ∃ later, printer.enter text id node level = (true, later) ∧ tree.Laid (entries ++ [(id, level)]) later := by
  have hpayload : tree.payload id = node.payload := by rw [payload, hnode]
  rw [hpayload] at hline
  refine ⟨_, rfl, ?_⟩
  simp only [h.not_isEmpty, Bool.false_eq_true, if_false]
  exact h.append (line_onLine level hline) (hpayload ▸ opens_line level node.payload)

theorem Layered.walkStack_printer (h : tree.Layered level roots entries) (hdepth : level + entries.length ≤ tree.size)
    (hlines : ∀ entry ∈ entries, OnLine (tree.payload entry.1).details) {before : List (NodeId × Nat)} {text : String}
    (hlaid : tree.Laid before text) (rest : List Walk.Call) :
    ∃ later, tree.Laid (before ++ entries) later ∧
      tree.walkStack printer text (roots.map (.enter · level) ++ rest) = tree.walkStack printer later rest := by
  induction h generalizing before text rest with
  | nil => exact ⟨text, by rwa [List.append_nil], rfl⟩
  | @cons level id node others below beyond hnode _ _ ihbelow ihbeyond =>
    simp only [List.length_cons, List.length_append] at hdepth
    obtain ⟨hhere, hlines⟩ := List.forall_mem_cons.mp hlines
    obtain ⟨hbelow, hbeyond⟩ := List.forall_mem_append.mp hlines
    obtain ⟨entered, henter, hentered⟩ := hlaid.enter level hnode hhere
    obtain ⟨inner, hinner, hwalkinner⟩ :=
      ihbelow (by omega) hbelow hentered (.leave id level :: (others.map (.enter · level) ++ rest))
    obtain ⟨later, hlater, hwalk⟩ := ihbeyond (by omega) hbeyond hinner.close rest
    refine ⟨later, by simpa using hlater, ?_⟩
    rw [List.map_cons, List.cons_append, walkStack_entered (by omega) hnode henter, hwalkinner, walkStack]
    exact hwalk

theorem Layered.print_laid (h : tree.Layered 0 [root] entries) (hlength : entries.length ≤ tree.size)
    (hlines : ∀ entry ∈ entries, OnLine (tree.payload entry.1).details) : tree.Laid entries (tree.print root) := by
  obtain _ | @⟨_, _, node, _, below, _, hnode, hbelow, hbeyond⟩ := h
  cases hbeyond
  -- the text is still empty here, so the line of the root has no line break in front of it
  rw [List.append_nil] at hlength hlines ⊢
  rw [List.length_cons] at hlength
  obtain ⟨hhere, hlines⟩ := List.forall_mem_cons.mp hlines
  have hpayload : tree.payload root = node.payload := by rw [payload, hnode]
  rw [hpayload] at hhere
  have hfirst : tree.Laid [(root, 0)] (indentation 0 ++ openingText node.payload) := by
    rw [Laid, List.splitOn_eq_singleton (line_onLine 0 hhere)]
    exact .cons (hpayload ▸ opens_line 0 node.payload) .nil
  obtain ⟨later, hlater, hwalk⟩ := hbelow.walkStack_printer (by omega) hlines hfirst [.leave root 0]
  rw [print, walk, walkStack_entered (Nat.zero_le _) hnode rfl]
  change tree.Laid _ (tree.walkStack printer (indentation 0 ++ openingText node.payload) _)
  rw [hwalk, walkStack, walkStack]
  exact hlater.close

/-- The line tells of the node: it starts with two blanks for each of the levels between the node and the root, a
parenthesis and the label. -/
def Shows (tree : Tree) (root id : NodeId) (line : List Char) : Prop :=
  ∃ level, (∀ other, tree.AtLevel root id other ↔ other = level) ∧ Opens line level (tree.payload id).label

theorem Layered.print_shows (h : tree.Layered 0 [root] entries) (hlaid : tree.Laid entries (tree.print root))
    (hnodup : (entries.map Prod.fst).Nodup) :
    List.Forall₂ (tree.Shows root) (entries.map Prod.fst) ((tree.print root).toList.splitOn '\n') := by
  have hlevels : ∀ entry ∈ entries, ∀ level, tree.AtLevel root entry.1 level ↔ level = entry.2 :=
    fun entry hentry => h.level_unique hnodup hentry
  rw [List.forall₂_map_left_iff]
  exact ((List.forall₂_and_left _ _).mpr ⟨hlevels, hlaid⟩).imp fun entry line hentry => ⟨entry.2, hentry⟩

/-- Subtrees of one shape, with the same labels in the same places. -/
inductive Alike (tree other : Tree) : List NodeId → List NodeId → Prop where
  | nil : Alike tree other [] []
  | cons {id id' : NodeId} {rest rest' : List NodeId} (hlabel : (tree.payload id).label = (other.payload id').label)
      (hbelow : Alike tree other (tree.children id) (other.children id')) (hbeyond : Alike tree other rest rest') :
      Alike tree other (id :: rest) (id' :: rest')

def mark (tree : Tree) (entry : NodeId × Nat) : Nat × String := (entry.2, (tree.payload entry.1).label)

theorem Laid.marks_eq {text : String} (h : tree.Laid entries text) (h' : other.Laid entries' text) :
    entries.map tree.mark = entries'.map other.mark := by
  unfold Laid at h h'
  generalize text.toList.splitOn '\n' = lines at h h'
  induction h generalizing entries' with
  | nil =>
    cases h'
    rfl
  | cons hopens _ ih =>
    obtain _ | ⟨hopens', hrest⟩ := h'
    obtain ⟨hlevel, hlabel⟩ := hopens.unique hopens' (Payload.label_all_isAlpha _) (Payload.label_all_isAlpha _)
    rw [List.map_cons, List.map_cons, mark, mark, hlevel, hlabel, ih hrest]

def Ends (level : Nat) (marks : List (Nat × String)) : Prop := ∀ mark ∈ marks.head?, mark.1 < level

theorem Layered.ends_append (h : tree.Layered level roots entries) {marks : List (Nat × String)}
    (hends : Ends level marks) : Ends (level + 1) (entries.map tree.mark ++ marks) := by
  cases h with
  | nil => exact fun mark hmark => Nat.lt_succ_of_lt (hends mark hmark)
  | cons =>
    intro mark hmark
    rw [← Option.some.inj hmark]
    exact Nat.lt_succ_self level

theorem not_ends_cons {mark : Nat × String} {marks : List (Nat × String)} (hlevel : mark.1 = level) :
    ¬Ends level (mark :: marks) := fun hends => Nat.lt_irrefl _ (hlevel ▸ hends mark rfl)

theorem Layered.alike (h : tree.Layered level roots entries) (h' : other.Layered level roots' entries')
    {marks marks' : List (Nat × String)} (hends : Ends level marks) (hends' : Ends level marks')
    (heq : entries.map tree.mark ++ marks = entries'.map other.mark ++ marks') :
    tree.Alike other roots roots' ∧ marks = marks' := by
  induction h generalizing roots' entries' marks marks' with
  | nil =>
    cases h' with
    | nil => exact ⟨.nil, heq⟩
    | cons =>
      rw [List.map_nil, List.nil_append] at heq
      exact absurd (heq ▸ hends) (not_ends_cons rfl)
  | cons hnode _ hbeyond ihbelow ihbeyond =>
    cases h' with
    | nil =>
      rw [List.map_nil, List.nil_append] at heq
      exact absurd (heq ▸ hends') (not_ends_cons rfl)
    | cons hnode' hbelow' hbeyond' =>
      simp only [List.map_cons, List.map_append, List.cons_append, List.append_assoc] at heq
      obtain ⟨hmark, heq⟩ := List.cons.inj heq
      -- the marks of the children end where the next mark of this level or of a higher one comes
      obtain ⟨hbelow, heq⟩ := ihbelow hbelow' (hbeyond.ends_append hends) (hbeyond'.ends_append hends') heq
      obtain ⟨hbeyond, heq⟩ := ihbeyond hbeyond' hends hends' heq
      rw [← children_of_get? hnode, ← children_of_get? hnode'] at hbelow
      exact ⟨.cons (congrArg Prod.snd hmark) hbelow hbeyond, heq⟩

theorem Layered.alike_of_laid (h : tree.Layered 0 [root] entries) (h' : other.Layered 0 [root'] entries')
    {text : String} (hlaid : tree.Laid entries text) (hlaid' : other.Laid entries' text) :
    tree.Alike other [root] [root'] := by
  have hends : Ends 0 [] := fun mark hmark => by cases hmark
  exact (h.alike h' hends hends (by rw [hlaid.marks_eq hlaid'])).1

end Tree

end AdaSyntax
