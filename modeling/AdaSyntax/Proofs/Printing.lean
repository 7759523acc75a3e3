import AdaSyntax.Proofs.Compilation
import AdaSyntax.Proofs.Copied.Production
import AdaSyntax.Proofs.Name
import AdaSyntax.Proofs.Tree.Printing

/-!
The printed tree of a compilation. What a line says of a node besides its label is made of words of the language and of
texts that were read from single tokens, and these stand on one line; so no text in the source, whatever quotes and
parentheses it holds, is taken for a line of its own, and the printed tree determines the tree.
-/

namespace AdaSyntax

variable {ρ : Type}

theorem Name.ofText_onLine {text : String} (h : OnLine text) : OnLine (ofText text).text := by
  unfold ofText
  split
  · rw [OnLine, toList_upperCase]
    intro hmem
    obtain ⟨c, hc, hletter⟩ := List.mem_flatMap.mp hmem
    exact h ((Unicode.of_mem_upperCase hletter).2 rfl ▸ hc)
  · exact h

theorem Copied.onLine {tokens : Array Token} {text : String} (h : Copied tokens text)
    (htokens : ∀ token ∈ tokens, OnLine token.text) : OnLine text := by
  obtain ⟨token, htoken, rfl | rfl⟩ := h
  · exact htokens token htoken
  · exact Name.ofText_onLine (htokens token htoken)

theorem DefiningName.list_onLine (names : List (DefiningName ρ)) (h : ∀ text ∈ texts names, OnLine text) :
    OnLine (list names) := by
  unfold list
  change ∀ text ∈ names.map (·.name.text), OnLine text at h
  generalize names.map (·.name.text) = texts at h
  induction texts with
  | nil => decide
  | cons text rest ih =>
    obtain ⟨htext, hrest⟩ := List.forall_mem_cons.mp h
    cases rest with
    | nil => rwa [String.intercalate_singleton]
    | cons next rest =>
      have hcomma : OnLine ", " := by decide
      rw [String.intercalate_cons_cons]
      exact (htext.append hcomma).append (ih hrest)

theorem onLine_toString (n : Nat) : OnLine (toString n) := by
  rw [OnLine, Nat.toString_eq_repr, Nat.toList_repr]
  exact fun hmem => absurd (Nat.isDigit_of_mem_toDigits (by decide) (by decide) hmem) (by decide)

theorem BinaryOp.text_onLine (op : BinaryOp) : OnLine op.text := by cases op <;> decide

theorem UnaryOp.text_onLine (op : UnaryOp) : OnLine op.text := by cases op <;> decide

theorem Mode.text_onLine (mode : Mode) : OnLine mode.text := by cases mode <;> decide

theorem SubprogramKind.label_onLine (kind : SubprogramKind) : OnLine kind.label := by cases kind <;> decide

theorem GenericKind.label_onLine (kind : GenericKind) : OnLine kind.label := by cases kind <;> decide

theorem SymbolKind.text_onLine (kind : SymbolKind) : OnLine kind.text := by cases kind <;> decide

theorem Decl.texts_eq (decl : Decl ρ) : decl.texts = DefiningName.texts decl.definingNames := by
  cases decl with
  | bodyStub stub => cases stub <;> rfl
  | _ => rfl

theorem Decl.details_onLine (decl : Decl ρ) (h : ∀ text ∈ decl.texts, OnLine text) : OnLine decl.details := by
  have hblank : OnLine " " := by decide
  refine (DefiningName.list_onLine _ (decl.texts_eq ▸ h)).append ?_
  split
  · decide
  · decide
  · exact hblank.append (Mode.text_onLine _)
  · exact hblank.append (Mode.text_onLine _)
  · exact hblank.append (SubprogramKind.label_onLine _)
  · exact hblank.append (GenericKind.label_onLine _)
  · decide

theorem Expr.details_onLine (expr : Expr) (h : ∀ text ∈ expr.texts, OnLine text) : OnLine expr.details := by
  cases expr with
  | binary op => exact op.text_onLine
  | unary op => exact op.text_onLine
  | literal kind text => exact h text List.mem_cons_self
  | membership _ negated =>
    dsimp only [details]
    split <;> decide
  | _ => exact .empty

theorem NameUse.details_onLine (use : NameUse) (h : ∀ text ∈ use.texts, OnLine text) : OnLine use.details := by
  have hcolon : OnLine " :" := by decide
  cases use with
  | identifier name _ kind => exact ((h _ List.mem_cons_self).append hcolon).append kind.text_onLine
  | selected _ selector _ _ kind =>
    have hdot : OnLine "." := by decide
    exact ((hdot.append (h _ List.mem_cons_self)).append hcolon).append kind.text_onLine
  | attributeOf _ designator _ =>
    have htick : OnLine "'" := by decide
    exact htick.append (h _ List.mem_cons_self)
  | _ => exact .empty

theorem LoopScheme.details_onLine (scheme : LoopScheme ρ) (h : ∀ text ∈ scheme.texts, OnLine text) :
    OnLine scheme.details := by
  cases scheme with
  | forLoop parameter reverse _ =>
    have hfor : OnLine "for " := by decide
    refine (hfor.append (h _ List.mem_cons_self)).append ?_
    cases reverse <;> decide
  | plain | whileLoop =>
    dsimp only [details]
    decide

theorem Stmt.details_onLine (stmt : Stmt ρ) (h : ∀ text ∈ stmt.texts, OnLine text) : OnLine stmt.details := by
  cases stmt with
  | loop label scheme _ _ =>
    obtain ⟨hlabel, hscheme⟩ := List.forall_mem_append.mp h
    cases label with
    | none => exact scheme.details_onLine hscheme
    | some label =>
      have hcolon : OnLine ": " := by decide
      exact ((hlabel _ List.mem_cons_self).append hcolon).append (scheme.details_onLine hscheme)
  | block label _ _ _ =>
    cases label with
    | none => exact .empty
    | some label => exact h _ List.mem_cons_self
  | labeled labels _ => exact DefiningName.list_onLine labels h
  | _ => exact .empty

theorem Payload.details_onLine (payload : Payload ρ) (h : ∀ text ∈ payload.texts, OnLine text) :
    OnLine payload.details := by
  cases payload with
  | placeholder => exact .empty
  | unit part =>
    cases part with
    | compilation _ library =>
      have hlibrary : OnLine "library=" := by decide
      exact hlibrary.append (onLine_toString _)
    | withClause units => exact DefiningName.list_onLine units h
    | _ => exact .empty
  | decl part => exact part.details_onLine h
  | type part =>
    cases part with
    | enumeration literals => exact DefiningName.list_onLine literals h
    | _ => exact .empty
  | expr part => exact part.details_onLine h
  | name part => exact part.details_onLine h
  | stmt part => exact part.details_onLine h

namespace Compilation

variable {source : String} {options : Options} {compilation : Compilation}

theorem details_onLine (h : ofSource source options = .ok compilation) (id : NodeId) :
    OnLine (compilation.tree.payload id).details := by
  have htokens : ∀ token ∈ (Cursor.ofSource source).tokens, OnLine token.text := fun token htoken =>
    Token.wellFormed_onLine source token (List.mem_toArray.mp htoken)
  have hcopied := Parser.compile_copied h
  unfold Tree.payload
  split
  · rename_i node hnode
    have hmem : node ∈ compilation.tree.nodes.toList := Array.mem_toList_iff.mpr (Array.mem_of_getElem? hnode)
    exact node.payload.details_onLine fun text htext => (hcopied node hmem text htext).onLine htokens
  · exact .empty

theorem exists_laid (h : ofSource source options = .ok compilation) :
    ∃ entries, compilation.tree.Layered 0 [compilation.root] entries ∧
      entries.map Prod.fst = (compilation.tree.preorder compilation.root).toList ∧
      (entries.map Prod.fst).Nodup ∧
      compilation.tree.Laid entries (compilation.tree.print compilation.root) := by
  obtain ⟨high, node, nodes, hrooted⟩ := Parser.compile_rooted h
  obtain ⟨entries, hlayered, hnodes⟩ := hrooted.forest.exists_layered 0
  have hlength : entries.length ≤ compilation.tree.size := by
    rw [← List.length_map Prod.fst, hnodes, hrooted.length_eq]
  refine ⟨entries, hlayered, hnodes.trans hrooted.preorder_eq.symm, hnodes ▸ hrooted.nodup, ?_⟩
  exact hlayered.print_laid hlength fun entry _ => details_onLine h entry.1

/-- Split into lines, the printed tree of a text has one line for each node, parents first, which starts with the blanks
of its level and its label; and texts that are printed alike have trees of one shape with the same labels. -/
theorem print_determines (h : ofSource source options = .ok compilation) :
    List.Forall₂ (compilation.tree.Shows compilation.root) (compilation.tree.preorder compilation.root).toList
        ((compilation.tree.print compilation.root).toList.splitOn '\n') ∧
      ∀ source' options' compilation', ofSource source' options' = .ok compilation' →
        compilation.tree.print compilation.root = compilation'.tree.print compilation'.root →
        compilation.tree.Alike compilation'.tree [compilation.root] [compilation'.root] := by
  obtain ⟨entries, hlayered, hpreorder, hnodup, hlaid⟩ := exists_laid h
  refine ⟨hpreorder ▸ hlayered.print_shows hlaid hnodup, fun source' options' compilation' h' heq => ?_⟩
  obtain ⟨entries', hlayered', -, -, hlaid'⟩ := exists_laid h'
  exact hlayered.alike_of_laid hlayered' hlaid (heq ▸ hlaid')

def quoted : String := "package P is L : constant CHARACTER := '('; T : constant STRING := \"a\"\"(b)\"; end P;"

def respelled : String := "PACKAGE p IS l:CONSTANT Character:='(';t:CONSTANT String:=\"a\"\"(b)\";END;"

def quotedLines : String :=
  "(Compilation library=1\n  (CompilationUnit\n    (PackageDecl P\n      (ObjectDecl L constant\n" ++
    "        (SubtypeIndication\n          (Identifier CHARACTER :unresolved))\n        (Literal '('))\n" ++
    "      (ObjectDecl T constant\n        (SubtypeIndication\n          (Identifier STRING :unresolved))\n" ++
    "        (Literal \"a\"\"(b)\")))))"

/-- The lines of a package show its eleven nodes, and in another spelling it has them in the same places. -/
theorem print_determines_quoted :
    ∃ compilation compilation', ofSource quoted { predefined := false } = .ok compilation ∧
      ofSource respelled { predefined := false } = .ok compilation' ∧
      compilation.tree.print compilation.root = quotedLines ∧ compilation'.tree.print compilation'.root = quotedLines ∧
      List.Forall₂ (compilation.tree.Shows compilation.root) (compilation.tree.preorder compilation.root).toList
        (quotedLines.toList.splitOn '\n') ∧
      compilation.tree.Alike compilation'.tree [compilation.root] [compilation'.root] := by
  let view : Compilation → String := fun compilation => compilation.tree.print compilation.root
  obtain ⟨compilation, h, hprint⟩ := exists_of_map
    (show (ofSource quoted { predefined := false }).toOption.map view = some quotedLines by decide +kernel)
  obtain ⟨compilation', h', hprint'⟩ := exists_of_map
    (show (ofSource respelled { predefined := false }).toOption.map view = some quotedLines by decide +kernel)
  obtain ⟨hlines, hdetermines⟩ := print_determines h
  exact ⟨compilation, compilation', h, h', hprint, hprint', hprint ▸ hlines,
    hdetermines _ _ _ h' (hprint.trans hprint'.symm)⟩

end Compilation

end AdaSyntax
