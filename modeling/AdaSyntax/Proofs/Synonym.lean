import AdaSyntax.Proofs.Compilation
import AdaSyntax.Proofs.Depth
import AdaSyntax.Proofs.Moment.Compilation

/-!
Package renamings. The new name of a package is given what the package has published by then. A package publishes
when its specification ends, and not again; so from then on a name behind either of them means the same, except
where a region of one of them is open that knows more.
-/

namespace AdaSyntax

namespace SymbolTable

theorem resolveMember_eq_visible {table : SymbolTable} {owner : SymbolId} {contents : Contents} {name : Name}
    (hcontents : table.published? owner = some contents)
    (hclear : ∀ region ∈ table.regions, region.owner = some owner →
      region.bindings.get name = [] ∧ contents.hidden.get name = []) :
    table.resolveMember owner name = table.resolution (contents.visible.get name).getLast? := by
  unfold resolveMember
  extract_lets inside
  have hinside : ∀ region ∈ inside, region.bindings.get name = [] ∧ contents.hidden.get name = [] := by
    intro region hregion
    obtain ⟨hmem, howner⟩ := List.mem_filter.mp hregion
    exact hclear region hmem (of_decide_eq_true howner)
  have hopen : (inside.findSome? fun region => (region.bindings.get name).getLast?) = none := by
    refine List.findSome?_eq_none_iff.mpr fun region hregion => ?_
    rw [(hinside region hregion).1]
    rfl
  have hpublished : table.lookupPublished owner name (!inside.isEmpty) = (contents.visible.get name).getLast? := by
    simp only [lookupPublished, hcontents, Option.bind_some, Contents.get?]
    cases hinside' : inside with
    | nil => rfl
    | cons region rest =>
      have hhidden := (hinside region (hinside' ▸ List.mem_cons_self)).2
      simp [hhidden]
  rw [hopen, hpublished]

theorem published?_publishAlias {table : SymbolTable} {synonym target : SymbolId} {contents : Contents}
    (hcontents : table.published? target = some contents) :
    (table.publishAlias synonym target).published? synonym = some contents ∧
      (table.publishAlias synonym target).published? target = some contents := by
  have hself : (table.publishAlias synonym target).published? synonym = some contents := by
    simp only [publishAlias, hcontents]
    exact lookup_setContents_self synonym contents table.contents
  refine ⟨hself, ?_⟩
  by_cases heq : target = synonym
  · exact heq ▸ hself
  · simp only [publishAlias, hcontents]
    exact (lookup_setContents_of_ne contents table.contents heq).trans hcontents

end SymbolTable

namespace Grammar

open Program

variable {budget : Nat} {parser : Parser}

theorem resolveSelector_package (owner : SymbolId) (selector : Name) (parser : Parser) :
    (resolveSelector (some owner, .package) selector).execute parser =
      (.matched (.expanded, parser.symbols.resolveMember owner selector), parser) :=
  rfl

theorem publishAs_symbols_finds (synonym : SymbolId) (target : Option SymbolId) :
    Finds budget (publishAs synonym target) parser fun _ later => later.tree = parser.tree ∧
      later.symbols.symbols = parser.symbols.symbols ∧
      ∀ id, target = some id → later.symbols = parser.symbols.publishAlias synonym id := by
  cases target with
  | none => exact .pure ⟨rfl, rfl, nofun⟩
  | some target =>
    refine .step fun _ later hperform => ?_
    obtain ⟨-, rfl⟩ := Prod.mk.inj hperform
    refine ⟨rfl, ?_, fun id hid => Option.some.inj hid ▸ rfl⟩
    rcases parser.symbols.publishAlias_eq synonym target with heq | ⟨contents, heq⟩ <;> exact congrArg (·.symbols) heq

theorem packageRenaming_finds :
    Finds budget packageRenaming parser fun node later => ∃ name renamed synonym,
      later.tree.payload node = .decl (.renames name .package renamed) ∧
      (∃ symbol, later.symbols.symbol? synonym = some symbol ∧ symbol.name = name.name ∧ symbol.kind = .package ∧
        symbol.node = some node) ∧
      ∀ target contents, (later.tree.payload renamed).classify.1 = some target → parser.symbols.Has target →
        parser.symbols.published? target = some contents →
        later.symbols.published? synonym = some contents ∧ later.symbols.published? target = some contents := by
  refine .position <| .builds advance_passes fun _ moved hmoved => ?_
  refine .builds definingIdentifier_passes fun name named hnamed => ?_
  refine .builds renamedEntity_builds fun renamed read hread => ?_
  refine .bind (add_finds _ _) fun node added ⟨hadded, _, hpayload, _⟩ => ?_
  refine .bind (declared_finds name .package node) fun synonym declared hsynonym => ?_
  obtain ⟨declaration, hname, hkind, hnode, hid, hdeclared, htree⟩ := hsynonym
  refine .computes (classify_computes renamed) ?_
  refine .bind (publishAs_symbols_finds _ _) fun _ later ⟨hlater, hsame, hpublished⟩ => .pure ?_
  rw [← htree, ← hlater] at hpayload
  refine ⟨_, renamed, synonym, hpayload, ?_, fun target contents htarget hhas hcontents => ?_⟩
  · have hsymbol : later.symbols.symbol? synonym = some { declaration with
        region := added.symbols.innermost.id, depth := added.symbols.depth } := by
      rw [SymbolTable.symbol?, hsame, hdeclared, SymbolTable.declare_symbols, hid]
      exact Array.getElem?_push_size
    exact ⟨_, hsymbol, hname, hkind, hnode⟩
  · have hgrown := ((hmoved.trans hnamed).trans hread).grown
    have hknown : declared.symbols.published? target = some contents := by
      rw [hdeclared, SymbolTable.published?, SymbolTable.declare_contents, hadded]
      exact (hgrown.published target hhas).trans hcontents
    rw [hlater] at htarget
    rw [hpublished target htarget]
    exact SymbolTable.published?_publishAlias hknown

/-- A renaming declares a new name for the package, and when the specification of the package has ended before, a
name behind either of them means the same at every later moment: where no region of the package is open, and in
its body for what is neither declared there nor in the private part. -/
theorem packageRenaming_denotes {before after : Parser} {node : NodeId} (hbefore : before.Moment)
    (hrun : packageRenaming.run (call budget) before = (.matched node, after)) :
    ∃ name renamed synonym, after.tree.payload node = .decl (.renames name .package renamed) ∧
      (∃ symbol, after.symbols.symbol? synonym = some symbol ∧ symbol.name = name.name ∧ symbol.kind = .package ∧
        symbol.node = some node) ∧
      ∀ target contents, (after.tree.payload renamed).classify.1 = some target →
        before.symbols.kindOf target = .package → before.symbols.published? target = some contents →
        ∀ now : Parser, now.Moment → now.symbols.RevertsTo after.symbols → ∀ selector,
          (∀ region ∈ now.symbols.regions, region.owner = some synonym ∨ region.owner = some target →
            region.bindings.get selector = [] ∧ contents.hidden.get selector = []) →
          (resolveSelector (some synonym, .package) selector).execute now =
            (resolveSelector (some target, .package) selector).execute now := by
  have hstart := hbefore.at
  obtain ⟨name, renamed, synonym, hnode, ⟨symbol, hsymbol, hname, hkind, hown⟩, hpublished⟩ :=
    packageRenaming_finds hstart.reachable node after hrun
  refine ⟨name, renamed, synonym, hnode, ⟨symbol, hsymbol, hname, hkind, hown⟩, ?_⟩
  intro target contents htarget hpackage hcontents now hnow hreverts selector hclear
  have hhas : before.symbols.Has target := by
    by_contra hnot
    cases hcontents.symm.trans (hstart.holds.published?_of_not_has hnot)
  obtain ⟨hsynonym, hsame⟩ := hpublished target contents htarget hhas hcontents
  have hmade : before.Made after true (.declaration node) :=
    Finds.made packageRenaming_builds hstart.reachable node after hrun
  have hafter : SymbolTable.orderly.At (packageRenaming.run (call budget) before).2 :=
    Maintains.run_at (tend_orderly budget) before hstart
  rw [hrun] at hafter
  have hsynonymKind : after.symbols.kindOf synonym ≠ .genericPackage := by
    simp [SymbolTable.kindOf, hsymbol, hkind]
  have htargetKind : after.symbols.kindOf target ≠ .genericPackage := by
    rw [SymbolTable.kindOf_eq_of_has hmade.grown.reverts.symbols hhas, hpackage]
    decide
  -- Packages publish once, so both names still have what they had behind the renaming.
  have hfinal := hnow.at.holds.published?_final hafter.holds hreverts hsynonymKind hsynonym
  have hfinal' := hnow.at.holds.published?_final hafter.holds hreverts htargetKind hsame
  rw [resolveSelector_package, resolveSelector_package,
    SymbolTable.resolveMember_eq_visible hfinal fun region hregion howner => hclear region hregion (.inl howner),
    SymbolTable.resolveMember_eq_visible hfinal' fun region hregion howner => hclear region hregion (.inr howner)]

def renamingStart : Parser := .new (.ofSource "package S renames STANDARD;") { predefined := true }

def renamingRun : Reply NodeId × Parser :=
  renamingDeclaration.run (call (callBudget renamingStart - 1)) renamingStart.deeper

theorem renamingDeclaration_run (hkind : parser.kind = .kwPackage) :
    renamingDeclaration.run (call budget) parser = packageRenaming.run (call budget) parser := by
  have hstep : (Program.step .kind).run (call budget) parser = (.matched .kwPackage, parser) := by
    rw [← hkind]
    rfl
  rw [renamingDeclaration, Program.kind, run_bind_of_matched hstep]

/-- Behind both names, the type INTEGER is found. -/
theorem packageRenaming_denotes_standard :
    ∃ target synonym integer, renamingRun.2.Moment ∧ target ≠ synonym ∧
      (resolveSelector (some target, .package) ⟨"INTEGER"⟩).execute renamingRun.2 =
        (.matched (.expanded, ⟨some integer, .type⟩), renamingRun.2) ∧
      (resolveSelector (some synonym, .package) ⟨"INTEGER"⟩).execute renamingRun.2 =
        (.matched (.expanded, ⟨some integer, .type⟩), renamingRun.2) := by
  have hstart : ¬renamingStart.options.maxDepth ≤ renamingStart.depth ∧ renamingStart.deeper.kind = .kwPackage ∧
      renamingStart.deeper.symbols.kindOf ⟨36⟩ = .package ∧
      (renamingStart.deeper.symbols.published? ⟨36⟩).isSome = true := by decide +kernel
  have hrenamed : renamingRun.1.value? = some ⟨1⟩ ∧
      (renamingRun.2.tree.payload ⟨1⟩).children = [⟨0⟩] ∧
      (renamingRun.2.tree.payload ⟨0⟩).classify.1 = some ⟨36⟩ ∧
      (renamingRun.2.symbols.symbol? ⟨36⟩).map (·.node) = some none ∧
      (∀ region ∈ renamingRun.2.symbols.regions, region.owner = none) ∧
      renamingRun.2.symbols.resolveMember ⟨36⟩ ⟨"INTEGER"⟩ = ⟨some ⟨1⟩, .type⟩ := by decide +kernel
  obtain ⟨hdepth, hkind, hpackage, hpublished⟩ := hstart
  obtain ⟨hreply, hchildren, hclass, hpredefined, hunowned, hstandard⟩ := hrenamed
  have hdescend : renamingStart.descend = .ok renamingStart.deeper := if_neg hdepth
  have hbefore : renamingStart.deeper.Moment := .rule_first (.library _ _) hdescend .renamingDeclaration
  have hafter : renamingRun.2.Moment := .rule_last (.library _ _) hdescend .renamingDeclaration
  have hrun : packageRenaming.run (call (callBudget renamingStart - 1)) renamingStart.deeper =
      (.matched ⟨1⟩, renamingRun.2) := by
    rw [← renamingDeclaration_run hkind]
    exact Reply.result_eq hreply
  obtain ⟨name, renamed, synonym, hnode, ⟨symbol, hsymbol, -, -, hown⟩, hsame⟩ := packageRenaming_denotes hbefore hrun
  obtain rfl : renamed = ⟨0⟩ := by
    rw [hnode] at hchildren
    exact List.head_eq_of_cons_eq hchildren
  obtain ⟨contents, hcontents⟩ := Option.isSome_iff_exists.mp hpublished
  have hsynonym := hsame ⟨36⟩ contents hclass hpackage hcontents renamingRun.2 hafter (.refl _) ⟨"INTEGER"⟩
    fun region hregion howner => by simp [hunowned region hregion] at howner
  rw [resolveSelector_package _ _ renamingRun.2, resolveSelector_package _ _ renamingRun.2, hstandard] at hsynonym
  refine ⟨⟨36⟩, synonym, ⟨1⟩, hafter, ?_, ?_, ?_⟩
  · rintro rfl
    rw [hsymbol, Option.map_some, hown] at hpredefined
    cases hpredefined
  · rw [resolveSelector_package, hstandard]
  · rw [resolveSelector_package]
    exact hsynonym

end Grammar

namespace Compilation

def innerRenaming : String :=
  "package P is package Q renames P; type T is range 1 .. 9; X : Q.T; Y : P.T; end P;"

/-- Behind the new name, the type is not found. -/
theorem innerRenaming_unresolved :
    ∃ compilation, ofSource innerRenaming { predefined := false } = .ok compilation ∧
      compilation.tree.payload ⟨8⟩ = .name (.identifier ⟨"Q"⟩ (some ⟨1⟩) .package) ∧
      compilation.tree.payload ⟨9⟩ = .name (.selected ⟨8⟩ ⟨"T"⟩ .expanded none .unresolved) ∧
      compilation.tree.payload ⟨12⟩ = .name (.identifier ⟨"P"⟩ (some ⟨0⟩) .package) ∧
      compilation.tree.payload ⟨13⟩ = .name (.selected ⟨12⟩ ⟨"T"⟩ .expanded (some ⟨3⟩) .type) := by
  have hnames : (ofSource innerRenaming { predefined := false }).toOption.map
      (fun compilation => [8, 9, 12, 13].map fun id => compilation.tree.payload ⟨id⟩) =
      some [.name (.identifier ⟨"Q"⟩ (some ⟨1⟩) .package), .name (.selected ⟨8⟩ ⟨"T"⟩ .expanded none .unresolved),
        .name (.identifier ⟨"P"⟩ (some ⟨0⟩) .package), .name (.selected ⟨12⟩ ⟨"T"⟩ .expanded (some ⟨3⟩) .type)] := by
    decide +kernel
  obtain ⟨compilation, hresult, hpayloads⟩ := exists_of_map hnames
  exact ⟨compilation, hresult, by simpa using hpayloads⟩

end Compilation

end AdaSyntax
