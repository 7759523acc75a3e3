import AdaSyntax.Proofs.Compilation
import AdaSyntax.Proofs.Depth
import AdaSyntax.Proofs.Moment.Compilation
import AdaSyntax.Proofs.Scope.Contents

/-!
Package specifications and their bodies. A specification ends with all its declarations bound in open regions; the
region of a body finds them in what the specification has published.
-/

namespace AdaSyntax

open SymbolTable (orderly)

namespace Grammar

open Program

variable {budget : Nat} {parser before ending after now : Parser} {symbol : SymbolId} {name : Name}

def packageInterior (declaring : Option NodeId) (kind : SymbolKind) : Program SymbolId := do
  let start ← position
  expect .kwPackage
  let name ← definingIdentifier
  expectChoice .kwIs
  if ← isAt .kwNew then reject "a basic declaration"
  let node ← reserve start
  let symbol ← declare name kind (declaring.getD node)
  openRegion .package (some symbol)
  let _ ← declarativeItems .packageSpecification
  let _ ← privatePart
  return symbol

def genericFormals : Program NodeId := do
  let start ← position
  expect .kwGeneric
  let node ← reserve start
  openRegion .genericFormal none
  let _ ← .items .genericFormalPart .unrecognizedDeclaration (firstOf Rule.genericFormals)
  return node

def genericInterior : Program SymbolId := do
  let node ← genericFormals
  packageInterior (some node) .genericPackage

theorem find_symbols_finds (finding : Finding) :
    Finds budget (find finding) parser fun _ later => later.symbols = parser.symbols := by
  refine .step fun _ later hperform => ?_
  obtain ⟨-, rfl⟩ := Prod.mk.inj hperform
  exact (parser.find_reports finding).symbols_eq

theorem endName_symbols_finds (expected : Name) :
    Finds budget (endName expected) parser fun _ later => later.symbols = parser.symbols := by
  refine .reads (isAtAny_reads _) fun isName => ?_
  split
  · refine .bind take_symbols_finds fun token later hsymbols => ?_
    dsimp only
    split
    · exact .bind (find_symbols_finds _) fun _ _ hfind => .pure (hfind.trans hsymbols)
    · exact .pure hsymbols
  · exact .pure rfl

theorem closeRegion_run {members : Members} (h : parser.symbols.enclosing ≠ [])
    (hrun : closeRegion.run (call budget) parser = (.matched members, after)) :
    members = parser.symbols.innermost.members ∧ after.symbols = parser.symbols.change .closeRegion := by
  cases henclosing : parser.symbols.enclosing with
  | nil => exact absurd henclosing h
  | cons region rest =>
    simp only [closeRegion, Program.run, Parser.perform, SymbolTable.closeRegion, henclosing] at hrun
    obtain ⟨hmembers, rfl⟩ := Prod.mk.inj hrun
    refine ⟨(Reply.matched.inj hmembers).symm, ?_⟩
    simp only [SymbolTable.change, SymbolTable.closeRegion, henclosing]

theorem publish_run {owner : SymbolId} {members : Members} {value : Unit}
    (hrun : (Program.step (.publish owner members)).run (call budget) parser = (.matched value, after)) :
    after.symbols = parser.symbols.publish owner members := by
  obtain ⟨-, rfl⟩ := Prod.mk.inj hrun
  rfl

theorem fill_run {node : NodeId} {start : Nat} {payload : Payload Nat} {value : Unit}
    (hrun : (fill node start payload).run (call budget) parser = (.matched value, after)) :
    after.symbols = parser.symbols :=
  (congrArg (·.2.symbols) hrun).symm.trans (parser.fillNode_symbols ..)

theorem packageSpecification_interior {declaring : Option NodeId} {kind : SymbolKind} {value : NodeId × SymbolId}
    (hreachable : before.Reachable)
    (hrun : (packageSpecification declaring kind).run (call budget) before = (.matched value, after)) :
    ∃ ending, (packageInterior declaring kind).run (call budget) before = (.matched value.2, ending) ∧
      (ending.symbols.enclosing ≠ [] →
        after.symbols =
          (ending.symbols.change .closeRegion).publish value.2 ending.symbols.innermost.members) := by
  obtain ⟨start, parser₁, hstart, hrun⟩ := run_bind_matched hrun
  obtain ⟨_, parser₂, hpackage, hrun⟩ := run_bind_matched hrun
  obtain ⟨name, parser₃, hname, hrun⟩ := run_bind_matched hrun
  obtain ⟨_, parser₄, his, hrun⟩ := run_bind_matched hrun
  obtain ⟨isInstance, parser₅, hinstance, hrun⟩ := run_bind_matched hrun
  dsimp only at hrun
  split at hrun
  · cases hrun
  · rename_i hnot
    obtain ⟨node, parser₆, hnode, hrun⟩ := run_bind_matched hrun
    obtain ⟨symbol, parser₇, hsymbol, hrun⟩ := run_bind_matched hrun
    obtain ⟨_, parser₈, hopen, hrun⟩ := run_bind_matched hrun
    obtain ⟨visible, parser₉, hvisible, hrun⟩ := run_bind_matched hrun
    obtain ⟨hidden, ending, hhidden, hrun⟩ := run_bind_matched hrun
    obtain ⟨_, behind, hend, hrun⟩ := run_bind_matched hrun
    obtain ⟨endName, named, hendName, hrun⟩ := run_bind_matched hrun
    obtain ⟨members, closed, hclose, hrun⟩ := run_bind_matched hrun
    obtain ⟨_, published, hpublish, hrun⟩ := run_bind_matched hrun
    obtain ⟨_, filled, hfill, hrun⟩ := run_bind_matched hrun
    cases hrun
    -- The steps up to here are those of the interior.
    have hinterior : (packageInterior declaring kind).run (call budget) before = (.matched symbol, ending) := by
      rw [packageInterior, run_bind_of_matched hstart, run_bind_of_matched hpackage, run_bind_of_matched hname,
        run_bind_of_matched his, run_bind_of_matched hinstance, if_neg hnot, run_bind_of_matched hnode,
        run_bind_of_matched hsymbol, run_bind_of_matched hopen, run_bind_of_matched hvisible,
        run_bind_of_matched hhidden]
      rfl
    have hending := run_reachable hreachable hinterior
    have hbehind := run_reachable hending hend
    have hsame : named.symbols = ending.symbols :=
      (endName_symbols_finds _ hbehind _ _ hendName).trans (expect_symbols_finds _ hending _ _ hend)
    refine ⟨ending, hinterior, fun henclosing => ?_⟩
    obtain ⟨rfl, hclosed⟩ := closeRegion_run (hsame ▸ henclosing) hclose
    rw [fill_run hfill, publish_run hpublish, hclosed, hsame]

structure Interior (outer ending : Parser) (symbol : SymbolId) (kind : SymbolKind) : Prop where
  unpublished : ending.symbols.Unpublished symbol kind
  kind : ending.symbols.innermost.kind = .package
  around : ∃ region : Region, region.Extends outer.symbols.innermost ∧
    ending.symbols.enclosing = region :: outer.symbols.enclosing

theorem privatePart_kind_finds :
    Finds budget privatePart parser fun _ later => later.symbols.innermost.kind = parser.symbols.innermost.kind := by
  refine .builds (accept_passes _) fun hasPrivate later hmade => ?_
  rw [← hmade.grown.innermost.1.kind]
  split
  · have hmark : Finds budget (.step .markPrivate) later fun _ marked =>
        marked.symbols.innermost.kind = later.symbols.innermost.kind := by
      refine .step fun _ marked hperform => ?_
      obtain ⟨-, rfl⟩ := Prod.mk.inj hperform
      rfl
    refine .bind (.bind hmark fun _ marked hkind => ?_) fun hidden later hkind => .pure hkind
    exact (Finds.made (declarativeItems_builds _)).mono fun _ _ _ hmade =>
      hmade.grown.innermost.1.kind.trans hkind
  · exact .pure rfl

theorem packageInterior_tends (hcalls : Grammar.Tend orderly budget) (declaring : Option NodeId) (kind : SymbolKind) :
    Tends orderly budget (packageInterior declaring kind) parser fun symbol ending =>
      Interior parser ending symbol kind := by
  refine .reads hcalls (.query rfl) fun start => ?_
  refine .builds hcalls (expect_passes _) fun _ _ hmade => ?_
  refine .builds hcalls definingIdentifier_passes fun name _ hmade' => ?_
  replace hmade := hmade.trans hmade'
  refine .builds hcalls (expectChoice_passes _) fun _ later hmade' => ?_
  replace hmade := hmade.trans hmade'
  refine .reads hcalls (isAt_reads _) fun isInstance => ?_
  dsimp only
  split
  · exact .rejected
  · refine .bind (.of_finds hcalls (reserve_finds _)) fun node reserved ⟨hreserved, _⟩ => ?_
    have hgrown : parser.symbols.Grown reserved.symbols 0 := hreserved ▸ hmade.grown
    refine .reached fun hbefore => ?_
    refine .bind (.of_finds hcalls (declared_finds name kind _)) fun symbol declared hdeclared => ?_
    obtain ⟨declaration, -, rfl, -, rfl, hsymbols, -⟩ := hdeclared
    replace hgrown : parser.symbols.Grown declared.symbols 0 :=
      hsymbols ▸ hgrown.trans (.declare hbefore.reachable.proper declaration)
    have howner := hbefore.holds.unpublished_declare declaration
    rw [← hsymbols] at howner
    refine .reached fun hstart => ?_
    have hfiled : declared.symbols.Filed := hstart.holds.wellFormed.filed
    refine .bind (.of_finds hcalls ((opening_finds .package _ hfiled).both (openRegion_finds .package _))) ?_
    rintro _ opened ⟨hwithin, hopened⟩
    have hkind : opened.symbols.innermost.kind = .package := hopened ▸ rfl
    refine .builds hcalls (declarativeItems_builds _) fun visible later hmade => ?_
    replace hwithin := hwithin.made hmade rfl rfl
    replace hkind := hmade.grown.innermost.1.kind.trans hkind
    refine .bind (.of_finds hcalls ((privatePart_finds hwithin).both privatePart_kind_finds)) ?_
    rintro hidden ending ⟨hwithin, hsame⟩
    refine .pure ⟨howner.grown hwithin.grown, hsame.trans hkind, _, hgrown.innermost.1, ?_⟩
    rw [hwithin.enclosing, hgrown.innermost.2]

theorem genericFormals_tends (hcalls : Grammar.Tend orderly budget) :
    Tends orderly budget genericFormals parser fun _ outer =>
      outer.symbols.innermost.privateStart = none ∧ outer.symbols.enclosing ≠ [] := by
  refine .skip hcalls fun start _ => .skip hcalls fun _ _ => .skip hcalls fun node _ => ?_
  refine .bind (.of_finds hcalls (openRegion_finds .genericFormal none)) fun _ opened hopened => ?_
  refine .builds hcalls (Builds.items (firstOf_builds .declaration (by decide)) rfl) fun formals outer hmade => ?_
  refine .pure ⟨?_, ?_⟩
  · rw [hmade.grown.innermost.1.privateStart, hopened]
    rfl
  · rw [hmade.grown.innermost.2, hopened]
    nofun

theorem genericInterior_tends (hcalls : Grammar.Tend orderly budget) :
    Tends orderly budget genericInterior parser fun symbol ending => ∃ outer, Interior outer ending symbol .genericPackage ∧
      outer.symbols.innermost.privateStart = none ∧ outer.symbols.enclosing ≠ [] :=
  .bind (genericFormals_tends hcalls) fun node outer houter =>
    (packageInterior_tends hcalls (some node) .genericPackage).mono fun _ _ _ h => ⟨outer, h, houter⟩

theorem Interior.enclosing_ne_nil {outer : Parser} {kind : SymbolKind} (h : Interior outer ending symbol kind) :
    ending.symbols.enclosing ≠ [] := by
  obtain ⟨region, -, henclosing⟩ := h.around
  rw [henclosing]
  nofun

theorem packageDeclaration_completed {node : NodeId} (hbefore : orderly.At before)
    (hrun : packageDeclaration.run (call budget) before = (.matched node, after)) :
    ∃ symbol ending, (packageInterior none .package).run (call budget) before = (.matched symbol, ending) ∧
      ending.symbols.Completed after.symbols symbol fun _ => [] := by
  obtain ⟨value, complete, hspecification, hrun⟩ := run_bind_matched hrun
  obtain ⟨_, behind, hsemicolon, hrun⟩ := run_bind_matched hrun
  cases hrun
  obtain ⟨ending, hinterior, hcomplete⟩ := packageSpecification_interior hbefore.reachable hspecification
  have hopen := (packageInterior_tends (tend_orderly budget) none .package hbefore).2.2 _ _ hinterior
  have hsame := expect_symbols_finds .semicolon (run_reachable hbefore.reachable hspecification) _ _ hsemicolon
  refine ⟨value.2, ending, hinterior, ?_⟩
  rw [hsame, hcomplete hopen.enclosing_ne_nil]
  exact .package hopen.unpublished

theorem expect_kind {token : TokenKind} {value : Unit}
    (hrun : (expect token).run (call budget) parser = (.matched value, after)) : parser.kind = token := by
  obtain ⟨token', later, hstep, -⟩ := run_bind_matched hrun
  by_contra hkind
  simp only [Program.run, Parser.perform, Parser.expect, if_neg hkind] at hstep
  split at hstep <;> cases hstep

theorem genericInterior_kind (hrun : genericInterior.run (call budget) before = (.matched symbol, ending)) :
    (genericFormals.run (call budget) before).2.kind = .kwPackage := by
  obtain ⟨node, outer, hformals, hrun⟩ := run_bind_matched hrun
  obtain ⟨_, _, hposition, hrun⟩ := run_bind_matched hrun
  cases hposition
  obtain ⟨_, _, hpackage, -⟩ := run_bind_matched hrun
  rw [hformals]
  exact expect_kind hpackage

theorem genericDeclaration_completed {node : NodeId} (hbefore : orderly.At before)
    (hrun : genericDeclaration.run (call budget) before = (.matched node, after))
    (hpackage : (genericFormals.run (call budget) before).2.kind = .kwPackage) :
    ∃ symbol ending, genericInterior.run (call budget) before = (.matched symbol, ending) ∧
      ending.symbols.Completed after.symbols symbol (ending.symbols.formalPart symbol) := by
  obtain ⟨start, parser₁, hstart, hrun⟩ := run_bind_matched hrun
  obtain ⟨_, parser₂, hgeneric, hrun⟩ := run_bind_matched hrun
  obtain ⟨node, parser₃, hnode, hrun⟩ := run_bind_matched hrun
  obtain ⟨_, parser₄, hopen, hrun⟩ := run_bind_matched hrun
  obtain ⟨formals, outer, hitems, hrun⟩ := run_bind_matched hrun
  obtain ⟨unit, inside, hunit, hrun⟩ := run_bind_matched hrun
  obtain ⟨_, behind, hsemicolon, hrun⟩ := run_bind_matched hrun
  obtain ⟨members, closed, hclose, hrun⟩ := run_bind_matched hrun
  obtain ⟨_, published, hpublish, hrun⟩ := run_bind_matched hrun
  obtain ⟨_, bound, hbind, hrun⟩ := run_bind_matched hrun
  obtain ⟨_, filled, hfill, hrun⟩ := run_bind_matched hrun
  cases hrun
  have hformals : genericFormals.run (call budget) before = (.matched node, outer) := by
    rw [genericFormals, run_bind_of_matched hstart, run_bind_of_matched hgeneric, run_bind_of_matched hnode,
      run_bind_of_matched hopen, run_bind_of_matched hitems]
    rfl
  have hspecification : (packageSpecification (some node) .genericPackage).run (call budget) outer =
      (.matched unit, inside) := by
    have hat : (isAt .kwPackage).run (call budget) outer = (.matched true, outer) := by
      have hread : (isAt .kwPackage).run (call budget) outer = (.matched (outer.kind == .kwPackage), outer) := rfl
      rw [hformals] at hpackage
      rw [hread, hpackage]
      rfl
    rwa [genericUnit, run_bind_of_matched hat, if_pos rfl] at hunit
  have hreachable : outer.Reachable := run_reachable hbefore.reachable hformals
  obtain ⟨ending, hinterior, hcomplete⟩ := packageSpecification_interior hreachable hspecification
  have hending : genericInterior.run (call budget) before = (.matched unit.2, ending) := by
    rw [genericInterior, run_bind_of_matched hformals, hinterior]
  refine ⟨unit.2, ending, hending, ?_⟩
  obtain ⟨around, hopened, hprivate, hnested⟩ := (genericInterior_tends (tend_orderly budget) hbefore).2.2 _ _ hending
  obtain ⟨region, hextends, henclosing⟩ := hopened.around
  -- The package closes its region and publishes first, then the region of the formals does the same.
  have hinside := hcomplete hopened.enclosing_ne_nil
  have hbehind := expect_symbols_finds .semicolon (run_reachable hreachable hspecification) _ _ hsemicolon
  have houter : behind.symbols.enclosing ≠ [] := by
    rw [hbehind, hinside]
    simpa [SymbolTable.publish, SymbolTable.change, SymbolTable.closeRegion, henclosing] using hnested
  obtain ⟨rfl, hclosed⟩ := closeRegion_run houter hclose
  have hbound : bound.symbols = (published.symbols.bind unit.2).2 := by
    obtain ⟨-, rfl⟩ := Prod.mk.inj hbind
    exact Parser.reportDeclared_symbols ..
  rw [fill_run hfill, hbound, publish_run hpublish, hclosed, hbehind, hinside]
  exact .generic hopened.unpublished henclosing (hextends.privateStart.trans hprivate)

def specification (isGeneric : Bool) : Program NodeId := if isGeneric then genericDeclaration else packageDeclaration

def interior (isGeneric : Bool) : Program SymbolId := if isGeneric then genericInterior else packageInterior none .package

theorem openBody_execute (unit : SymbolId) (parser : Parser) :
    ((openBody (some unit)).execute parser).2.symbols =
      (parser.symbols.openRegion .packageBody (some unit)).addImport unit .body :=
  rfl

theorem package_resolve {node : NodeId} (hbefore : orderly.At before)
    (hrun : packageDeclaration.run (call budget) before = (.matched node, after))
    (hending : (packageInterior none .package).run (call budget) before = (.matched symbol, ending))
    (hnow : orderly.At now) (hlater : now.symbols.RevertsTo after.symbols)
    (hany : ending.symbols.visiblePart name ++ [] ++ ending.symbols.privatePart name ≠ []) :
    ((openBody (some symbol)).execute now).2.symbols.resolve name = ending.symbols.resolve name := by
  obtain ⟨hend, -, hinterior⟩ := packageInterior_tends (tend_orderly budget) none .package hbefore
  rw [hending] at hend
  obtain ⟨symbol', ending', hsame, hcompleted⟩ := packageDeclaration_completed hbefore hrun
  obtain ⟨rfl, rfl⟩ : symbol' = symbol ∧ ending' = ending := by simpa using hsame.symm.trans hending
  have hformals : ([] : List SymbolId) ≠ [] → ∃ region rest, ending'.symbols.enclosing = region :: rest ∧
      region.bindings.get name = [] := fun h => absurd rfl h
  rw [openBody_execute]
  exact hcompleted.resolve_eq hend.holds (hinterior _ _ hending).kind hnow.holds hlater hformals hany
    (fun _ h => absurd rfl h) (some symbol')

theorem generic_resolve {node : NodeId} (hbefore : orderly.At before)
    (hrun : genericDeclaration.run (call budget) before = (.matched node, after))
    (hending : genericInterior.run (call budget) before = (.matched symbol, ending))
    (hnow : orderly.At now) (hlater : now.symbols.RevertsTo after.symbols)
    (hany : ending.symbols.visiblePart name ++ ending.symbols.formalPart symbol name ++
      ending.symbols.privatePart name ≠ [])
    (hclear : ending.symbols.visiblePart name ≠ [] → ending.symbols.formalPart symbol name ≠ [] →
      ending.symbols.privatePart name ≠ []) :
    ((openBody (some symbol)).execute now).2.symbols.resolve name = ending.symbols.resolve name := by
  obtain ⟨hend, -, hinterior⟩ := genericInterior_tends (tend_orderly budget) hbefore
  rw [hending] at hend
  obtain ⟨outer, hopen, -, -⟩ := hinterior _ _ hending
  obtain ⟨region, -, henclosing⟩ := hopen.around
  have hregion : region.WellFormed ending.symbols :=
    hend.holds.wellFormed.regions region (by simp [SymbolTable.regions, henclosing])
  obtain ⟨symbol', ending', hsame, hcompleted⟩ := genericDeclaration_completed hbefore hrun (genericInterior_kind hending)
  obtain ⟨rfl, rfl⟩ : symbol' = symbol ∧ ending' = ending := by simpa using hsame.symm.trans hending
  rw [openBody_execute]
  refine hcompleted.resolve_eq hend.holds hopen.kind hnow.holds hlater (fun hsome => ⟨region, _, henclosing, ?_⟩) hany
    hclear (some symbol')
  exact SymbolTable.formalPart_eq henclosing hregion hopen.unpublished.kind hsome

/-- A package body sees what its specification saw. A package specification that matches, generic or not, has been in
front of its end; and for every name that it declares, formals of a generic package included, the region of the body
finds at every later moment what was found there. Excepted are names that stand both for a formal and for a
declaration of the visible part, and for none of the private part. -/
theorem packageBody_sees {isGeneric : Bool} {node : NodeId} (hbefore : before.Moment)
    (hrun : (specification isGeneric).run (call budget) before = (.matched node, after)) :
    ((isGeneric = true → (genericFormals.run (call budget) before).2.kind = .kwPackage) →
      ∃ symbol ending, (interior isGeneric).run (call budget) before = (.matched symbol, ending)) ∧
    ∀ symbol ending, (interior isGeneric).run (call budget) before = (.matched symbol, ending) →
      ∀ now : Parser, now.Moment → now.symbols.RevertsTo after.symbols → ∀ name,
        let visible := ending.symbols.visiblePart name
        let formals := if isGeneric then ending.symbols.formalPart symbol name else []
        let hidden := ending.symbols.privatePart name
        visible ≠ [] ∨ formals ≠ [] ∨ hidden ≠ [] → ¬(visible ≠ [] ∧ formals ≠ [] ∧ hidden = []) →
          ((openBody (some symbol)).execute now).2.symbols.resolve name = ending.symbols.resolve name := by
  have hstart := hbefore.at
  cases isGeneric with
  | false =>
    refine ⟨fun _ => ?_, fun symbol ending hending now hnow hlater name hany _ => ?_⟩
    · obtain ⟨symbol, ending, hinterior, -⟩ := packageDeclaration_completed hstart hrun
      exact ⟨symbol, ending, hinterior⟩
    · refine package_resolve hstart hrun hending hnow.at hlater ?_
      simpa [List.append_eq_nil_iff, or_iff_not_imp_left] using hany
  | true =>
    refine ⟨fun hpackage => ?_, fun symbol ending hending now hnow hlater name hany hclear => ?_⟩
    · obtain ⟨symbol, ending, hinterior, -⟩ := genericDeclaration_completed hstart hrun (hpackage rfl)
      exact ⟨symbol, ending, hinterior⟩
    · refine generic_resolve hstart hrun hending hnow.at hlater ?_ fun hvisible hformals hhidden =>
        hclear ⟨hvisible, hformals, hhidden⟩
      rw [if_pos rfl] at hany
      rw [Ne, List.append_eq_nil_iff, List.append_eq_nil_iff]
      tauto

def specificationStart : Parser :=
  .new (.ofSource "generic type U is private; package G is type T is private; C : constant T; private type T is range 1 .. 9; end G;")
    { predefined := false }

def interiorRun : Reply SymbolId × Parser :=
  (interior true).run (call (callBudget specificationStart - 1)) specificationStart.deeper

def specificationRun : Reply NodeId × Parser :=
  (specification true).run (call (callBudget specificationStart - 1)) specificationStart.deeper

/-- A formal, a private type with its full declaration, and a constant of the visible part. -/
theorem packageBody_sees_generic :
    ∃ unit, specificationRun.2.Moment ∧ ∀ name ∈ [⟨"U"⟩, ⟨"T"⟩, ⟨"C"⟩],
      ((openBody (some unit)).execute specificationRun.2).2.symbols.resolve name =
        interiorRun.2.symbols.resolve name ∧ interiorRun.2.symbols.resolve name ≠ .unresolved := by
  have hruns : ¬specificationStart.options.maxDepth ≤ specificationStart.depth ∧
      specificationRun.1.value? = some ⟨0⟩ ∧ interiorRun.1.value? = some ⟨1⟩ ∧
      ∀ name ∈ [(⟨"U"⟩ : Name), ⟨"T"⟩, ⟨"C"⟩],
        (interiorRun.2.symbols.visiblePart name ≠ [] ∨ interiorRun.2.symbols.formalPart ⟨1⟩ name ≠ [] ∨
          interiorRun.2.symbols.privatePart name ≠ []) ∧
        ¬(interiorRun.2.symbols.visiblePart name ≠ [] ∧ interiorRun.2.symbols.formalPart ⟨1⟩ name ≠ [] ∧
          interiorRun.2.symbols.privatePart name = []) ∧
        interiorRun.2.symbols.resolve name ≠ .unresolved := by decide +kernel
  obtain ⟨hdepth, hreply, hsymbol, hparts⟩ := hruns
  have hdescend : specificationStart.descend = .ok specificationStart.deeper := if_neg hdepth
  have hbefore : specificationStart.deeper.Moment := .rule_first (.library _ _) hdescend .genericDeclaration
  have hafter : specificationRun.2.Moment := .rule_last (.library _ _) hdescend .genericDeclaration
  have hrun : specificationRun = (.matched ⟨0⟩, specificationRun.2) := Reply.result_eq hreply
  have hending : interiorRun = (.matched ⟨1⟩, interiorRun.2) := Reply.result_eq hsymbol
  have hsees := (packageBody_sees hbefore hrun).2 ⟨1⟩ interiorRun.2 hending specificationRun.2 hafter (.refl _)
  refine ⟨⟨1⟩, hafter, fun name hname => ?_⟩
  obtain ⟨hdeclared, hclear, hfound⟩ := hparts name hname
  exact ⟨hsees name hdeclared hclear, hfound⟩

end Grammar

namespace Compilation

def hiddenFormal : String :=
  "generic type U is private; T : U; package G is type T is range 1 .. 9; Y : T; end G; package body G is X : T; end G;"

/-- The name denotes the type in the specification, and the formal in the body. -/
theorem hiddenFormal_reappears :
    ∃ compilation, ofSource hiddenFormal { predefined := false } = .ok compilation ∧
      compilation.tree.payload ⟨10⟩ = .name (.identifier ⟨"T"⟩ (some ⟨4⟩) .type) ∧
      compilation.tree.payload ⟨14⟩ = .name (.identifier ⟨"T"⟩ (some ⟨1⟩) .constant) := by
  have hnames : (ofSource hiddenFormal { predefined := false }).toOption.map
      (fun compilation => [10, 14].map fun id => compilation.tree.payload ⟨id⟩) =
      some [.name (.identifier ⟨"T"⟩ (some ⟨4⟩) .type), .name (.identifier ⟨"T"⟩ (some ⟨1⟩) .constant)] := by
    decide +kernel
  obtain ⟨compilation, hresult, hpayloads⟩ := exists_of_map hnames
  exact ⟨compilation, hresult, by simpa using hpayloads⟩

end Compilation

end AdaSyntax
