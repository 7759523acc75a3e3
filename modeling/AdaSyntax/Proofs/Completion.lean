import AdaSyntax.Compilation
import AdaSyntax.Proofs.Depth
import AdaSyntax.Proofs.Moment.Unit
import AdaSyntax.Proofs.Scope.Contents

/-!
Specifications that complete a generic subprogram. They see its formals; which subprogram that is, is found out by
resolving the name, from the region of the specification outward.
-/

namespace AdaSyntax

namespace SymbolTable

variable {table : SymbolTable} {name : Name} {id : SymbolId} {ofSubunit : Bool}

/-- What the library binds a name to last, in the context of a library unit. -/
def libraryBinding (table : SymbolTable) (name : Name) : Option SymbolId :=
  match table.enclosing with
  | [library] => (library.bindings.get name).getLast?
  | _ => none

/-- The last binding of a name in the declarative region that the innermost region belongs to. The body of a package
and the context of a subunit go on with what the specification has published, the context of a library unit, for which
nothing is imported that way, with the library. -/
def priorBinding (table : SymbolTable) (ofSubunit : Bool) (name : Name) : Option SymbolId :=
  (table.innermost.bindings.get name).getLast?.or <|
    match table.innermost.kind with
    | .packageBody => table.lookupImports table.innermost name .body
    | .context =>
      (table.lookupImports table.innermost name .body).or (if ofSubunit then none else table.libraryBinding name)
    | _ => none

theorem resolve_of_priorBinding (h : table.priorBinding ofSubunit name = some id) :
    table.resolve name = table.resolution (some id) := by
  unfold priorBinding at h
  rcases Option.or_eq_some_iff.mp h with hlast | ⟨hnone, h⟩
  · have hsome : table.innermost.bindings.get name ≠ [] := by
      rintro hnil
      rw [hnil] at hlast
      cases hlast
    rw [resolve_innermost hsome, hlast]
  rw [List.getLast?_eq_none_iff] at hnone
  split at h
  · exact resolve_imported hnone h
  · rename_i hkind
    rcases Option.or_eq_some_iff.mp h with himported | ⟨hnotImported, h⟩
    · exact resolve_imported hnone himported
    split at h
    · cases h
    unfold libraryBinding at h
    split at h
    · rename_i library henclosing
      exact resolve_enclosing hnone (hkind ▸ rfl) hnotImported henclosing h
    · cases h
  · cases h

def templateFor (kind : SymbolKind) (earlier : Resolution) : Option SymbolId :=
  if earlier.kind.isGeneric && kind.completes earlier.kind then earlier.symbol else none

def importing (imports : List Import) : Invariant where
  holds table := table.innermost.imports = imports
  counter h _ := h
  declare {table} declaration h := (table.declare_imports declaration).trans h
  everywhere := false

end SymbolTable

namespace Grammar

open Program SymbolTable

variable {α : Type} {budget : Nat} {parser before after : Parser}

theorem subprogramKind_symbols_finds :
    Finds budget subprogramKind parser fun _ later => later.symbols = parser.symbols := by
  refine .reads (Reads.query rfl) fun kind => ?_
  split
  · exact .bind (.bind take_symbols_finds fun _ _ hsymbols => .pure hsymbols) fun _ _ hsymbols => .pure hsymbols
  · exact .bind (.bind take_symbols_finds fun _ _ hsymbols => .pure hsymbols) fun _ _ hsymbols => .pure hsymbols
  · rintro - _ _ ⟨⟩

theorem definingIdentifier_symbols_finds :
    Finds budget definingIdentifier parser fun _ later => later.symbols = parser.symbols :=
  .bind (expectToken_symbols_finds .identifier) fun _ _ hsymbols => .pure hsymbols

theorem subprogramDesignator_symbols_finds (kind : SubprogramKind) :
    Finds budget (subprogramDesignator kind) parser fun _ later => later.symbols = parser.symbols := by
  cases kind with
  | procedure => exact definingIdentifier_symbols_finds
  | function =>
    refine .reads (isAt_reads _) fun isOperator => ?_
    split
    · exact .bind take_symbols_finds fun _ _ hsymbols => .pure hsymbols
    · exact definingIdentifier_symbols_finds

theorem importing_finds {program : Program α} [program.Maintains (importing parser.symbols.innermost.imports)] :
    Finds budget program parser fun _ later =>
      later.symbols.innermost.imports = parser.symbols.innermost.imports := by
  -- Expressions are all that parameters and results call, and those import nothing either.
  intro hreachable value later hrun
  have hcalls : Grammar.Tend (importing parser.symbols.innermost.imports) budget :=
    Grammar.tend (fun _ hallowed => ofProduction_maintains (by simpa [Invariant.allows, importing] using hallowed)) budget
  have hend : (importing parser.symbols.innermost.imports).At (program.run (call budget) parser).2 :=
    Maintains.run_at hcalls parser ⟨hreachable, rfl⟩
  rw [hrun] at hend
  exact hend.holds

structure Inside (parser : Parser) (symbol : SymbolId) (kind : SymbolKind) (imports : List Import) : Prop where
  has : parser.symbols.Has symbol
  symbolKind : parser.symbols.kindOf symbol = kind
  kind : parser.symbols.innermost.kind = .subprogram
  owner : parser.symbols.innermost.owner = some symbol
  imports : parser.symbols.innermost.imports = imports

namespace Inside

variable {later : Parser} {symbol : SymbolId} {kind : SymbolKind} {imports imports' : List Import}

theorem grown (h : Inside parser symbol kind imports) (hgrown : parser.symbols.Grown later.symbols 0)
    (himports : later.symbols.innermost.imports = imports') : Inside later symbol kind imports' where
  has := h.has.mono hgrown.reverts.symbols
  symbolKind := (kindOf_eq_of_has hgrown.reverts.symbols h.has).trans h.symbolKind
  kind := hgrown.innermost.1.kind.trans h.kind
  owner := hgrown.innermost.1.owner.trans h.owner
  imports := himports

theorem builds {program : Program α} {moved : Bool} {yield : α → Yield}
    [program.Maintains (importing parser.symbols.innermost.imports)] (h : Inside parser symbol kind imports)
    (hbuilds : Builds (call budget) program moved yield) (hopened : ∀ value, (yield value).opened = []) :
    Finds budget program parser fun _ later => Inside later symbol kind imports := by
  refine ((Finds.made hbuilds).both importing_finds).mono fun value later _ ⟨hmade, himports⟩ => ?_
  have hgrown := hmade.grown
  rw [hopened] at hgrown
  exact h.grown hgrown (himports.trans h.imports)

theorem importFormals (h : Inside parser symbol kind []) (earlier : Resolution) :
    Finds budget (importFormals kind earlier) parser fun _ later =>
      Inside later symbol kind ((templateFor kind earlier).toList.map (⟨·, .body⟩)) := by
  unfold Grammar.importFormals templateFor
  cases earlier.symbol with
  | none => simpa using .pure h
  | some template =>
    dsimp only
    split
    · refine .step fun _ later hperform => ?_
      obtain ⟨-, rfl⟩ := Prod.mk.inj hperform
      exact h.grown (.addImport ..) (congrArg (· ++ [(⟨template, .body⟩ : Import)]) h.imports)
    · exact .pure h

end Inside

theorem subprogramSpecification_inside (node : NodeId) (isGeneric : Bool) :
    Finds budget (subprogramSpecification node isGeneric) parser fun header later => ∃ kind,
      Inside later header.symbol (subprogramSymbolKind isGeneric kind)
        ((templateFor (subprogramSymbolKind isGeneric kind) (parser.symbols.resolve header.name.name)).toList.map
          (⟨·, .body⟩)) := by
  refine .position ?_
  refine .bind subprogramKind_symbols_finds fun kind later hsymbols => ?_
  refine .bind (subprogramDesignator_symbols_finds kind) fun name later hsymbols' => ?_
  rw [← hsymbols, ← hsymbols']
  refine .query rfl ?_
  refine .bind (declared_finds name _ node) fun symbol declared hdeclared => ?_
  obtain ⟨declaration, -, hkind, -, rfl, hdeclared, -⟩ := hdeclared
  refine .bind (openRegion_finds .subprogram _) fun _ opened hopened => ?_
  have hinside : Inside opened (later.symbols.declare declaration).1 declaration.kind [] := by
    rw [hdeclared] at hopened
    exact ⟨hopened ▸ has_declare .., hopened ▸ kindOf_declare .., hopened ▸ rfl, hopened ▸ rfl, hopened ▸ rfl⟩
  rw [hkind] at hinside
  refine .bind (hinside.importFormals _) fun _ imported hinside => ?_
  refine .bind (hinside.builds formalPart_builds fun _ => rfl) fun parameters headed hinside => ?_
  refine .bind (hinside.builds (resultMark_builds kind) fun _ => rfl) fun result complete hinside => ?_
  refine .bind (add_finds _ _) fun spec after ⟨hsame, _⟩ => .pure ⟨kind, ?_⟩
  exact hinside.grown (hsame ▸ .refl _) (hsame ▸ hinside.imports)

theorem subprogramSymbolKind_completes {isGeneric : Bool} {kind : SubprogramKind} {earlier : SymbolKind}
    (h : (subprogramSymbolKind isGeneric kind).completes earlier = true) : earlier.isGeneric = true := by
  cases kind <;> cases isGeneric <;> cases earlier <;> first | rfl | cases h

theorem templateFor_eq_some {isGeneric : Bool} {kind : SubprogramKind} {earlier : Resolution} {template : SymbolId} :
    templateFor (subprogramSymbolKind isGeneric kind) earlier = some template ↔
      (subprogramSymbolKind isGeneric kind).completes earlier.kind = true ∧ earlier.symbol = some template := by
  unfold templateFor
  by_cases hcompletes : (subprogramSymbolKind isGeneric kind).completes earlier.kind = true
  · simp [hcompletes, subprogramSymbolKind_completes hcompletes]
  · simp [hcompletes]

/-- The region of a subprogram that matches its specification imports a generic subprogram for a body exactly when the
subprogram completes it: its name was bound to the generic subprogram last, in the region where it is declared itself.
Excepted are subprograms that could complete what their name denotes around that region only. -/
theorem subprogramSpecification_completes {node : NodeId} {isGeneric : Bool} {header : Header}
    (hbefore : before.Reachable)
    (hrun : (subprogramSpecification node isGeneric).run (call budget) before = (.matched header, after))
    (ofSubunit : Bool)
    (hregion : before.symbols.priorBinding ofSubunit header.name.name = none →
      ¬(after.symbols.kindOf header.symbol).completes (before.symbols.resolve header.name.name).kind) :
    after.symbols.innermost.kind = .subprogram ∧ after.symbols.innermost.owner = some header.symbol ∧
      ∀ template, ⟨template, .body⟩ ∈ after.symbols.innermost.imports ↔
        (after.symbols.kindOf header.symbol).completes (before.symbols.kindOf template) ∧
          before.symbols.priorBinding ofSubunit header.name.name = some template := by
  obtain ⟨kind, hinside⟩ := subprogramSpecification_inside node isGeneric hbefore header after hrun
  refine ⟨hinside.kind, hinside.owner, fun template => ?_⟩
  rw [hinside.symbolKind] at hregion ⊢
  have himports : ⟨template, .body⟩ ∈ after.symbols.innermost.imports ↔
      templateFor (subprogramSymbolKind isGeneric kind) (before.symbols.resolve header.name.name) = some template := by
    simp [hinside.imports]
  rw [himports, templateFor_eq_some]
  cases hprior : before.symbols.priorBinding ofSubunit header.name.name with
  | none => simp [hregion hprior]
  | some id =>
    rw [resolve_of_priorBinding hprior, Option.some.injEq]
    refine ⟨fun ⟨hcompletes, hsame⟩ => ?_, fun ⟨hcompletes, hsame⟩ => ?_⟩
    · obtain rfl := Option.some.inj hsame
      exact ⟨hcompletes, rfl⟩
    · subst hsame
      exact ⟨hcompletes, rfl⟩

def templateRun : Reply NodeId × Parser :=
  genericDeclaration.execute
    (.new (.ofSource "generic type T is private; procedure G (X : T); procedure G (X : T);") { predefined := false })

theorem templateRun_reachable : templateRun.2.Reachable :=
  Parser.Reachable.kept.run (Parser.Reachable.kept.call _) genericDeclaration _ (.new ..)

def completionRun : Reply Header × Parser := (subprogramSpecification ⟨0⟩ false).run (call 8) templateRun.2

/-- It completes the generic procedure. -/
theorem subprogramSpecification_completes_template :
    ∃ header, completionRun = (.matched header, completionRun.2) ∧
      templateRun.2.symbols.kindOf ⟨1⟩ = .genericProcedure ∧
      ⟨⟨1⟩, .body⟩ ∈ completionRun.2.symbols.innermost.imports := by
  have hrun : completionRun.1.value?.map
        (fun header => (header.symbol, header.name.name)) = some (⟨3⟩, ⟨"G"⟩) ∧
      completionRun.2.symbols.kindOf ⟨3⟩ = .procedure ∧ templateRun.2.symbols.kindOf ⟨1⟩ = .genericProcedure ∧
      templateRun.2.symbols.priorBinding false ⟨"G"⟩ = some ⟨1⟩ := by decide +kernel
  obtain ⟨hvalue, hprocedure, htemplate, hprior⟩ := hrun
  obtain ⟨⟨spec, symbol, name, place⟩, hheader, hparts⟩ := Option.map_eq_some_iff.mp hvalue
  obtain ⟨rfl, rfl⟩ : symbol = ⟨3⟩ ∧ name = ⟨"G"⟩ := by simpa using hparts
  have hmatched : completionRun = (.matched ⟨spec, ⟨3⟩, ⟨"G"⟩, place⟩, completionRun.2) := Reply.result_eq hheader
  have hcompletes : (completionRun.2.symbols.kindOf ⟨3⟩).completes (templateRun.2.symbols.kindOf ⟨1⟩) = true := by
    rw [hprocedure, htemplate]
    rfl
  have hregion := subprogramSpecification_completes templateRun_reachable hmatched false fun hnone => by
    rw [hprior] at hnone
    cases hnone
  exact ⟨_, hmatched, htemplate, (hregion.2.2 ⟨1⟩).mpr ⟨hcompletes, hprior⟩⟩

/-- In another region behind the generic procedure, the same specification completes nothing. It sees the formals. -/
theorem subprogramSpecification_imports_around :
    ∃ inner header after, (templateRun.2.perform (.openRegion .package none)).2 = inner ∧ inner.Reachable ∧
      (subprogramSpecification ⟨0⟩ false).run (call 8) inner = (.matched header, after) ∧
      (∀ ofSubunit, inner.symbols.priorBinding ofSubunit header.name.name = none) ∧
      ⟨⟨1⟩, .body⟩ ∈ after.symbols.innermost.imports := by
  let inner := (templateRun.2.perform (.openRegion .package none)).2
  have hrun : ((subprogramSpecification ⟨0⟩ false).run (call 8) inner).1.value?.map
        (fun header => (header.symbol, header.name.name)) = some (⟨3⟩, ⟨"G"⟩) ∧
      (∀ ofSubunit, inner.symbols.priorBinding ofSubunit ⟨"G"⟩ = none) ∧
      ((subprogramSpecification ⟨0⟩ false).run (call 8) inner).2.symbols.innermost.imports = [⟨⟨1⟩, .body⟩] := by
    decide +kernel
  obtain ⟨hvalue, hprior, himports⟩ := hrun
  obtain ⟨⟨spec, symbol, name, place⟩, hheader, hparts⟩ := Option.map_eq_some_iff.mp hvalue
  obtain ⟨-, rfl⟩ : symbol = ⟨3⟩ ∧ name = ⟨"G"⟩ := by simpa using hparts
  refine ⟨inner, _, _, rfl, templateRun_reachable.move (.perform _), Reply.result_eq hheader, hprior, ?_⟩
  simp [himports]

end Grammar

end AdaSyntax
