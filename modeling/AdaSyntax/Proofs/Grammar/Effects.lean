import AdaSyntax.Proofs.Parser.Reachable

/-!
What a rule leaves behind. If it matches, it has only added to what was there; if it does not, an attempt
of it never happened.
-/

namespace AdaSyntax

/-- `later` has everything that `earlier` has, in the same places; what is new lies behind it. -/
structure Parser.Appends (later earlier : Parser) : Prop where
  log : earlier.log.records.toList <+: later.log.records.toList
  symbols : earlier.symbols.symbols.toList <+: later.symbols.symbols.toList
  nodes : earlier.tree.nodes.toList <+: later.tree.nodes.toList
  stack : later.symbols.regions.map (fun region => (region.id, region.kind, region.owner)) =
    earlier.symbols.regions.map (fun region => (region.id, region.kind, region.owner))
  enclosing : later.symbols.enclosing = earlier.symbols.enclosing
  innermost : later.symbols.innermost.Extends earlier.symbols.innermost
  published : ∀ owner, owner.index < earlier.symbols.symbols.size →
    later.symbols.published? owner = earlier.symbols.published? owner
  depth : later.depth = earlier.depth
  contexts : later.contexts = earlier.contexts

theorem Parser.Built.appends {base parser : Parser} {yield : Yield} {nodes : List NodeId}
    (h : Built base parser yield nodes) (hopened : yield.opened = []) : parser.Appends base := by
  have hscopes := h.scopes
  rw [hopened] at hscopes
  obtain ⟨inner, region, hregions, hlength, hextends⟩ := hscopes.regions
  obtain rfl : inner = [] := List.length_eq_zero_iff.mp hlength
  obtain ⟨rfl, henclosing⟩ := List.cons.inj hregions
  exact {
    log := h.reverts.log
    symbols := h.scopes.reverts.symbols
    nodes := h.reverts.nodes
    stack := by
      simp [SymbolTable.regions, henclosing, hextends.id, hextends.kind, hextends.owner]
    enclosing := henclosing
    innermost := hextends
    published := h.scopes.published
    depth := h.reverts.depth
    contexts := h.reverts.contexts }

theorem Parser.Made.appends {base parser : Parser} {moved : Bool} {role : Role} {node : NodeId}
    (h : Made base parser moved (Yield.one role node).filing) : parser.Appends base := by
  obtain ⟨nodes, hbuilt⟩ := h.built
  exact hbuilt.appends rfl

namespace Rule

open Program

theorem execute_outcome (rule : Rule) {parser : Parser} (h : parser.symbols.Proper) :
    Outcome (·.RevertsTo parser) (fun node later => Parser.Made parser later true (Yield.one rule.role node).filing)
      ((Program.rule rule).execute parser) :=
  (rule_files rule parser h).outcome

/-- Backtracking is pure: an attempt of a rule that does not match gives the parser back as it was, the
counter of regions and the furthest mismatch apart. -/
theorem attempt_restores {parser later : Parser} {reply : Reply NodeId} (hreachable : parser.Reachable)
    (rule : Rule) (hattempt : parser.attempt (Program.rule rule).execute = (reply, later))
    (hfailed : reply.value? = none) :
    ∃ next furthest, parser.symbols.nextRegion ≤ next ∧
      later = { parser with symbols := { parser.symbols with nextRegion := next }, furthest } := by
  have hproper : parser.deeper.symbols.Proper := hreachable.proper
  have hinner := rule.execute_outcome hproper
  have houtcome : Outcome (·.Resumes parser) (fun _ _ => True)
      (parser.attempt (Program.rule rule).execute) :=
    Parser.attempt_outcome <| hinner.mono (fun _ hfails => hfails) fun _ _ _ => trivial
  rw [hattempt] at houtcome
  cases reply with
  | matched node => cases hfailed
  | _ => exact houtcome

def brokenType : Cursor where
  tokens := #[.ofText .kwType "type" 0, .ofText .identifier "T" 5, .ofText .kwIs "is" 7,
    .ofText .semicolon ";" 9, .endOfFile 10]
  position := 0
  position_lt := by decide
  last_kind := by decide

theorem attempt_restores_brokenType :
    let parser := Parser.new brokenType { predefined := false }
    let result := parser.attempt (Program.rule .typeDeclaration).execute
    result.1.value? = none ∧ ∃ next furthest, parser.symbols.nextRegion ≤ next ∧
      result.2 = { parser with symbols := { parser.symbols with nextRegion := next }, furthest } :=
  ⟨by decide +kernel, attempt_restores (.new _ _) .typeDeclaration rfl (by decide +kernel)⟩

/-- A rule that matches only appends, and leaves the regions that were open, and what older symbols
have published, as they were. -/
theorem match_appends {parser later : Parser} {node : NodeId} (hreachable : parser.Reachable)
    (rule : Rule) (hmatch : (Program.rule rule).execute parser = (.matched node, later)) :
    later.Appends parser := by
  have houtcome := rule.execute_outcome hreachable.proper
  rw [hmatch] at houtcome
  exact houtcome.appends

def smallPackage : Cursor where
  tokens := #[.ofText .kwPackage "package" 0, .ofText .identifier "P" 8, .ofText .kwIs "is" 10,
    .ofText .identifier "X" 13, .ofText .colon ":" 15, .ofText .kwException "exception" 17,
    .ofText .semicolon ";" 26, .ofText .kwEnd "end" 28, .ofText .semicolon ";" 31, .endOfFile 32]
  position := 0
  position_lt := by decide
  last_kind := by decide

theorem match_appends_smallPackage :
    let parser := Parser.new smallPackage { predefined := false }
    ∃ later, (Program.rule .packageDeclaration).execute parser = (.matched ⟨0⟩, later) ∧
      later.Appends parser :=
  ⟨_, Prod.ext rfl rfl, match_appends (.new _ _) .packageDeclaration (Prod.ext rfl rfl)⟩

end Rule

end AdaSyntax
