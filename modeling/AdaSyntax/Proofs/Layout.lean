import AdaSyntax.Compilation
import AdaSyntax.Proofs.Parser.Unplaced

/-!
Layout does not matter. Two token streams with the same kinds and texts are compiled alike, wherever their
tokens stand: both are accepted, or both are rejected, with the same nodes, symbols and regions under the
same numbers, and the same diagnostics in the same order, offsets apart.
-/

namespace AdaSyntax

namespace Cursor

theorem unplaced_congr {cursor cursor' : Cursor}
    (htokens : cursor.tokens.map Token.unplaced = cursor'.tokens.map Token.unplaced)
    (hposition : cursor.position = cursor'.position) : cursor.unplaced = cursor'.unplaced :=
  ext_of_tokens htokens hposition

theorem ofTokens_unplaced {tokens tokens' : Array Token}
    (h : tokens.map Token.unplaced = tokens'.map Token.unplaced) :
    (ofTokens tokens = .error .unterminated ∧ ofTokens tokens' = .error .unterminated) ∨
      ∃ cursor cursor', ofTokens tokens = .ok cursor ∧ ofTokens tokens' = .ok cursor' ∧
        cursor.unplaced = cursor'.unplaced := by
  have hlast : tokens.back?.map (·.kind) = tokens'.back?.map (·.kind) := by
    have hback := congrArg (fun stream : Array Token => stream.back?.map (·.kind)) h
    simpa [Array.back?, Function.comp_def, Token.unplaced] using hback
  unfold ofTokens
  by_cases hend : tokens.back?.map (·.kind) = some .endOfFile
  · have hend' := hlast ▸ hend
    rw [dif_pos hend, dif_pos hend']
    exact .inr ⟨_, _, rfl, rfl, unplaced_congr h rfl⟩
  · have hend' := hlast ▸ hend
    rw [dif_neg hend, dif_neg hend']
    exact .inl ⟨rfl, rfl⟩

end Cursor

namespace Compilation

/-- The compilation with all its nodes, symbols and diagnostics at offset zero. -/
def unplaced (compilation : Compilation) : Compilation :=
  { compilation with
    tree := compilation.tree.unplaced, symbols := compilation.symbols.unplaced
    diagnostics := compilation.diagnostics.map Diagnostic.unplaced }

/-- The same outcome, up to places. The error that ends a parse is the last one reported, and quotes its
own offset. -/
inductive Alike : Except Rejection Compilation → Except Rejection Compilation → Prop where
  | accepted {first second : Compilation} (h : first.unplaced = second.unplaced) :
      Alike (.ok first) (.ok second)
  | rejected {first second : List Diagnostic}
      (h : first.map Diagnostic.unplaced = second.map Diagnostic.unplaced) :
      Alike (.error ⟨first, none⟩) (.error ⟨second, none⟩)
  | aborted {first second : List Diagnostic} {error error' : Fatal}
      (h : first.map Diagnostic.unplaced = second.map Diagnostic.unplaced)
      (herror : error.unplaced = error'.unplaced) :
      Alike (.error ⟨first ++ [error.diagnostic], some error⟩)
        (.error ⟨second ++ [error'.diagnostic], some error'⟩)

end Compilation

namespace Parser

theorem diagnostics_unplaced (parser : Parser) :
    parser.unplaced.diagnostics = parser.diagnostics.map Diagnostic.unplaced := by
  simp [diagnostics, unplaced, DiagnosticLog.unplaced]

theorem complete_unplaced (parser : Parser) (lexical : List Diagnostic) (units : List NodeId) :
    (parser.complete lexical units).unplaced =
      parser.unplaced.complete (lexical.map Diagnostic.unplaced) units := by
  have hlibrary : parser.unplaced.symbols.librarySymbols = parser.symbols.librarySymbols :=
    parser.symbols.librarySymbols_unplaced
  have hadd := parser.addNode_unplaced 0 (.unit (.compilation units parser.symbols.librarySymbols))
  change parser.unplaced.addNode 0 (.unit (.compilation units _)) = _ at hadd
  simp only [complete, hlibrary, hadd, Compilation.unplaced, diagnostics_unplaced, List.map_append]
  rfl

theorem reject_unplaced (parser : Parser) (lexical : List Diagnostic) (units : List NodeId) :
    (parser.reject lexical units).diagnostics.map Diagnostic.unplaced =
      (parser.unplaced.reject (lexical.map Diagnostic.unplaced) units).diagnostics := by
  have hposition : parser.unplaced.position = parser.position := rfl
  simp only [reject, hposition, reportUnrecognized_unplaced, diagnostics_unplaced, List.map_append]

theorem execute_unplaced {α : Type} (program : Program α) {parser : Parser}
    (hrecoverable : parser.symbols.Recoverable) :
    program.execute parser.unplaced = erased.reflect (program.execute parser) := by
  rcases (Mirror.Follows.execute erased_faithful program).shows parser hrecoverable with ⟨_, _, hcut⟩ | heq
  · exact hcut.elim
  · exact heq

theorem new_unplaced (cursor : Cursor) (options : Options) :
    (Parser.new cursor options).unplaced = .new cursor.unplaced options := by
  have hsymbols : (Parser.new cursor options).symbols.unplaced = (Parser.new cursor options).symbols := by
    simp only [Parser.new]
    split
    · exact SymbolTable.predefined_unplaced
    · simp [SymbolTable.unplaced, SymbolTable.empty]
  have hlog : (Parser.new cursor options).log.unplaced = .empty := by
    simp [Parser.new, DiagnosticLog.unplaced, DiagnosticLog.empty]
  have htree : (Parser.new cursor options).tree.unplaced = .empty := by
    simp [Parser.new, Tree.unplaced, Tree.empty]
  simp only [unplaced, hsymbols, hlog, htree]
  rfl

open Compilation in
theorem compile_alike {parser parser' : Parser} (hrecoverable : parser.symbols.Recoverable)
    (hrecoverable' : parser'.symbols.Recoverable) (h : parser.unplaced = parser'.unplaced)
    {lexical lexical' : List Diagnostic}
    (hlexical : lexical.map Diagnostic.unplaced = lexical'.map Diagnostic.unplaced) :
    Alike (parser.compile lexical) (parser'.compile lexical') := by
  have hruns : erased.reflect (Grammar.compilationUnits.execute parser) =
      erased.reflect (Grammar.compilationUnits.execute parser') := by
    rw [← execute_unplaced _ hrecoverable, ← execute_unplaced _ hrecoverable', h]
  unfold compile
  generalize Grammar.compilationUnits.execute parser = result at hruns ⊢
  generalize Grammar.compilationUnits.execute parser' = result' at hruns ⊢
  obtain ⟨reply, later⟩ := result
  obtain ⟨reply', later'⟩ := result'
  obtain ⟨hreply, hlater⟩ : reply.mapFatal Fatal.unplaced = reply'.mapFatal Fatal.unplaced ∧
    later.unplaced = later'.unplaced := Prod.mk.inj hruns
  have hreject (units : List NodeId) :
      Alike (.error (later.reject lexical units)) (.error (later'.reject lexical' units)) := by
    refine .rejected ?_
    have hdiagnostics := reject_unplaced later lexical units
    rw [hlater, hlexical, ← reject_unplaced] at hdiagnostics
    exact hdiagnostics
  cases reply with
  | matched value =>
    obtain rfl : reply' = .matched value := by cases reply' <;> simp_all [Reply.mapFatal]
    obtain ⟨units, complete⟩ := value
    cases complete with
    | false => exact hreject units
    | true =>
      refine .accepted ?_
      rw [complete_unplaced, complete_unplaced, hlater, hlexical]
  | fatal error =>
    obtain ⟨error', rfl, herror⟩ : ∃ error', reply' = .fatal error' ∧ error.unplaced = error'.unplaced := by
      cases reply' <;> simp_all [Reply.mapFatal]
    refine .aborted ?_ herror
    simp only [List.map_append, ← diagnostics_unplaced, hlater, hlexical]
  | mismatch =>
    obtain rfl : reply' = .mismatch := by cases reply' <;> simp_all [Reply.mapFatal]
    exact hreject []
  | exhausted =>
    obtain rfl : reply' = .exhausted := by cases reply' <;> simp_all [Reply.mapFatal]
    exact hreject []

end Parser

namespace Compilation

/-- Streams whose tokens agree in kind and text are compiled alike. -/
theorem ofTokens_alike {tokens tokens' : List Token} {lexical lexical' : List Diagnostic}
    (htokens : tokens.map (fun token => (token.kind, token.text)) =
      tokens'.map fun token => (token.kind, token.text))
    (hlexical : lexical.map Diagnostic.unplaced = lexical'.map Diagnostic.unplaced) (options : Options) :
    Alike (ofTokens tokens lexical options) (ofTokens tokens' lexical' options) := by
  have hunplaced : tokens.toArray.map Token.unplaced = tokens'.toArray.map Token.unplaced := by
    have hrebuilt := congrArg (List.map fun entry : TokenKind × String => Token.mk entry.1 entry.2 (.empty 0)) htokens
    rw [List.map_map, List.map_map] at hrebuilt
    have hlists : tokens.map Token.unplaced = tokens'.map Token.unplaced := hrebuilt
    simp only [List.map_toArray, hlists]
  unfold ofTokens
  rcases Cursor.ofTokens_unplaced hunplaced with ⟨hopen, hopen'⟩ | ⟨cursor, cursor', hcursor, hcursor', hsame⟩
  · rw [hopen, hopen']
    exact .aborted hlexical rfl
  · rw [hcursor, hcursor']
    have hnew : (Parser.new cursor options).unplaced = (Parser.new cursor' options).unplaced := by
      rw [Parser.new_unplaced, Parser.new_unplaced, hsame]
    exact Parser.compile_alike (Parser.Reachable.new cursor options).recoverable
      (Parser.Reachable.new cursor' options).recoverable hnew hlexical

def twiceDeclared (offset : Nat → Nat) : List Token :=
  [.ofText .kwPackage "package" (offset 0), .ofText .identifier "P" (offset 1), .ofText .kwIs "is" (offset 2),
    .ofText .identifier "X" (offset 3), .ofText .colon ":" (offset 4),
    .ofText .kwException "exception" (offset 5), .ofText .semicolon ";" (offset 6),
    .ofText .identifier "X" (offset 7), .ofText .colon ":" (offset 8),
    .ofText .kwException "exception" (offset 9), .ofText .semicolon ";" (offset 10),
    .ofText .kwEnd "end" (offset 11), .ofText .semicolon ";" (offset 12), .endOfFile (offset 13)]

theorem ofTokens_alike_twiceDeclared :
    let tokens := twiceDeclared (10 * ·)
    let tokens' := twiceDeclared (200 - 10 * ·)
    tokens.map (fun token => (token.kind, token.text)) = tokens'.map (fun token => (token.kind, token.text)) ∧
      tokens ≠ tokens' ∧ Alike (ofTokens tokens [] {}) (ofTokens tokens' [] {}) := by
  intro tokens tokens'
  have hsame : tokens.map (fun token => (token.kind, token.text)) =
      tokens'.map fun token => (token.kind, token.text) := by
    simp only [tokens, tokens', twiceDeclared, Token.ofText, Token.endOfFile, List.map_cons, List.map_nil]
  exact ⟨hsame, by decide, ofTokens_alike hsame rfl {}⟩

end Compilation

end AdaSyntax
