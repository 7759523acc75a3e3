import AdaSyntax.Compilation
import AdaSyntax.Proofs.Parser.Twin
import AdaSyntax.Proofs.Progress

/-!
The first end marker is a barrier. Whatever follows it in a stream, no lookahead comes to it, and neither does a
classification or a skip.
-/

namespace AdaSyntax

namespace Cursor

variable (cursor : Cursor) (rest : List Token) {last : Token} (hlast : last.kind = .endOfFile)

def extend : Cursor where
  tokens := cursor.tokens ++ (rest ++ [last]).toArray
  position := cursor.position
  position_lt := Nat.lt_of_lt_of_le cursor.position_lt (by simp)
  last_kind := by simp [Array.back?_append, hlast]

theorem beside_extend : cursor.Beside cursor.tokens.size (cursor.extend rest hlast) where
  shared_le := Nat.le_refl _
  shared_le' := by simp [extend]
  get index hindex := Array.getElem?_append_left hindex
  stops index token hindex htoken := by
    have hlast := cursor.last_kind
    obtain rfl : index = cursor.tokens.size - 1 := by omega
    rw [Array.back?_eq_getElem?, htoken] at hlast
    have hkind : token.kind = .endOfFile := Option.some.inj hlast
    rw [hkind]
    rfl
  position := rfl

theorem ofTokens_extend {tokens : Array Token} (hend : tokens.back?.map (·.kind) = some .endOfFile) :
    ∃ cursor : Cursor, ofTokens tokens = .ok cursor ∧
      ofTokens (tokens ++ (rest ++ [last]).toArray) = .ok (cursor.extend rest hlast) := by
  have hend' : (tokens ++ (rest ++ [last]).toArray).back?.map (·.kind) = some .endOfFile := by
    simp [Array.back?_append, hlast]
  unfold ofTokens
  rw [dif_pos hend, dif_pos hend']
  exact ⟨_, rfl, rfl⟩

end Cursor

namespace Parser

variable (rest : List Token) {last : Token} (hlast : last.kind = .endOfFile)

def extend (parser : Parser) : Parser := parser.onto (parser.cursor.extend rest hlast)

/-- No mismatch is on record outside of the stream. -/
def Bounded (parser : Parser) : Prop := ∀ mismatch ∈ parser.furthest, mismatch.position < parser.cursor.tokens.size

variable {α : Type} {parser : Parser}

theorem twins_extend (hbounded : parser.Bounded) :
    Twins parser.cursor.tokens parser.cursor.tokens.size parser (parser.extend rest hlast) :=
  .intro rfl (parser.cursor.beside_extend rest hlast) hbounded

theorem execute_extend (program : Program α) [Program.Heedful program]
    (hends : ∀ parser, (program.execute parser).1 ≠ .exhausted) (hrecoverable : parser.symbols.Recoverable)
    (hbounded : parser.Bounded) :
    program.execute (parser.extend rest hlast) =
        ((program.execute parser).1, (program.execute parser).2.extend rest hlast) ∧
      (program.execute parser).2.Bounded := by
  obtain ⟨hreply, htwins⟩ := program.execute_same (twin_sound _ _) (Nat.lt_irrefl _) hends hrecoverable
    (twins_extend rest hlast hbounded)
  have htokens := (program.execute_allows parser).continues.moves.tokens
  have htokens' := (program.execute_allows (parser.extend rest hlast)).continues.moves.tokens
  generalize program.execute parser = result at hreply htwins htokens ⊢
  generalize program.execute (parser.extend rest hlast) = result' at hreply htwins htokens' ⊢
  obtain ⟨reply, later⟩ := result
  obtain ⟨reply', later'⟩ := result'
  obtain rfl : reply' = reply := hreply
  obtain @⟨cursor, hsame, hbeside, hnoted⟩ := htwins
  obtain rfl : cursor = later.cursor.extend rest hlast := by
    refine Cursor.ext_of_tokens (Eq.trans htokens' ?_) hbeside.position
    exact congrArg (· ++ (rest ++ [last]).toArray) htokens.symm
  exact ⟨rfl, fun mismatch hmem => hsame.symm ▸ hnoted mismatch hmem⟩

theorem compile_extend (hrecoverable : parser.symbols.Recoverable) (hbounded : parser.Bounded)
    (lexical : List Diagnostic) : (parser.extend rest hlast).compile lexical = parser.compile lexical := by
  obtain ⟨hexecute, hlater⟩ := execute_extend rest hlast Grammar.compilationUnits
    (fun parser => parser.progresses.units_end.1) hrecoverable hbounded
  unfold compile
  rw [hexecute]
  generalize Grammar.compilationUnits.execute parser = result at hlater ⊢
  obtain ⟨reply, later⟩ := result
  have htwins := twins_extend rest hlast hlater
  have hreject (units : List NodeId) :
      (later.extend rest hlast).reject lexical units = later.reject lexical units :=
    congrArg (fun log : DiagnosticLog => Rejection.mk (lexical ++ log.records.toList) none)
      (htwins.reportUnrecognized later.cursor.position_lt .compilation _).log
  cases reply with
  | matched value =>
    obtain ⟨units, complete⟩ := value
    cases complete with
    | false => exact congrArg Except.error (hreject units)
    | true =>
      have hrange : (later.extend rest hlast).rangeFrom 0 = later.rangeFrom 0 :=
        rangeFrom_onto (later.cursor.beside_extend rest hlast) (Nat.le_of_lt later.cursor.position_lt)
          (Nat.zero_lt_of_lt later.cursor.position_lt) 0
      refine congrArg Except.ok ?_
      simp only [complete, addNode, hrange]
      rfl
  | fatal error => rfl
  | mismatch => exact congrArg Except.error (hreject [])
  | exhausted => exact congrArg Except.error (hreject [])

theorem bounded_new (cursor : Cursor) (options : Options) : (Parser.new cursor options).Bounded := nofun

end Parser

namespace Compilation

/-- The first end marker is a barrier: neither the driver nor any rule does anything else where the stream goes on
behind it, up to another end. -/
theorem ends_at_first_marker (rest : List Token) {last : Token} (hlast : last.kind = .endOfFile) :
    (∀ (front : List Token) (stop : Token), stop.kind = .endOfFile → ∀ (lexical : List Diagnostic) (options : Options),
      ofTokens (front ++ [stop] ++ (rest ++ [last])) lexical options = ofTokens (front ++ [stop]) lexical options) ∧
    ∀ parser : Parser, parser.Reachable → parser.Bounded →
      (Grammar.compilationUnits.execute (parser.extend rest hlast) =
        ((Grammar.compilationUnits.execute parser).1,
          (Grammar.compilationUnits.execute parser).2.extend rest hlast)) ∧
      ∀ rule, (Program.rule rule).execute (parser.extend rest hlast) =
        (((Program.rule rule).execute parser).1, ((Program.rule rule).execute parser).2.extend rest hlast) := by
  refine ⟨fun front stop hstop lexical options => ?_, fun parser hreachable hbounded => ⟨?_, fun rule => ?_⟩⟩
  · have hend : (front ++ [stop]).toArray.back?.map (·.kind) = some .endOfFile := by simp [hstop]
    obtain ⟨cursor, hcursor, hextended⟩ := Cursor.ofTokens_extend rest hlast hend
    rw [List.append_toArray] at hextended
    unfold ofTokens
    rw [hcursor, hextended]
    exact Parser.compile_extend rest hlast (Parser.Reachable.new cursor options).recoverable
      (Parser.bounded_new cursor options) lexical
  · exact (Parser.execute_extend rest hlast Grammar.compilationUnits (fun parser => parser.progresses.units_end.1)
      hreachable.recoverable hbounded).1
  · exact (Parser.execute_extend rest hlast (Program.rule rule) (fun parser => (parser.progresses.execute_ends rule).1)
      hreachable.recoverable hbounded).1

def declaredProcedure : Cursor where
  tokens := #[.ofText .kwProcedure "procedure" 0, .ofText .identifier "P" 10, .ofText .semicolon ";" 11, .endOfFile 12]
  position := 0
  position_lt := by decide
  last_kind := rfl

def hiddenProcedure : List Token :=
  [.ofText .kwProcedure "procedure" 13, .ofText .identifier "Q" 23, .ofText .semicolon ";" 24]

theorem ends_at_first_marker_procedure :
    let options : Options := { predefined := false }
    let parser := Parser.new declaredProcedure options
    let hlast : (Token.endOfFile 25).kind = .endOfFile := rfl
    let front := declaredProcedure.tokens.toList.take 3
    (Token.endOfFile 12).kind = .endOfFile ∧ parser.Reachable ∧ parser.Bounded ∧
      ofTokens (front ++ [.endOfFile 12] ++ (hiddenProcedure ++ [.endOfFile 25])) [] options =
        ofTokens (front ++ [.endOfFile 12]) [] options ∧
      (Program.rule .compilationUnit).execute (parser.extend hiddenProcedure hlast) =
        (((Program.rule .compilationUnit).execute parser).1,
          ((Program.rule .compilationUnit).execute parser).2.extend hiddenProcedure hlast) := by
  intro options parser hlast front
  have hreachable : parser.Reachable := .new declaredProcedure options
  have hbounded := Parser.bounded_new declaredProcedure options
  have hends := ends_at_first_marker hiddenProcedure hlast
  exact ⟨rfl, hreachable, hbounded, hends.1 front (.endOfFile 12) rfl [] options,
    (hends.2 parser hreachable hbounded).2 .compilationUnit⟩

end Compilation

end AdaSyntax
