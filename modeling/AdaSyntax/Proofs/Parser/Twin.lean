import AdaSyntax.Proofs.Parser.Tandem
import AdaSyntax.Proofs.Token.Beside

namespace AdaSyntax

def Op.looks : ∀ {α : Type}, Op α → Bool
  | _, .kind | _, .position | _, .followedBy .. | _, .aheadInGroup _ | _, .aheadInParentheses _ | _, .lookaheadClass
  | _, .take | _, .expect _ | _, .expectChoice _ => true
  | _, _ => false

def Below (shared position : Nat) : Prop := position < shared

namespace Parser

def onto (cursor : Cursor) (parser : Parser) : Parser := { parser with cursor }

inductive Twins (tokens : Array Token) (shared : Nat) : Parser → Parser → Prop where
  | intro {p : Parser} {cursor : Cursor} (htokens : p.cursor.tokens = tokens) (h : p.cursor.Beside shared cursor)
      (hnoted : ∀ mismatch ∈ p.furthest, mismatch.position < shared) : Twins tokens shared p (p.onto cursor)

def twin (tokens : Array Token) (shared : Nat) : Tandem where
  alike := Twins tokens shared
  seen := Below shared
  bound := shared
  loose := shared < tokens.size

variable {tokens : Array Token} {shared : Nat} {α : Type}

theorem Twins.position_lt {first second : Parser} (h : Twins tokens shared first second)
    (hstrays : ¬(twin tokens shared).Strays first) : first.position < shared := by
  obtain ⟨rfl, -, -⟩ := h
  exact Nat.lt_of_not_le fun hle => hstrays ⟨Nat.lt_of_le_of_lt hle first.cursor.position_lt, .inl hle⟩

section

variable {parser : Parser} {cursor : Cursor} (h : parser.cursor.Beside shared cursor)

include h

theorem place_onto {position : Nat} (hposition : position < shared) :
    (parser.onto cursor).place position = parser.place position :=
  congrArg Token.range (h.tokenAt hposition)

theorem rangeFrom_onto (hle : parser.position ≤ shared) (hpos : 0 < shared) (start : Nat) :
    (parser.onto cursor).rangeFrom start = parser.rangeFrom start :=
  congrArg (Range.upTo start) (h.previousEnd hle hpos)

theorem describe_onto (hle : parser.position ≤ shared) (hpos : 0 < shared) {finding : Finding}
    (hfinding : ∀ position ∈ finding.positions, position < shared) :
    (parser.onto cursor).describe finding = parser.describe finding := by
  cases finding with
  | endMismatch position written expected =>
    simp only [describe, place_onto h (hfinding position (List.mem_singleton_self position))]
  | mixedOperators position first next =>
    simp only [describe, place_onto h (hfinding position (List.mem_singleton_self position)),
      rangeFrom_onto h hle hpos]
  | notAPackage package kind => cases kind <;> rfl
  | _ => rfl

theorem lookaheadFrom_onto (resolution : Resolution) {fuel fuel' n : Nat} (hn : parser.position + n < shared)
    (hfuel : shared ≤ parser.position + n + fuel) (hfuel' : shared ≤ parser.position + n + fuel') :
    (parser.onto cursor).lookaheadFrom resolution fuel' n = parser.lookaheadFrom resolution fuel n := by
  induction fuel generalizing resolution fuel' n with
  | zero => omega
  | succ fuel ih =>
    cases fuel' with
    | zero => omega
    | succ fuel' =>
      have hnext {n : Nat} (hn : parser.position + n < shared) (hkind : (parser.cursor.ahead n).kind.isStop = false) :
          parser.position + (n + 1) < shared := h.succ_lt hn hkind
      have hhere : (parser.onto cursor).cursor.ahead n = parser.cursor.ahead n := h.ahead hn
      simp only [lookaheadFrom, hhere]
      by_cases hdot : (parser.cursor.ahead n).kind = .dot
      · have hselector : parser.position + (n + 1) < shared := hnext hn (by rw [hdot]; rfl)
        have hthere : (parser.onto cursor).cursor.ahead (n + 1) = parser.cursor.ahead (n + 1) := h.ahead hselector
        rw [hthere]
        by_cases hname : (parser.cursor.ahead (n + 1)).kind = .identifier
        · have hrest : parser.position + (n + 2) < shared := hnext hselector (by rw [hname]; rfl)
          have hsymbols : (parser.onto cursor).symbols = parser.symbols := rfl
          have hfar (resolution : Resolution) : (parser.onto cursor).lookaheadFrom resolution fuel' (n + 2) =
              parser.lookaheadFrom resolution fuel (n + 2) := ih resolution hrest (by omega) (by omega)
          simp only [hsymbols, hfar]
        · simp only [hname, decide_false, Bool.and_false, Bool.false_eq_true, if_false]
      · simp only [hdot, decide_false, Bool.false_and, Bool.false_eq_true, if_false]

variable (hlt : parser.position < shared)

include hlt

theorem kind_onto : (parser.onto cursor).kind = parser.kind := h.kind hlt

theorem start_onto : (parser.onto cursor).start = parser.start := congrArg (·.range.start) (h.current hlt)

theorem lookaheadClass_onto : (parser.onto cursor).lookaheadClass = parser.lookaheadClass := by
  have hcurrent : (parser.onto cursor).current = parser.current := h.current hlt
  have hsymbols : (parser.onto cursor).symbols = parser.symbols := rfl
  simp only [lookaheadClass, kind_onto h hlt, hcurrent, hsymbols]
  split
  next hname =>
    have hnext : parser.position + 1 < shared := h.next_lt hlt (by rw [show parser.cursor.kind = .identifier from hname]; rfl)
    refine lookaheadFrom_onto h _ hnext ?_ ?_
    · have hle := h.shared_le
      simp only [Cursor.remaining, Parser.position] at hnext ⊢
      omega
    · have hle := h.shared_le'
      have hposition := h.position
      simp only [Cursor.remaining, Parser.position, onto] at hnext ⊢
      omega
  next => rfl

end

namespace Twins

variable {first second : Parser} (h : Twins tokens shared first second) (hlt : first.position < shared)

include h

theorem withFurthest {furthest : Option Mismatch} (hnoted : ∀ mismatch ∈ furthest, mismatch.position < shared) :
    Twins tokens shared { first with furthest } { second with furthest } := by
  obtain ⟨htokens, hbeside, -⟩ := h
  exact .intro (p := { first with furthest }) htokens hbeside hnoted

theorem symbols : second.symbols = first.symbols := by
  obtain ⟨-, -, -⟩ := h
  rfl

theorem log : second.log = first.log := by
  obtain ⟨-, -, -⟩ := h
  rfl

theorem furthest : second.furthest = first.furthest := by
  obtain ⟨-, -, -⟩ := h
  rfl

theorem noted : ∀ mismatch ∈ first.furthest, mismatch.position < shared := by
  obtain ⟨-, -, hnoted⟩ := h
  exact hnoted

theorem further {outer : Option Mismatch} (houter : ∀ mismatch ∈ outer, mismatch.position < shared) :
    Twins tokens shared { first with furthest := Mismatch.further outer first.furthest }
      { second with furthest := Mismatch.further outer second.furthest } := by
  rw [h.furthest]
  refine h.withFurthest fun mismatch hmem => ?_
  rcases Mismatch.mem_further hmem with hmem | hmem
  · exact houter mismatch hmem
  · exact h.noted mismatch hmem

theorem withSymbols (symbols : SymbolTable) :
    Twins tokens shared { first with symbols } { second with symbols } := by
  obtain ⟨htokens, hbeside, hnoted⟩ := h
  exact .intro (p := { first with symbols }) htokens hbeside hnoted

theorem place {position : Nat} (hposition : position < shared) : second.place position = first.place position := by
  obtain ⟨-, hbeside, -⟩ := h
  exact place_onto hbeside hposition

theorem report (diagnostic : Diagnostic) :
    Twins tokens shared (first.report diagnostic) (second.report diagnostic) := by
  obtain ⟨htokens, hbeside, hnoted⟩ := h
  exact .intro (p := first.report diagnostic) htokens hbeside hnoted

theorem reportDeclared (id : SymbolId) (declared : Declared) :
    Twins tokens shared (first.reportDeclared id declared) (second.reportDeclared id declared) := by
  cases declared with
  | duplicate existing =>
    simp only [Parser.reportDeclared, h.symbols]
    split
    · exact h.report _
    · exact h
  | _ => exact h

theorem position : second.position = first.position := by
  obtain ⟨htokens, hbeside, hnoted⟩ := h
  exact hbeside.position

theorem find (hle : first.position ≤ shared) (hpos : 0 < shared) {finding : Finding}
    (hfinding : ∀ position ∈ finding.positions, position < shared) :
    Twins tokens shared (first.find finding) (second.find finding) := by
  have hdescribe : second.describe finding = first.describe finding := by
    obtain ⟨-, hbeside, -⟩ := h
    exact describe_onto hbeside hle hpos hfinding
  have hoptions : second.options = first.options := by
    obtain ⟨-, -, -⟩ := h
    rfl
  cases finding with
  | undeclaredTypeMark mark =>
    simp only [Parser.find, hoptions, hdescribe]
    split
    · exact h.report _
    · exact h
  | _ =>
    simp only [Parser.find, hdescribe]
    exact h.report _

theorem perform_of_not_looks (hle : first.position ≤ shared) (hpos : 0 < shared) {op : Op α} (hlooks : op.looks = false)
    (hop : op.Minds (Below shared)) : (second.perform op).1 = (first.perform op).1 ∧
      Twins tokens shared (first.perform op).2 (second.perform op).2 := by
  cases op with
  | add start payload =>
    obtain @⟨cursor, htokens, hbeside, hnoted⟩ := h
    have hpayload : payload.map (first.onto cursor).place = payload.map first.place :=
      Payload.map_congr fun name hmem => place_onto hbeside (hop.2 name hmem)
    simp only [Parser.perform, addNode, hpayload, place_onto hbeside hop.1, rangeFrom_onto hbeside hle hpos]
    exact ⟨rfl, .intro htokens hbeside hnoted⟩
  | reserve start =>
    obtain @⟨cursor, htokens, hbeside, hnoted⟩ := h
    simp only [Parser.perform, reserveNode, place_onto hbeside hop]
    exact ⟨rfl, .intro htokens hbeside hnoted⟩
  | fill id start payload =>
    obtain @⟨cursor, htokens, hbeside, hnoted⟩ := h
    have hpayload : payload.map (first.onto cursor).place = payload.map first.place :=
      Payload.map_congr fun name hmem => place_onto hbeside (hop.2 name hmem)
    have htree : (first.onto cursor).tree = first.tree := rfl
    simp only [Parser.perform, fillNode, hpayload, htree, place_onto hbeside hop.1, rangeFrom_onto hbeside hle hpos]
    split <;> exact ⟨rfl, .intro htokens hbeside hnoted⟩
  | declare name kind node shape =>
    have hsymbols : second.symbols = first.symbols := h.symbols
    have hplace : second.place name.place = first.place name.place := h.place hop
    simp only [Parser.perform, declare, hsymbols, hplace]
    exact ⟨trivial, (h.withSymbols _).reportDeclared _ _⟩
  | bind id =>
    have hsymbols : second.symbols = first.symbols := h.symbols
    simp only [Parser.perform, Parser.bind, hsymbols]
    exact ⟨trivial, (h.withSymbols _).reportDeclared _ _⟩
  | closeRegion =>
    obtain @⟨cursor, htokens, hbeside, hnoted⟩ := h
    have hsymbols : (first.onto cursor).symbols = first.symbols := rfl
    simp only [Parser.perform, hsymbols]
    cases first.symbols.closeRegion <;> exact ⟨rfl, .intro htokens hbeside hnoted⟩
  | find finding => exact ⟨rfl, h.find hle hpos hop⟩
  | kind | position | followedBy | aheadInGroup | aheadInParentheses | lookaheadClass | take | expect | expectChoice =>
    cases hlooks
  | _ =>
    obtain @⟨cursor, htokens, hbeside, hnoted⟩ := h
    exact ⟨rfl, .intro htokens hbeside hnoted⟩

include hlt

theorem take : second.take.1 = first.take.1 ∧ Twins tokens shared first.take.2 second.take.2 := by
  obtain @⟨cursor, htokens, hbeside, hnoted⟩ := h
  unfold Parser.take
  have hcursor : (first.onto cursor).cursor = cursor := rfl
  rcases hbeside.advance hlt with ⟨error, hfirst, hsecond⟩ | ⟨token, next, next', hfirst, hsecond, hnext⟩ <;>
    rw [hcursor, hfirst, hsecond]
  · exact ⟨rfl, .intro htokens hbeside hnoted⟩
  · exact ⟨rfl, .intro (p := { first with cursor := next }) ((Cursor.MovesTo.advance hfirst).tokens.trans htokens)
      hnext hnoted⟩

theorem recordMismatch (expected : String) :
    Twins tokens shared (first.recordMismatch expected) (second.recordMismatch expected) := by
  rw [recordMismatch_eq_further, recordMismatch_eq_further, h.position, h.furthest]
  refine h.withFurthest fun mismatch hmem => ?_
  rcases Mismatch.mem_further hmem with hmem | hmem
  · exact h.noted mismatch hmem
  · exact Option.some.inj hmem ▸ hlt

theorem kind : second.kind = first.kind := by
  obtain ⟨htokens, hbeside, hnoted⟩ := h
  exact kind_onto hbeside hlt

theorem start : second.start = first.start := by
  obtain ⟨htokens, hbeside, hnoted⟩ := h
  exact start_onto hbeside hlt

theorem atEnd : second.cursor.atEnd = first.cursor.atEnd :=
  congrArg (fun kind => decide (kind = TokenKind.endOfFile)) (h.kind hlt)

theorem atAny (kinds : List TokenKind) : second.atAny kinds = first.atAny kinds :=
  congrArg kinds.contains (h.kind hlt)

theorem expectChoice (kind : TokenKind) : (second.expectChoice kind).1 = (first.expectChoice kind).1 ∧
    Twins tokens shared (first.expectChoice kind).2 (second.expectChoice kind).2 := by
  unfold Parser.expectChoice
  rw [h.kind hlt]
  split
  · exact h.take hlt
  · exact ⟨rfl, h.recordMismatch hlt _⟩

theorem expect (kind : TokenKind) : (second.expect kind).1 = (first.expect kind).1 ∧
    Twins tokens shared (first.expect kind).2 (second.expect kind).2 := by
  unfold Parser.expect
  rw [h.kind hlt, h.atEnd hlt, h.start hlt]
  split
  · exact h.take hlt
  · split
    · exact ⟨rfl, h⟩
    · exact ⟨rfl, h.recordMismatch hlt _⟩

omit h hlt in
theorem withPosition {result result' : Reply Token × Parser} {position position' : Nat} (hposition : position' = position)
    (hresult : result'.1 = result.1 ∧ Twins tokens shared result.2 result'.2) :
    (Parser.withPosition position' result').1 = (Parser.withPosition position result).1 ∧
      Twins tokens shared (Parser.withPosition position result).2 (Parser.withPosition position' result').2 :=
  hposition ▸ ⟨congrArg (Reply.map _) hresult.1, hresult.2⟩

theorem perform {op : Op α} (hop : op.Minds (Below shared)) : (second.perform op).1 = (first.perform op).1 ∧
    Twins tokens shared (first.perform op).2 (second.perform op).2 := by
  by_cases hlooks : op.looks = false
  · exact h.perform_of_not_looks (Nat.le_of_lt hlt) (Nat.zero_lt_of_lt hlt) hlooks hop
  cases op with
  | kind => exact ⟨congrArg Reply.matched (h.kind hlt), h⟩
  | position => exact ⟨congrArg Reply.matched h.position, h⟩
  | take => exact withPosition h.position (h.take hlt)
  | expect kind => exact withPosition h.position (h.expect hlt kind)
  | expectChoice kind => exact withPosition h.position (h.expectChoice hlt kind)
  | followedBy kind next =>
    refine ⟨congrArg Reply.matched ?_, h⟩
    rw [h.kind hlt]
    obtain @⟨cursor, htokens, hbeside, hnoted⟩ := h
    by_cases hkind : first.kind = kind
    · have hstop : first.cursor.kind.isStop = false := by
        rw [show first.cursor.kind = kind from hkind]
        simp [TokenKind.isStop, hop.1, hop.2]
      rw [show (first.onto cursor).cursor.ahead 1 = first.cursor.ahead 1 from hbeside.ahead (hbeside.next_lt hlt hstop)]
    · simp only [hkind, decide_false, Bool.false_and]
  | aheadInGroup kinds =>
    obtain @⟨cursor, htokens, hbeside, hnoted⟩ := h
    exact ⟨congrArg Reply.matched (hbeside.aheadInGroup kinds hlt), .intro htokens hbeside hnoted⟩
  | aheadInParentheses kinds =>
    refine ⟨congrArg Reply.matched ?_, h⟩
    rw [h.kind hlt]
    obtain @⟨cursor, htokens, hbeside, hnoted⟩ := h
    by_cases hkind : first.kind = .leftParen
    · have hstop : first.cursor.kind.isStop = false := by
        rw [show first.cursor.kind = .leftParen from hkind]
        rfl
      exact congrArg (_ && ·) (hbeside.aheadInGroup kinds (hbeside.next_lt hlt hstop))
    · simp only [hkind, decide_false, Bool.false_and]
  | lookaheadClass =>
    obtain @⟨cursor, htokens, hbeside, hnoted⟩ := h
    exact ⟨congrArg Reply.matched (lookaheadClass_onto hbeside hlt), .intro htokens hbeside hnoted⟩
  | _ => exact absurd rfl hlooks

theorem skip : Twins tokens shared first.skip second.skip := by
  have hskip (parser : Parser) : parser.skip = parser.take.2 := by
    simp only [Parser.skip, Parser.take]
    cases parser.cursor.advance <;> rfl
  rw [hskip, hskip]
  exact (h.take hlt).2

theorem atListEnd (context : Context) : second.atListEnd context = first.atListEnd context := by
  rw [Parser.atListEnd, Parser.atListEnd, h.atEnd hlt, h.atAny hlt]

theorem skip_lt (hkind : first.kind ≠ .semicolon) :
    first.position ≤ first.skip.position ∧ first.skip.position < shared := by
  unfold Parser.skip Cursor.advance
  by_cases hend : first.cursor.kind = .endOfFile
  · rw [dif_pos hend]
    exact ⟨Nat.le_refl _, hlt⟩
  · rw [dif_neg hend]
    obtain ⟨-, hbeside, -⟩ := h
    have hstop : first.cursor.kind.isStop = false := by
      have hsemicolon : first.cursor.kind ≠ .semicolon := hkind
      simp [TokenKind.isStop, hend, hsemicolon]
    exact ⟨Nat.le_succ _, hbeside.next_lt hlt hstop⟩

theorem skipPast (closers : List TokenKind) {fuel fuel' : Nat} (hfuel : shared ≤ first.position + fuel)
    (hfuel' : shared ≤ first.position + fuel') :
    Twins tokens shared (Parser.skipPast closers fuel first) (Parser.skipPast closers fuel' second) := by
  induction fuel generalizing fuel' first second with
  | zero => omega
  | succ fuel ih =>
    cases fuel' with
    | zero => omega
    | succ fuel' =>
      rw [Parser.skipPast, Parser.skipPast, h.atEnd hlt, h.atAny hlt, h.kind hlt]
      split
      next => exact h
      next hmore =>
        split
        next => exact h.skip hlt
        next hsemicolon =>
          have hend : first.cursor.atEnd = false := by
            simp only [Bool.or_eq_true, not_or, Bool.not_eq_true] at hmore
            exact hmore.1
          obtain ⟨cursor, hskip, -, hmoved⟩ := first.skip_eq
          have hposition : first.position < first.skip.position := hskip ▸ hmoved hend
          exact ih (h.skip hlt) (h.skip_lt hlt hsemicolon).2 (by omega) (by omega)

theorem resynchronize (closers : List TokenKind) :
    Twins tokens shared (first.resynchronize closers) (second.resynchronize closers) := by
  unfold Parser.resynchronize
  rw [h.kind hlt]
  split
  next => exact h.skip hlt
  next hsemicolon =>
    obtain ⟨hle, hskip⟩ := h.skip_lt hlt hsemicolon
    have hfuel : shared ≤ first.skip.position + first.cursor.remaining := by
      obtain ⟨-, hbeside, -⟩ := h
      have hshared := hbeside.shared_le
      simp only [Cursor.remaining, Parser.position] at hle ⊢
      omega
    have hfuel' : shared ≤ first.skip.position + second.cursor.remaining := by
      obtain @⟨cursor, -, hbeside, -⟩ := h
      have hshared := hbeside.shared_le'
      have hposition := hbeside.position
      simp only [Cursor.remaining, Parser.position, onto] at hle ⊢
      omega
    exact (h.skip hlt).skipPast hskip closers hfuel hfuel'

theorem reportUnrecognized (context : Context) (code : Code) :
    Twins tokens shared (first.reportUnrecognized context code first.position)
      (second.reportUnrecognized context code second.position) := by
  have hreport (diagnostic : Diagnostic) := h.report diagnostic
  obtain @⟨cursor, htokens, hbeside, hnoted⟩ := h
  have hposition : (first.onto cursor).position = first.position := hbeside.position
  have hfurthest : (first.onto cursor).furthest = first.furthest := rfl
  have htoken {position : Nat} (h : position < shared) :
      (first.onto cursor).cursor.tokenAt position = first.cursor.tokenAt position := hbeside.tokenAt h
  simp only [Parser.reportUnrecognized, hposition, hfurthest, htoken hlt]
  split
  next mismatch hmismatch =>
    split
    next => rw [htoken (hnoted mismatch hmismatch)]; exact hreport _
    next => rw [htoken hlt]; exact hreport _
  next => rw [htoken hlt]; exact hreport _

theorem dropItem (context : Context) (code : Code) {outer : Option Mismatch}
    (houter : ∀ mismatch ∈ outer, mismatch.position < shared) :
    Twins tokens shared (first.dropItem context code first.position outer)
      (second.dropItem context code second.position outer) := by
  have hresynchronize := (h.reportUnrecognized hlt context code).resynchronize hlt context.closers
  rw [Parser.dropItem, Parser.dropItem, mergeMismatch_eq, mergeMismatch_eq]
  exact hresynchronize.further houter

end Twins

theorem perform_shows {parser later : Parser} {op : Op α} {value : α} {seen : Nat → Prop} (hseen : seen parser.position)
    (h : parser.perform op = (.matched value, later)) : op.Shows seen value := by
  have htoken {result : Reply Token × Parser} {token : TokenAt}
      (h : withPosition parser.position result = (.matched token, later)) : seen token.position := by
    obtain ⟨reply, rest⟩ := result
    cases reply with
    | matched token =>
      cases h
      exact hseen
    | _ => cases h
  cases op with
  | position => exact (Reply.matched.inj (Prod.mk.inj h).1) ▸ hseen
  | take => exact htoken h
  | expect kind => exact htoken h
  | expectChoice kind => exact htoken h
  | _ => trivial

theorem twin_sound (tokens : Array Token) (shared : Nat) : (twin tokens shared).Sound where
  symbols h := h.symbols
  position h := h.position
  furthest h := h.furthest
  noted h := h.noted
  withFurthest h hnoted := h.withFurthest hnoted
  shows h hstrays hrun := perform_shows (h.position_lt hstrays) hrun
  perform h hstrays hop := h.perform (h.position_lt hstrays) hop
  descend {first second} h hstrays := by
    have hstart := h.start (h.position_lt hstrays)
    obtain @⟨cursor, -, -, -⟩ := h
    unfold descend
    by_cases hdepth : first.options.maxDepth ≤ first.depth
    · exact .inl ⟨_, if_pos hdepth, (if_pos hdepth).trans (by rw [hstart]; rfl)⟩
    · exact .inr ⟨if_neg hdepth, if_neg hdepth⟩
  deeper {first second} h := by
    obtain @⟨cursor, htokens, hbeside, hnoted⟩ := h
    exact .intro (p := first.deeper) htokens hbeside hnoted
  ascend {first second} h := by
    obtain @⟨cursor, htokens, hbeside, hnoted⟩ := h
    exact .intro (p := first.ascend) htokens hbeside hnoted
  pushContext {first second} context h := by
    obtain @⟨cursor, htokens, hbeside, hnoted⟩ := h
    exact .intro (p := first.pushContext context) htokens hbeside hnoted
  popContext {first second} h := by
    obtain @⟨cursor, htokens, hbeside, hnoted⟩ := h
    exact .intro (p := first.popContext) htokens hbeside hnoted
  atListEnd context h hstrays := h.atListEnd (h.position_lt hstrays) context
  dropItem context _ _ _ houter h hstrays := h.dropItem (h.position_lt hstrays) context _ houter
  restore {base base' later later'} h hlater hcovers hcovers' := by
    rw [hcovers.restore, hcovers'.restore]
    obtain @⟨cursor, htokens, hbeside, hnoted⟩ := h
    obtain @⟨cursor', htokens', hbeside', hnoted'⟩ := hlater
    exact .intro (p := { later with cursor := base.cursor, log := _, symbols := _, tree := _ })
      htokens hbeside hnoted'

end Parser

end AdaSyntax
