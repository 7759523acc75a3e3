import AdaSyntax.Compilation
import AdaSyntax.Proofs.Depth
import AdaSyntax.Proofs.Grammar.Effects
import AdaSyntax.Proofs.Grammar.Production
import AdaSyntax.Proofs.Parser.Disguise
import AdaSyntax.Proofs.Parser.Recovery
import AdaSyntax.Proofs.Progress
import AdaSyntax.Proofs.Token.Beside

/-!
Lists that go on behind what is no item. A list comes to its end in front of a token that closes it; on the way each
item has matched and left what it built, or it has left one report and nothing else, and where the list goes on
behind it depends on the tokens alone.
-/

namespace AdaSyntax

open Program

namespace Cursor

theorem tokenAt_congr {first second : Cursor} (h : second.tokens = first.tokens) (index : Nat) :
    second.tokenAt index = first.tokenAt index := by
  have hlt : min index (first.tokens.size - 1) < first.tokens.size := by
    have := first.position_lt
    omega
  simp only [tokenAt, h, Array.getD_eq_getD_getElem?, Array.getElem?_eq_getElem hlt, Option.getD_some]

def next (cursor : Cursor) (h : cursor.kind ≠ .endOfFile) : Cursor :=
  { cursor with position := cursor.position + 1, position_lt := cursor.succ_lt_size h }

end Cursor

namespace Context

/-- Whether lists of this kind end in front of a token. -/
def ends (context : Context) (kind : TokenKind) : Bool := kind = .endOfFile || context.closers.contains kind

/-- Where a list goes on behind an item that begins at `first` and is none: behind the first semicolon, or in front of
the first token behind that of the item itself that ends the list, whichever comes first. -/
structure Resumes (context : Context) (first next : Cursor) : Prop where
  tokens : next.tokens = first.tokens
  lt : first.position < next.position
  within : ∀ index, first.position ≤ index → index + 1 < next.position → (first.tokenAt index).kind ≠ .semicolon
  inside : ∀ index, first.position < index → index < next.position → context.ends (first.tokenAt index).kind = false
  stops : (first.tokenAt (next.position - 1)).kind = .semicolon ∨ context.ends next.kind = true

def Skips (context : Context) (first next : Cursor) : Prop :=
  next = first ∧ context.ends first.kind = true ∨
    context.Resumes first next ∧ context.ends first.kind = false

variable {context : Context} {first second second' : Cursor}

theorem kind_ne_of_open (h : context.ends first.kind = false) : first.kind ≠ .endOfFile := by
  intro heq
  rw [heq] at h
  cases h

theorem Resumes.semicolon (hend : first.kind ≠ .endOfFile) (h : first.kind = .semicolon) :
    context.Resumes first (first.next hend) where
  tokens := rfl
  lt := Nat.lt_succ_self _
  within index hle hlt := absurd hlt (Nat.not_lt.mpr (Nat.succ_le_succ hle))
  inside index hlt hlt' := absurd hlt' (Nat.not_lt.mpr hlt)
  stops := .inl (by rw [Cursor.next, Nat.add_sub_cancel, first.tokenAt_position]; exact h)

theorem Skips.resumes (hend : first.kind ≠ .endOfFile) (hkind : first.kind ≠ .semicolon)
    (h : context.Skips (first.next hend) second) : context.Resumes first second := by
  have hsame : ∀ index, (first.next hend).tokenAt index = first.tokenAt index := Cursor.tokenAt_congr rfl
  rcases h with ⟨rfl, hclosed⟩ | ⟨h, hopen⟩
  · refine ⟨rfl, Nat.lt_succ_self _, ?_, ?_, .inr hclosed⟩
    · exact fun index hle hlt => absurd hlt (Nat.not_lt.mpr (Nat.succ_le_succ hle))
    · exact fun index hlt hlt' => absurd hlt' (Nat.not_lt.mpr hlt)
  · refine ⟨h.tokens, Nat.lt_of_succ_lt h.lt, fun index hle hlt => ?_, fun index hle hlt => ?_, ?_⟩
    · rcases Nat.lt_or_eq_of_le hle with hle | rfl
      · exact hsame index ▸ h.within index hle hlt
      · rw [first.tokenAt_position]
        exact hkind
    · rcases Nat.lt_or_eq_of_le hle with hle | heq
      · exact hsame index ▸ h.inside index hle hlt
      · obtain rfl : (first.next hend).position = index := heq
        rw [← hsame, Cursor.tokenAt_position]
        exact hopen
    · exact h.stops.imp_left fun hlast => hsame _ ▸ hlast

theorem Resumes.unique (h : context.Resumes first second) (h' : context.Resumes first second') : second' = second := by
  have hle : ∀ {one other : Cursor}, context.Resumes first one → context.Resumes first other →
      one.position ≤ other.position := by
    refine fun {one other} hone hother => Nat.le_of_not_lt fun hlt => ?_
    have hfirst := hother.lt
    rcases hother.stops with hsemicolon | hend
    · exact hone.within (other.position - 1) (by omega) (by omega) hsemicolon
    · have hclosed := hone.inside other.position hother.lt hlt
      rw [← Cursor.tokenAt_congr hother.tokens, Cursor.tokenAt_position] at hclosed
      exact Bool.false_ne_true (hclosed.symm.trans hend)
  exact Cursor.ext_of_tokens (h'.tokens.trans h.tokens.symm) (Nat.le_antisymm (hle h' h) (hle h h'))

end Context

namespace Parser

variable {parser later : Parser} {context : Context} {code : Code}

theorem skip_eq_next (h : parser.cursor.kind ≠ .endOfFile) :
    parser.skip = { parser with cursor := parser.cursor.next h } := by
  simp only [skip, Cursor.advance, dif_neg h]
  rfl

theorem skipPast_skips (parser : Parser) (context : Context) (fuel : Nat) (h : parser.cursor.remaining ≤ fuel) :
    ∃ cursor, skipPast context.closers fuel parser = { parser with cursor } ∧ context.Skips parser.cursor cursor := by
  induction fuel generalizing parser with
  | zero => exact absurd parser.cursor.position_lt (by simp only [Cursor.remaining] at h; omega)
  | succ fuel ih =>
    rw [skipPast]
    split
    · rename_i hclosed
      exact ⟨parser.cursor, rfl, .inl ⟨rfl, hclosed⟩⟩
    · rename_i hopen
      have hopen : context.ends parser.cursor.kind = false := Bool.eq_false_iff.mpr hopen
      have hend := Context.kind_ne_of_open hopen
      rw [skip_eq_next hend]
      split
      · rename_i hsemicolon
        exact ⟨_, rfl, .inr ⟨.semicolon hend hsemicolon, hopen⟩⟩
      · rename_i hkind
        obtain ⟨cursor, heq, hskips⟩ := ih { parser with cursor := parser.cursor.next hend } (by
          simp only [Cursor.remaining, Cursor.next] at h ⊢
          omega)
        exact ⟨cursor, heq, .inr ⟨hskips.resumes hend hkind, hopen⟩⟩

theorem resynchronize_resumes (parser : Parser) (hopen : context.ends parser.cursor.kind = false) :
    ∃ cursor, parser.resynchronize context.closers = { parser with cursor } ∧ context.Resumes parser.cursor cursor := by
  have hend := Context.kind_ne_of_open hopen
  rw [resynchronize, skip_eq_next hend]
  split
  · rename_i hsemicolon
    exact ⟨_, rfl, .semicolon hend hsemicolon⟩
  · rename_i hkind
    obtain ⟨cursor, heq, hskips⟩ := skipPast_skips { parser with cursor := parser.cursor.next hend } context
      parser.cursor.remaining (by
        simp only [Cursor.remaining, Cursor.next]
        omega)
    exact ⟨cursor, heq, hskips.resumes hend hkind⟩

/-- In place of an item that begins at `parser`, nothing is left at `later` but one report; what was tried moved the
counter of regions and the furthest mismatch. -/
def Drops (context : Context) (code : Code) (parser later : Parser) : Prop :=
  ∃ report cursor next furthest, report.code = code ∧ context.Resumes parser.cursor cursor ∧
    parser.symbols.nextRegion ≤ next ∧
      later = { parser with
        cursor, log := parser.log.report report, symbols := { parser.symbols with nextRegion := next }, furthest }

/-- The items of a list that begins at one parser and ends at another one. -/
inductive Recovers (context : Context) (code : Code) (item : Parser → Reply NodeId × Parser) :
    Parser → List NodeId → Parser → Prop where
  | ended {parser : Parser} (hclosed : context.ends parser.kind = true) : Recovers context code item parser [] parser
  | matched {parser middle last : Parser} {node : NodeId} {nodes : List NodeId}
      (hopen : context.ends parser.kind = false)
      (hitem : parser.forgetMismatch.attempt item = (.matched node, middle))
      (hmoved : parser.position < middle.position) (hkept : middle.Appends parser)
      (hrest : Recovers context code item (middle.mergeMismatch parser.furthest) nodes last) :
      Recovers context code item parser (node :: nodes) last
  | dropped {parser later last : Parser} {nodes : List NodeId} (hopen : context.ends parser.kind = false)
      (hitem : (parser.forgetMismatch.attempt item).1 = .mismatch) (hdrops : Drops context code parser later)
      (hrest : Recovers context code item later nodes last) : Recovers context code item parser nodes last

theorem Recovers.closed {item : Parser → Reply NodeId × Parser} {nodes : List NodeId}
    (h : Recovers context code item parser nodes later) : context.ends later.kind = true := by
  induction h with
  | ended hclosed => exact hclosed
  | matched _ _ _ _ _ ih => exact ih
  | dropped _ _ _ _ ih => exact ih

theorem dropItem_drops {middle : Parser} (code : Code) (h : middle.Resumes parser)
    (hopen : context.ends parser.kind = false) (outer : Option Mismatch) :
    Drops context code parser (middle.dropItem context code parser.position outer) := by
  obtain ⟨next, furthest, hnext, rfl⟩ := h
  let tried : Parser := { parser with symbols := { parser.symbols with nextRegion := next }, furthest }
  obtain ⟨report, hreport, hcode⟩ : ∃ report,
      tried.reportUnrecognized context code parser.position = tried.report report ∧ report.code = code := ⟨_, rfl, rfl⟩
  obtain ⟨cursor, hcursor, hresumes⟩ := resynchronize_resumes (tried.report report) hopen
  refine ⟨report, cursor, next, Mismatch.further outer furthest, hcode, hresumes, hnext, ?_⟩
  change (Parser.resynchronize (tried.reportUnrecognized context code parser.position) _).mergeMismatch outer = _
  rw [hreport, hcursor, mergeMismatch_eq]
  rfl

end Parser

namespace Context

open AdaSyntax.Parser

def role : Context → Role
  | statementSequence => .statement []
  | _ => .declaration

theorem item_builds (context : Context) (budget : Nat) :
    Builds (Grammar.call budget) context.item true fun node => (Yield.one context.role node).filing := by
  cases context with
  | compilation => exact rule_files .compilationUnit
  | packageSpecification | declarativePart | genericFormalPart | componentList =>
    exact (firstOf_builds .declaration (by decide)).weaken fun _ => .filing _
  | statementSequence => exact rule_files .statement

theorem attempt_item {parser : Parser} (hreachable : parser.Reachable) (context : Context) (budget : Nat) :
    Outcome (·.Resumes parser) (fun _ middle => middle.Appends parser ∧ parser.position < middle.position)
      (parser.forgetMismatch.attempt (context.item.run (Grammar.call budget))) := by
  have hattempt : Outcome (·.Resumes parser.forgetMismatch)
      (fun node middle => Made parser.forgetMismatch middle true (Yield.one context.role node).filing)
      (parser.forgetMismatch.attempt (context.item.run (Grammar.call budget))) :=
    attempt_outcome ((context.item_builds budget).deeper hreachable.proper)
  refine hattempt.mono ?_ fun node middle hmade => ⟨{ hmade.appends with }, hmade.reaches⟩
  rintro _ ⟨next, furthest, hnext, rfl⟩
  exact ⟨next, furthest, hnext, rfl⟩

theorem parseItems_recovers {parser : Parser} (hreachable : parser.Reachable) (context : Context) (code : Code)
    (budget fuel : Nat) (items : List NodeId) :
    Outcome (fun _ => True) (fun nodes later => ∃ found, nodes = items.reverse ++ found ∧
        Recovers context code (context.item.run (Grammar.call budget)) parser found later)
      (parseItems context code (context.item.run (Grammar.call budget)) fuel items parser) ∧
    (parseItems context code (context.item.run (Grammar.call budget)) fuel items parser).1 ≠ .mismatch := by
  induction fuel generalizing items parser with
  | zero => exact ⟨trivial, by simp [parseItems]⟩
  | succ fuel ih =>
    rw [parseItems]
    split
    · rename_i hclosed
      exact ⟨⟨[], (List.append_nil _).symm, .ended hclosed⟩, by simp⟩
    · rename_i hopen
      have hopen : context.ends parser.kind = false := Bool.eq_false_iff.mpr hopen
      have hitem := attempt_item hreachable context budget
      have hreached : (parser.forgetMismatch.attempt (context.item.run (Grammar.call budget))).2.Reachable :=
        Reachable.kept.attempt (fun _ h => Reachable.kept.run (Reachable.kept.call budget) _ _ h)
          (hreachable.move .forgetMismatch)
      generalize hattempt : parser.forgetMismatch.attempt (context.item.run (Grammar.call budget)) = result
        at hitem hreached
      obtain ⟨reply, middle⟩ := result
      cases reply with
      | matched node =>
        obtain ⟨hkept, hmoved⟩ := hitem
        obtain ⟨hrest, hmatched⟩ := ih (hreached.move (.mergeMismatch parser.furthest)) (node :: items)
        refine ⟨hrest.mono (fun _ _ => trivial) ?_, hmatched⟩
        rintro _ later ⟨found, rfl, hfound⟩
        refine ⟨node :: found, ?_, .matched hopen hattempt hmoved hkept hfound⟩
        rw [List.reverse_cons, List.append_assoc]
        rfl
      | mismatch =>
        have hdrops := dropItem_drops code hitem hopen parser.furthest
        obtain ⟨hrest, hmatched⟩ := ih
          (Reachable.kept.dropItem context code parser.position parser.furthest hreached) items
        refine ⟨hrest.mono (fun _ _ => trivial) ?_, hmatched⟩
        rintro _ later ⟨found, rfl, hfound⟩
        exact ⟨found, rfl, .dropped hopen (congrArg Prod.fst hattempt) hdrops hfound⟩
      | _ => exact ⟨trivial, by simp⟩

/-- The list of a context, in whatever state it begins, ends in front of a token that closes it, or in a fatal error.
Behind it are the nodes of the items that matched, in the order of the text, and for each of the others one report of
the code and nothing else; the next item is looked for where the tokens say. -/
theorem items_recover {parser : Parser} (hreachable : parser.Reachable) (context : Context) (code : Code)
    (budget : Nat) :
    ((Program.items context code context.item).run (Grammar.call budget) parser).1 ≠ .mismatch ∧
      (Grammar.callBudget parser ≤ budget →
        ((Program.items context code context.item).run (Grammar.call budget) parser).1 ≠ .exhausted) ∧
      ∀ nodes later,
        (Program.items context code context.item).run (Grammar.call budget) parser = (.matched nodes, later) →
        ∃ last, Recovers context code (context.item.run (Grammar.call budget)) (parser.pushContext context) nodes last ∧
          later = last.popContext ∧ context.ends later.kind = true := by
  obtain ⟨rank, hrank, hitem⟩ := context.item_supplies
  refine ⟨?_, fun hbudget => ?_, ?_⟩
  · obtain ⟨-, hmatched⟩ := parseItems_recovers (hreachable.move (.pushContext context)) context code budget
      (parser.cursor.remaining + 1) []
    exact hmatched
  · have hlist : (Program.items context code context.item).Supplies rank false _ := items_supplies hitem
    obtain ⟨hexecute, hmore⟩ := hlist.getsThrough hrank parser
    rw [hmore budget hbudget]
    exact hexecute
  · intro nodes later hrun
    obtain ⟨hnodes, -⟩ := parseItems_recovers (hreachable.move (.pushContext context)) context code budget
      (parser.cursor.remaining + 1) []
    rw [run_items, parseList] at hrun
    generalize parseItems context code (context.item.run (Grammar.call budget)) _ [] _ = result at hnodes hrun
    obtain ⟨reply, last⟩ := result
    obtain ⟨rfl, rfl⟩ := Prod.mk.inj hrun
    obtain ⟨found, rfl, hfound⟩ := hnodes
    exact ⟨last, hfound, rfl, hfound.closed⟩

theorem grammar_items :
    Grammar.declarativeItems .packageSpecification =
        .items .packageSpecification .unrecognizedDeclaration packageSpecification.item ∧
      Grammar.declarativePart = .items .declarativePart .unrecognizedDeclaration declarativePart.item ∧
      Grammar.statements = .items .statementSequence .unrecognizedStatement statementSequence.item ∧
      (∃ rest : Nat → NodeId → List NodeId → Program NodeId, Grammar.genericDeclaration = (do
        let start ← position
        expect .kwGeneric
        let node ← reserve start
        openRegion .genericFormal none
        let formals ← .items .genericFormalPart .unrecognizedDeclaration genericFormalPart.item
        rest start node formals)) ∧
      ∃ rest : List NodeId → Program (List NodeId × Option NodeId), Grammar.componentList = (do
        if ← followedBy .kwNull .semicolon then
          advance
          advance
          return ([], none)
        else
          let components ← .items .componentList .unrecognizedComponent componentList.item
          rest components) :=
  ⟨rfl, rfl, rfl, ⟨_, rfl⟩, ⟨_, rfl⟩⟩

def faultyDeclarations : Parser :=
  .new (.ofSource "; X : exception; Y := 3; Z : exception; W : end") { predefined := false }

def faultyRun : Reply (List NodeId) × Parser :=
  (Program.items .packageSpecification .unrecognizedDeclaration packageSpecification.item).run
    (Grammar.call (Grammar.callBudget faultyDeclarations)) faultyDeclarations

/-- A semicolon is dropped alone, a declaration up to its semicolon, and the last one in front of the end. -/
theorem items_recover_faulty :
    faultyDeclarations.Reachable ∧ faultyRun = (.matched [⟨0⟩, ⟨1⟩], faultyRun.2) ∧
      (∃ last, Recovers .packageSpecification .unrecognizedDeclaration
          (packageSpecification.item.run (Grammar.call (Grammar.callBudget faultyDeclarations)))
          (faultyDeclarations.pushContext .packageSpecification) [⟨0⟩, ⟨1⟩] last ∧ faultyRun.2 = last.popContext) ∧
      faultyRun.2.kind = .kwEnd ∧ faultyRun.2.log.records.toList.map (·.code) = .replicate 3 .unrecognizedDeclaration ∧
      faultyRun.2.symbols.symbols.size = 2 := by
  have hfacts : faultyRun.1.value? = some [⟨0⟩, ⟨1⟩] ∧ faultyRun.2.kind = .kwEnd ∧
      faultyRun.2.log.records.toList.map (·.code) = .replicate 3 .unrecognizedDeclaration ∧
      faultyRun.2.symbols.symbols.size = 2 := by decide +kernel
  obtain ⟨hvalue, hkind, hcodes, hsymbols⟩ := hfacts
  have hreachable : faultyDeclarations.Reachable := .new _ _
  have hrun : faultyRun = (.matched [⟨0⟩, ⟨1⟩], faultyRun.2) := Reply.result_eq hvalue
  obtain ⟨-, -, hmatched⟩ := items_recover hreachable .packageSpecification .unrecognizedDeclaration
    (Grammar.callBudget faultyDeclarations)
  obtain ⟨last, hrecovers, hlast, -⟩ := hmatched _ _ hrun
  exact ⟨hreachable, hrun, ⟨last, hrecovers, hlast⟩, hkind, hcodes, hsymbols⟩

end Context

end AdaSyntax
