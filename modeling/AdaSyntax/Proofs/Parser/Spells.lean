import AdaSyntax.Proofs.Parser.Finds
import AdaSyntax.Proofs.Parser.Upcoming

namespace AdaSyntax

def TokenKind.isMark : TokenKind → Bool
  | .identifier | .integerLiteral | .realLiteral | .characterLiteral | .stringLiteral | .kwNull => false
  | _ => true

theorem Token.lexeme_eq_mark {token : Token} (h : token.kind.isMark = true) : token.lexeme = .mark token.kind := by
  unfold lexeme
  split
  case h_7 => rfl
  all_goals
    rename_i hkind
    rw [hkind] at h
    cases h

namespace Parser

structure Spells (parser later : Parser) (lexemes : List Lexeme) : Prop where
  upcoming : parser.upcoming = lexemes ++ later.upcoming
  nodes : parser.tree.nodes.toList <+: later.tree.nodes.toList

namespace Spells

variable {parser middle later : Parser} {lexemes lexemes' : List Lexeme}

theorem refl (parser : Parser) : parser.Spells parser [] :=
  ⟨rfl, List.prefix_rfl⟩

theorem trans (h : parser.Spells middle lexemes) (h' : middle.Spells later lexemes') :
    parser.Spells later (lexemes ++ lexemes') where
  upcoming := by rw [h.upcoming, h'.upcoming, List.append_assoc]
  nodes := h.nodes.trans h'.nodes

theorem still (h : parser.Spells middle lexemes) (h' : middle.Spells later []) : parser.Spells later lexemes := by
  simpa using h.trans h'

theorem of_same (hcursor : later.cursor = parser.cursor) (htree : later.tree = parser.tree) :
    parser.Spells later [] where
  upcoming := (upcoming_congr hcursor).symm
  nodes := htree ▸ List.prefix_rfl

theorem of_resumes (h : later.Resumes parser) : parser.Spells later [] := by
  obtain ⟨next, furthest, -, rfl⟩ := h
  exact ⟨rfl, List.prefix_rfl⟩

theorem of_take {token : Token} (h : parser.take = (.matched token, later)) :
    token = parser.current ∧ parser.Spells later [parser.current.lexeme] := by
  obtain ⟨rfl, hupcoming, htree⟩ := upcoming_of_take h
  exact ⟨rfl, hupcoming, htree ▸ List.prefix_rfl⟩

theorem mark {kind : TokenKind} (h : parser.Spells later [parser.current.lexeme]) (hkind : parser.kind = kind)
    (hmark : kind.isMark = true) : parser.Spells later [.mark kind] := by
  have hcurrent : parser.current.kind = kind := hkind
  rwa [Token.lexeme_eq_mark (hcurrent ▸ hmark), hcurrent] at h

end Spells

end Parser

namespace Program.Finds

open AdaSyntax.Parser

variable {α : Type} {budget : Nat} {parser : Parser} {done : α → Parser → Prop}

theorem skip {β : Type} {first : Program β} {next : β → Program α}
    (h : ∀ value later, Finds budget (next value) later done) : Finds budget (first >>= next) parser done :=
  have hany : Finds budget first parser fun _ _ => True := fun _ _ _ _ => trivial
  .bind hany fun value later _ => h value later

theorem refused {expected : String} : Finds budget (.reject expected) parser done := by
  rintro - value later ⟨⟩

theorem nested {body : Program α} (h : Finds budget body parser.deeper fun value later => done value later.ascend) :
    Finds budget (.nested body) parser done := by
  intro hreachable value later hrun
  rcases Nat.lt_or_ge parser.depth parser.options.maxDepth with hlt | hge
  · have hdescend : parser.descend = .ok parser.deeper := if_neg (Nat.not_le.mpr hlt)
    rw [run, Parser.nested, hdescend] at hrun
    obtain ⟨hreply, rfl⟩ := Prod.mk.inj hrun
    exact h (hreachable.move (.descend hdescend)) value _ (Prod.ext hreply rfl)
  · have hdescend : parser.descend = .error (.depthExceeded parser.options.maxDepth parser.start) := if_pos hge
    rw [run, Parser.nested, hdescend] at hrun
    cases hrun

theorem tried {β : Type} {body : Program β} {done : β → Parser → Prop} {moved : Bool} {yield : β → Yield}
    (hbuilds : Builds (Grammar.call budget) body moved yield)
    (h : Finds budget body parser.deeper fun value later => done value later.ascend) :
    Finds budget (.attempt body) parser fun found later =>
      (∀ value, found = some value → done value later) ∧ (found = none → parser.Spells later []) := by
  refine .attempt hbuilds (h.mono fun value later _ hdone => ⟨?_, fun hnone => by cases hnone⟩) fun later hresumes => ?_
  · rintro _ ⟨⟩
    exact hdone
  · refine ⟨?_, fun _ => .of_resumes hresumes⟩
    rintro _ ⟨⟩

theorem call {production : Production α} (h : Finds budget (Grammar.ofProduction production) parser done) :
    Finds (budget + 1) (.call production) parser done :=
  h

theorem kind {next : TokenKind → Program α} (h : Finds budget (next (Lexeme.kindAt parser.upcoming 0)) parser done) :
    Finds budget (Program.kind >>= next) parser done :=
  .query rfl (by rw [← kind_eq] at h; exact h)

theorem isAt {kind : TokenKind} {next : Bool → Program α}
    (h : Finds budget (next (Lexeme.kindAt parser.upcoming 0 == kind)) parser done) :
    Finds budget (Program.isAt kind >>= next) parser done := by
  rw [← kind_eq] at h
  exact fun hreachable value later hrun => h hreachable value later hrun

theorem followedBy {first second : TokenKind} {next : Bool → Program α}
    (h : Finds budget
      (next (Lexeme.kindAt parser.upcoming 0 = first && Lexeme.kindAt parser.upcoming 1 = second)) parser done) :
    Finds budget (Program.followedBy first second >>= next) parser done :=
  .query rfl (by rw [← kind_eq, ← ahead_kind] at h; exact h)

structure Took (parser : Parser) (token : TokenAt) (later : Parser) : Prop where
  text : token.text = parser.current.text
  spells : parser.Spells later [parser.current.lexeme]

theorem took_of_withPosition {position : Nat} {token : TokenAt} {later : Parser}
    (h : withPosition position parser.take = (.matched token, later)) : Took parser token later := by
  cases htake : parser.take with
  | mk reply between =>
    rw [htake] at h
    cases reply with
    | matched taken =>
      obtain ⟨rfl, hspells⟩ := Spells.of_take htake
      obtain ⟨hreply, rfl⟩ := Prod.mk.inj h
      obtain rfl := Reply.matched.inj hreply
      exact ⟨rfl, hspells⟩
    | _ => cases h

theorem take : Finds budget Program.take parser (Took parser) :=
  .step fun _ _ hperform => took_of_withPosition hperform

theorem advance {kind : TokenKind} (hkind : Lexeme.kindAt parser.upcoming 0 = kind) (hmark : kind.isMark = true) :
    Finds budget Program.advance parser fun _ later => parser.Spells later [.mark kind] :=
  .bind .take fun _ _ htook => .pure (htook.spells.mark (parser.kind_eq.trans hkind) hmark)

theorem accept {kind : TokenKind} (hmark : kind.isMark = true) :
    Finds budget (Program.accept kind) parser fun answer later =>
      answer = (Lexeme.kindAt parser.upcoming 0 == kind) ∧
        parser.Spells later (if answer then [.mark kind] else []) := by
  refine .isAt ?_
  cases hkind : Lexeme.kindAt parser.upcoming 0 == kind with
  | true => exact .bind (.advance (eq_of_beq hkind) hmark) fun _ _ hspells => .pure ⟨rfl, hspells⟩
  | false => exact .pure ⟨rfl, .refl parser⟩

theorem expect {kind : TokenKind} (hmark : kind.isMark = true) :
    Finds budget (Program.expect kind) parser fun _ later => parser.Spells later [.mark kind] := by
  refine .bind (.step fun token later hperform => ?_) fun _ _ hspells => .pure hspells
  simp only [Parser.perform, Parser.expect] at hperform
  split at hperform
  · exact (took_of_withPosition hperform).spells.mark ‹_› hmark
  · split at hperform <;> cases hperform

theorem expectChoice {kind : TokenKind} (hmark : kind.isMark = true) :
    Finds budget (Program.expectChoice kind) parser fun _ later => parser.Spells later [.mark kind] := by
  refine .bind (.step fun token later hperform => ?_) fun _ _ hspells => .pure hspells
  simp only [Parser.perform, Parser.expectChoice] at hperform
  split at hperform
  · exact (took_of_withPosition hperform).spells.mark ‹_› hmark
  · cases hperform

theorem add_secures (start : Nat) (payload : Payload Nat) :
    Secures budget (Program.add start payload) parser fun node later =>
      parser.Spells later [] ∧ later.tree.payload node = payload.map parser.place := by
  refine .step fun node later hperform => ?_
  obtain ⟨hnode, rfl⟩ := Prod.mk.inj hperform
  obtain rfl := Reply.matched.inj hnode
  exact ⟨⟨rfl, by simp⟩, Tree.payload_of_get? (parser.tree.get?_add_self _ _)⟩

theorem add (start : Nat) (payload : Payload Nat) :
    Finds budget (Program.add start payload) parser fun node later =>
      parser.Spells later [] ∧ later.tree.payload node = payload.map parser.place :=
  fun _ => add_secures start payload

theorem find {finding : Finding} : Finds budget (Program.find finding) parser fun _ later =>
    later.cursor = parser.cursor ∧ later.tree = parser.tree := by
  refine .step fun _ later hperform => ?_
  obtain ⟨-, rfl⟩ := Prod.mk.inj hperform
  exact ⟨(parser.find_reports finding).cursor_eq, (parser.find_reports finding).tree_eq⟩

end Program.Finds

end AdaSyntax
