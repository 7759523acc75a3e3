import AdaSyntax.Proofs.Formula.Echo

namespace AdaSyntax

def Program.Retraces (budget : Nat) (program : Program NodeId) : Prop :=
  ∀ parser : Parser, Program.Finds budget program parser parser.Echoes

namespace Formula

open Program Grammar AdaSyntax.Parser

variable {budget : Nat} {parser middle : Parser} {moved : Bool} {yield : NodeId → Yield} {program : Program NodeId}
variable {start : Nat} {base left : NodeId}

theorem finds_echoes (hbuilds : Builds (Grammar.call budget) program moved yield)
    (h : Finds budget program parser fun node later =>
      parser.tree.nodes.toList <+: later.tree.nodes.toList → parser.Echoes node later) :
    Finds budget program parser parser.Echoes :=
  (h.both (.made hbuilds)).mono fun _ _ _ hboth => hboth.1 hboth.2.reverts.nodes

theorem retraces_of_isOther (hbuilds : Builds (Grammar.call budget) program moved yield)
    (h : ∀ parser, Finds budget program parser fun node later => (later.tree.payload node).isOther = true) :
    Retraces budget program := fun parser =>
  finds_echoes hbuilds ((h parser).mono fun _ _ _ hother hnodes => .of_isOther hnodes hother)

theorem add_isOther {payload : Payload Nat} (h : ∀ parser : Parser, (payload.map parser.place).isOther = true) :
    Finds budget (add start payload) parser fun node later => (later.tree.payload node).isOther = true :=
  (Finds.add _ _).mono fun _ _ _ hadded => hadded.2 ▸ h parser

theorem literal_echoes {kind : LiteralKind} (h : Lexeme.kindAt parser.upcoming 0 = kind.token) :
    Finds budget (Grammar.literal kind) parser parser.Echoes := by
  refine .position (.bind .take fun token middle htook => ?_)
  refine (Finds.add _ _).mono fun node later _ hadded => ?_
  have hkind : parser.current.kind = kind.token := parser.kind_eq.trans h
  have hlexeme : parser.current.lexeme = ⟨kind.token, token.text⟩ := htook.text ▸ Token.lexeme_of_literal hkind
  exact .literal (hlexeme ▸ htook.spells.still hadded.1) hadded.2

theorem directName_echoes : Finds budget directName parser fun node later =>
    parser.Spells later [parser.current.lexeme] ∧
      (Lexeme.kindAt parser.upcoming 0 = .identifier → parser.Echoes node later) := by
  refine .position (.reads (isAtAny_reads _) fun isName => ?_)
  split
  · refine .bind .take fun token middle htook => .query rfl ?_
    refine (Finds.add _ _).mono fun node later _ hadded => ⟨htook.spells.still hadded.1, fun hkind => ?_⟩
    have hkind : parser.current.kind = .identifier := parser.kind_eq.trans hkind
    have hlexeme : parser.current.lexeme = ⟨.identifier, (Name.ofText token.text).text⟩ :=
      htook.text ▸ Token.lexeme_of_identifier hkind
    exact .identifier (hlexeme ▸ htook.spells.still hadded.1) hadded.2
  · exact .refused

theorem select_isOther {selector : Name} :
    Finds budget (select start base selector) parser fun node later => (later.tree.payload node).isOther = true :=
  .skip fun _ _ => .skip fun _ _ => add_isOther fun _ => rfl

theorem selectedSuffix_isOther :
    Finds budget (selectedSuffix start base) parser fun node later => (later.tree.payload node).isOther = true := by
  refine .skip fun _ _ => .skip fun isAll _ => ?_
  split
  · exact add_isOther fun _ => rfl
  · exact .skip fun _ _ => select_isOther

theorem argumentsSuffix_isOther {kind : SymbolKind} :
    Finds budget (argumentsSuffix start base kind) parser fun node later =>
      (later.tree.payload node).isOther = true :=
  .skip fun _ _ => add_isOther fun _ => rfl

theorem applySuffix_isOther :
    Finds budget (applySuffix start base) parser fun node later => (later.tree.payload node).isOther = true := by
  refine .skip fun _ _ => .skip fun _ _ => ?_
  split
  · refine .skip fun bounds _ => ?_
    split
    · exact add_isOther fun _ => rfl
    · exact argumentsSuffix_isOther
  · exact argumentsSuffix_isOther

theorem attributeSuffix_isOther :
    Finds budget (attributeSuffix start base) parser fun node later => (later.tree.payload node).isOther = true := by
  refine .skip fun _ _ => .skip fun isDesignator _ => ?_
  split
  · exact .skip fun _ _ => .skip fun _ _ => add_isOther fun _ => rfl
  · exact .refused

theorem suffix_finds : Finds budget (suffix start base) parser fun
    | some node, later => (later.tree.payload node).isOther = true
    | none, later => later = parser ∧ Lexeme.kindAt parser.upcoming 0 ≠ .leftParen := by
  refine .kind ?_
  split
  · exact .bind selectedSuffix_isOther fun _ _ h => .pure h
  · exact .bind applySuffix_isOther fun _ _ h => .pure h
  · rename_i htick
    refine .reads (Reads.query rfl) fun isQualified => ?_
    split
    · exact .pure ⟨rfl, by rw [htick]; exact TokenKind.noConfusion⟩
    · exact .bind attributeSuffix_isOther fun _ _ h => .pure h
  · rename_i hparen _
    exact .pure ⟨rfl, hparen⟩

theorem name_echoes (h : Lexeme.kindAt parser.upcoming 0 = .identifier ∨ Lexeme.kindAt parser.upcoming 1 = .leftParen) :
    Finds budget (rule .name) parser parser.Echoes := by
  refine .rule fun budget => finds_echoes name_builds (.nested (.position (.bind directName_echoes ?_)))
  rintro base middle ⟨hspells, hbase⟩
  refine .loop (fun node later => (parser.deeper.Spells later [parser.current.lexeme] ∧
      (Lexeme.kindAt parser.upcoming 0 = .identifier → parser.deeper.Echoes node later)) ∨
    (later.tree.payload node).isOther = true) (.inl ⟨hspells, hbase⟩) fun node later hkeeps => ?_
  refine .bind suffix_finds fun longer last hlonger => ?_
  cases longer with
  | some longer => exact .pure (.inr hlonger)
  | none =>
    obtain ⟨rfl, hparen⟩ := hlonger
    refine .pure fun hnodes => ?_
    rcases hkeeps with ⟨hspells, hechoes⟩ | hother
    · have hnext : Lexeme.kindAt parser.upcoming 1 = Lexeme.kindAt last.upcoming 0 := by
        rw [show parser.upcoming = _ from hspells.upcoming]
        rfl
      exact (hechoes (h.resolve_right (hnext ▸ hparen))).ascend
    · exact .of_isOther hnodes hother

theorem namedAssociation_retraces : Retraces budget namedAssociation :=
  retraces_of_isOther namedAssociation_builds fun _ =>
    .skip fun _ _ => .skip fun _ _ => .skip fun _ _ => .skip fun _ _ => add_isOther fun _ => rfl

theorem association_retraces (hexpression : Retraces budget (rule .expression)) : Retraces budget association := by
  intro parser
  refine .reads (Reads.query rfl) fun isNamed => ?_
  have hnamed : Finds budget (attemptIf isNamed namedAssociation) parser fun found later =>
      (∀ node, found = some node → parser.Echoes node later) ∧ (found = none → parser.Spells later []) := by
    cases isNamed with
    | false =>
      refine .pure ⟨?_, fun _ => .refl parser⟩
      rintro _ ⟨⟩
    | true =>
      exact .tried namedAssociation_builds ((namedAssociation_retraces parser.deeper).mono fun _ _ _ h => h.ascend)
  refine .bind hnamed fun found later hfound => ?_
  cases found with
  | some node => exact .pure (hfound.1 node rfl)
  | none => exact (hexpression later).mono fun _ _ _ h => h.behind (hfound.2 rfl)

theorem separated_echoes {separator : TokenKind} {item : Program NodeId} (hmark : separator.isMark = true)
    (hitem : Retraces budget item) :
    Finds budget (separated separator item) parser fun nodes later =>
      ∀ node, nodes = [node] → parser.Echoes node later := by
  refine .loop (fun nodes later => nodes = [] → later = parser) (fun _ => rfl) fun nodes later hkeeps => ?_
  refine .bind (hitem later) fun node middle hechoes => .bind (.accept hmark) fun goesOn last hlast => ?_
  cases goesOn with
  | true => exact .pure fun hnil => absurd hnil (List.cons_ne_nil _ _)
  | false =>
    refine .pure fun result hsingle => ?_
    rw [List.reverse_eq_iff] at hsingle
    obtain ⟨rfl, rfl⟩ := List.cons.inj hsingle
    exact hkeeps rfl ▸ hechoes.still hlast.2

theorem aggregate_retraces (hexpression : Retraces budget (rule .expression)) : Retraces budget aggregate := by
  intro parser
  have hcomponents : Finds budget actualParameters parser fun nodes later => ∀ node, nodes = [node] →
      ∃ opened closed, parser.Spells opened [.mark .leftParen] ∧ opened.Echoes node closed ∧
        closed.Spells later [.mark .rightParen] := by
    refine .bind (.expect rfl) fun _ opened hopen => ?_
    refine .bind (separated_echoes rfl (association_retraces hexpression)) fun nodes closed hnodes => ?_
    refine .bind (.expect rfl) fun _ later hclose => .pure fun node hsingle => ?_
    exact ⟨opened, closed, hopen, hnodes node hsingle, hclose⟩
  refine finds_echoes aggregate_builds (.position (.bind hcomponents fun nodes middle hnodes => ?_))
  have hother {components : List NodeId} : Finds budget (add parser.position (.expr (.aggregate components))) middle
      fun node later => parser.tree.nodes.toList <+: later.tree.nodes.toList → parser.Echoes node later :=
    (add_isOther fun _ => rfl).mono fun _ _ _ hother hgrown => .of_isOther hgrown hother
  split
  · rename_i inner
    obtain ⟨opened, closed, hopen, hinner, hclose⟩ := hnodes inner rfl
    refine .reads (Reads.query rfl) fun payload => ?_
    split
    · exact hother
    · exact (Finds.add _ _).mono fun node later _ hadded _ => .parenthesized hopen hinner hclose hadded.1 hadded.2
  · exact hother

theorem nameOrQualified_echoes
    (h : Lexeme.kindAt parser.upcoming 0 = .identifier ∨ Lexeme.kindAt parser.upcoming 1 = .leftParen) :
    Finds budget nameOrQualified parser parser.Echoes := by
  refine finds_echoes nameOrQualified_builds (.position (.bind (name_echoes h) fun mark later hmark => ?_))
  refine .reads (Reads.query rfl) fun isQualified => ?_
  split
  · refine .skip fun _ _ => .skip fun _ _ => ?_
    exact (add_isOther fun _ => rfl).mono fun _ _ _ hother hgrown => .of_isOther hgrown hother
  · exact .pure fun _ => hmark

theorem allocator_retraces : Retraces budget allocator :=
  retraces_of_isOther allocator_builds fun _ => by
    refine .skip fun _ _ => .skip fun _ _ => .skip fun qualified _ => ?_
    split
    · exact .skip fun _ _ => add_isOther fun _ => rfl
    · exact .skip fun _ _ => add_isOther fun _ => rfl

theorem primary_retraces (hexpression : Retraces budget (rule .expression)) : Retraces budget primary := by
  intro parser
  refine .kind ?_
  split
  · exact literal_echoes ‹_›
  · exact literal_echoes ‹_›
  · exact literal_echoes ‹_›
  · exact literal_echoes ‹_›
  · rename_i hstring
    refine .followedBy ?_
    split
    · rename_i hfollowed
      exact nameOrQualified_echoes (.inr (by simpa [hstring] using hfollowed))
    · exact literal_echoes hstring
  · exact allocator_retraces parser
  · exact aggregate_retraces hexpression parser
  · exact nameOrQualified_echoes (.inl ‹_›)
  · exact .refused

end Formula

end AdaSyntax
