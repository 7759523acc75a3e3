import AdaSyntax.Compilation
import AdaSyntax.Proofs.Formula.Primary

/-!
Classification of names that are not read yet. Looking ahead, a dotted name is followed as far as declarations go, and
what is selected from anything else counts as unresolved; when the name is read, a selector of an object is a component.
-/

namespace AdaSyntax

def Lexeme.selectors : List Lexeme → List Name
  | ⟨.dot, _⟩ :: ⟨.identifier, text⟩ :: rest => ⟨text⟩ :: selectors rest
  | _ => []

namespace SymbolTable

def select (table : SymbolTable) (base : Resolution) (selector : Name) : Resolution :=
  match base.symbol with
  | some owner => if base.kind.qualifies then table.resolveMember owner selector else .unresolved
  | none => .unresolved

def denote (table : SymbolTable) (first : Name) (selectors : List Name) : Resolution :=
  selectors.foldl table.select (table.resolve first)

/-- A proper prefix of the name denotes an object. -/
def PassesObject (table : SymbolTable) (first : Name) (selectors : List Name) : Prop :=
  ∃ shorter, shorter <+: selectors ∧ shorter ≠ selectors ∧ (table.denote first shorter).kind.isObject = true

def Classifies (table : SymbolTable) (first : Name) (selectors : List Name) (use : Option SymbolId × SymbolKind) :
    Prop :=
  (table.PassesObject first selectors ∧ use = (none, .component)) ∨
    (¬table.PassesObject first selectors ∧
      use = ((table.denote first selectors).symbol, (table.denote first selectors).kind))

variable {table : SymbolTable} {first selector : Name} {selectors : List Name}

theorem denote_append (shorter rest : List Name) :
    table.denote first (shorter ++ rest) = rest.foldl table.select (table.denote first shorter) :=
  List.foldl_append

theorem passesObject_nil : ¬table.PassesObject first [] := by
  rintro ⟨shorter, hprefix, hne, -⟩
  exact hne (List.prefix_nil.mp hprefix)

theorem passesObject_concat : table.PassesObject first (selectors ++ [selector]) ↔
    table.PassesObject first selectors ∨ (table.denote first selectors).kind.isObject = true := by
  constructor
  · rintro ⟨shorter, hprefix, hne, hobject⟩
    have hprefix := (List.prefix_concat_iff.mp hprefix).resolve_left hne
    by_cases heq : shorter = selectors
    · exact .inr (heq ▸ hobject)
    · exact .inl ⟨shorter, hprefix, heq, hobject⟩
  · rintro (⟨shorter, hprefix, hne, hobject⟩ | hobject)
    · refine ⟨shorter, hprefix.trans (List.prefix_append _ _), fun heq => ?_, hobject⟩
      have hlength := hprefix.length_le
      rw [heq, List.length_append, List.length_singleton] at hlength
      omega
    · exact ⟨selectors, List.prefix_append _ _, by simp, hobject⟩

@[simp] theorem select_none (kind : SymbolKind) : table.select ⟨none, kind⟩ selector = .unresolved := rfl

@[simp] theorem select_some (owner : SymbolId) (kind : SymbolKind) : table.select ⟨some owner, kind⟩ selector =
    if kind.qualifies then table.resolveMember owner selector else .unresolved := rfl

theorem select_eq_unresolved {base : Resolution} (h : base.kind.qualifies = false) :
    table.select base selector = .unresolved := by
  obtain ⟨_ | owner, kind⟩ := base
  · rfl
  · exact if_neg (Bool.not_eq_true _ ▸ h)

theorem foldl_select_unresolved (selectors : List Name) : selectors.foldl table.select .unresolved = .unresolved := by
  induction selectors with
  | nil => rfl
  | cons selector selectors ih => exact ih

theorem qualifies_of_isObject {kind : SymbolKind} (h : kind.isObject = true) : kind.qualifies = false := by
  cases kind <;> first | rfl | cases h

theorem PassesObject.denote_eq (h : table.PassesObject first selectors) :
    table.denote first selectors = .unresolved := by
  obtain ⟨shorter, ⟨rest, rfl⟩, hne, hobject⟩ := h
  cases rest with
  | nil => simp at hne
  | cons selector rest =>
    rw [denote_append, List.foldl_cons, select_eq_unresolved (qualifies_of_isObject hobject)]
    exact foldl_select_unresolved rest

end SymbolTable

namespace Lexeme

theorem kindAt_drop (lexemes : List Lexeme) (count index : Nat) :
    kindAt (lexemes.drop count) index = kindAt lexemes (count + index) := by
  simp [kindAt]

theorem selectors_cases (lexemes : List Lexeme) :
    (∃ dot text rest, lexemes = ⟨.dot, dot⟩ :: ⟨.identifier, text⟩ :: rest) ∨
      (kindAt lexemes 0 = .dot && kindAt lexemes 1 = .identifier) = false ∧ selectors lexemes = [] := by
  unfold selectors
  split
  · exact .inl ⟨_, _, _, rfl⟩
  · rename_i hother
    refine .inr ⟨?_, rfl⟩
    rw [Bool.and_eq_false_imp, decide_eq_true_iff, decide_eq_false_iff_not]
    intro hdot hidentifier
    match lexemes with
    | [] => cases hdot
    | [_] => cases hidentifier
    | ⟨kind, dot⟩ :: ⟨kind', text⟩ :: rest =>
      obtain rfl : kind = .dot := hdot
      obtain rfl : kind' = .identifier := hidentifier
      exact hother _ _ _ rfl

end Lexeme

namespace Parser

open SymbolTable

variable {parser : Parser} {lexeme : Lexeme} {rest : List Lexeme}

theorem ahead_lexeme {count : Nat} (h : parser.upcoming[count]? = some lexeme) :
    (parser.cursor.ahead count).lexeme = lexeme := by
  simp only [upcoming, Cursor.lexemesFrom, List.getElem?_map, List.getElem?_drop, Array.getElem?_toList,
    Option.map_eq_some_iff] at h
  obtain ⟨token, htoken, hlexeme⟩ := h
  obtain ⟨hlt, rfl⟩ := Array.getElem?_eq_some_iff.mp htoken
  have hlt : parser.cursor.position + count < parser.cursor.tokens.size := hlt
  rw [Cursor.ahead_of_lt _ hlt]
  exact hlexeme

theorem lookaheadFrom_eq (lexemes : List Lexeme) {count fuel : Nat} {resolution : Resolution}
    (h : parser.upcoming.drop count = lexemes) (hfuel : lexemes.length ≤ fuel) :
    parser.lookaheadFrom resolution fuel count =
      ((Lexeme.selectors lexemes).foldl parser.symbols.select resolution).kind := by
  induction fuel generalizing lexemes count resolution with
  | zero =>
    obtain rfl := List.eq_nil_of_length_eq_zero (Nat.le_zero.mp hfuel)
    rfl
  | succ fuel ih =>
    have hkind : ∀ index, (parser.cursor.ahead (count + index)).kind = Lexeme.kindAt lexemes index := fun index => by
      rw [ahead_kind, ← h, Lexeme.kindAt_drop]
    have hfirst := hkind 0
    rw [Nat.add_zero] at hfirst
    rw [lookaheadFrom, hfirst, hkind]
    rcases Lexeme.selectors_cases lexemes with ⟨dot, text, rest, rfl⟩ | ⟨hends, hselectors⟩
    · have hselector : parser.upcoming[count + 1]? = some ⟨.identifier, text⟩ := by
        rw [← List.getElem?_drop, h]
        rfl
      have hname : Name.ofText _ = ⟨text⟩ := Formula.name_of_lexeme (ahead_lexeme hselector)
      have hrest : parser.upcoming.drop (count + 2) = rest := by
        rw [← List.drop_drop, h]
        rfl
      simp only [Lexeme.kindAt_cons_zero, Lexeme.kindAt_cons_succ, decide_true, Bool.and_self, if_true, hname]
      rw [Lexeme.selectors, List.foldl_cons]
      obtain ⟨_ | owner, kind⟩ := resolution
      · rw [select_none, foldl_select_unresolved]
        rfl
      · rw [select_some]
        dsimp only
        split
        · exact ih rest hrest (by simp only [List.length_cons] at hfuel; omega)
        · rw [foldl_select_unresolved]
          rfl
    · rw [hends, hselectors]
      rfl

theorem lookaheadClass_eq (h : parser.upcoming = ⟨.identifier, first.text⟩ :: rest) :
    parser.lookaheadClass = (parser.symbols.denote first (Lexeme.selectors rest)).kind := by
  have hname := Formula.name_of_lexeme (Formula.lexeme_current h)
  have hlength : parser.upcoming.length = parser.cursor.remaining := by
    simp [upcoming, Cursor.lexemesFrom, Cursor.remaining, position]
  rw [lookaheadClass, if_pos (kind_of_upcoming h), hname]
  refine lookaheadFrom_eq rest (by rw [h]; rfl) ?_
  rw [← hlength, h]
  exact Nat.le_succ _

def Classed (parser : Parser) (first : Name) (selectors : List Name) (node : NodeId) : Prop :=
  ∃ use, parser.tree.payload node = .name use ∧
    parser.symbols.Classifies first selectors (use.symbol?, use.classification)

theorem Classed.advances {later : Parser} {selectors : List Name} {node : NodeId} {count : Nat}
    {found : List Diagnostic} (h : parser.Classed first selectors node)
    (hadvances : parser.Advances later count found) : later.Classed first selectors node := by
  obtain ⟨use, huse, hclass⟩ := h
  refine ⟨use, ?_, hadvances.symbols ▸ hclass⟩
  rw [Tree.payload_of_isPrefix hadvances.nodes (by rw [huse]; nofun), huse]

end Parser

namespace Program

open Grammar AdaSyntax.Parser SymbolTable

variable {parser : Parser} {first selector : Name} {read : List Name} {base : Option SymbolId × SymbolKind}

theorem member_classifies {table : SymbolTable} (selector : Name) (hnone : ¬table.PassesObject first read)
    (hselect : table.select (table.denote first read) selector = .unresolved) :
    let found := resolveSelector.member (table.denote first read).kind
    table.Classifies first (read ++ [selector]) (found.symbol, found.kind) := by
  unfold resolveSelector.member Classifies
  rw [passesObject_concat, denote_append]
  split
  · exact .inl ⟨.inr ‹_›, rfl⟩
  · exact .inr ⟨not_or.mpr ⟨hnone, ‹_›⟩, by rw [List.foldl_cons, hselect]; rfl⟩

theorem resolveSelector_succeeds (h : parser.symbols.Classifies first read base) :
    Succeeds (resolveSelector base selector) parser fun found later =>
      later = parser ∧ parser.symbols.Classifies first (read ++ [selector]) (found.2.symbol, found.2.kind) := by
  rcases h with ⟨hobject, rfl⟩ | ⟨hnone, rfl⟩
  · exact .pure ⟨rfl, .inl ⟨passesObject_concat.mpr (.inl hobject), rfl⟩⟩
  · have hmember := member_classifies selector hnone
    obtain ⟨symbol, kind, hdenote⟩ : ∃ symbol kind, parser.symbols.denote first read = ⟨symbol, kind⟩ := ⟨_, _, rfl⟩
    rw [hdenote] at hmember ⊢
    cases symbol with
    | none => exact .pure ⟨rfl, hmember rfl⟩
    | some owner =>
      simp only [resolveSelector]
      split
      · rename_i hqualifies
        have hobject : kind.isObject ≠ true := fun hobject => by
          rw [qualifies_of_isObject hobject] at hqualifies
          cases hqualifies
        have hmember : Succeeds (.step (.resolveMember owner selector)) parser fun found later =>
            found = parser.symbols.resolveMember owner selector ∧ later = parser := .step rfl ⟨rfl, rfl⟩
        refine .bind hmember ?_
        rintro _ _ ⟨rfl, rfl⟩
        refine .pure ⟨rfl, .inr ⟨?_, ?_⟩⟩
        · rw [passesObject_concat, hdenote]
          exact not_or.mpr ⟨hnone, hobject⟩
        · rw [denote_append, hdenote, List.foldl_cons, select_some, if_pos hqualifies]
          rfl
      · exact .pure ⟨rfl, hmember (select_eq_unresolved (Bool.not_eq_true _ ▸ ‹_›))⟩

theorem select_succeeds {start : Nat} {node : NodeId} (h : parser.Classed first read node) :
    Succeeds (Grammar.select start node selector) parser fun longer later =>
      parser.Advances later 0 [] ∧ later.Classed first (read ++ [selector]) longer := by
  obtain ⟨use, huse, hclass⟩ := h
  have hclassify : (parser.tree.payload node).classify = (use.symbol?, use.classification) := by rw [huse]; rfl
  refine .query (fun _ => classify_computes node parser) (.bind (resolveSelector_succeeds (hclassify ▸ hclass)) ?_)
  rintro ⟨form, resolution⟩ _ ⟨rfl, hfound⟩
  exact (Succeeds.add _ _).mono fun longer later hadded =>
    ⟨hadded.1, _, hadded.2, hadded.1.symbols ▸ hfound⟩

theorem directName_records {rest : List Lexeme} (hupcoming : parser.upcoming = ⟨.identifier, first.text⟩ :: rest) :
    Succeeds directName parser fun node later => parser.Advances later 1 [] ∧ later.Classed first [] node := by
  refine (Formula.directName_resolves hupcoming).mono fun node later hresolved => ⟨hresolved.1, _, hresolved.2, ?_⟩
  rw [hresolved.1.symbols]
  exact .inr ⟨passesObject_nil, rfl⟩

theorem expandedName_succeeds {rest : List Lexeme} (hupcoming : parser.upcoming = ⟨.identifier, first.text⟩ :: rest) :
    Succeeds expandedName parser fun node later =>
      later.symbols = parser.symbols ∧ later.Classed first (Lexeme.selectors rest) node := by
  refine .position (.isAt ?_)
  rw [hupcoming, Lexeme.kindAt_cons_zero]
  refine .bind (directName_records hupcoming) ?_
  rintro node middle ⟨hadvances, hrecords⟩
  have hmiddle := hadvances.rest hupcoming
  have hsymbols := hadvances.symbols
  clear hupcoming hadvances
  rw [← List.nil_append (Lexeme.selectors rest)]
  generalize ([] : List Name) = read at hrecords ⊢
  -- the rounds of the loop are the selectors that are left
  induction rest using Lexeme.selectors.induct generalizing read node middle with
  | case1 dot text rest ih =>
    refine .loop_round (.followedBy ?_)
    rw [hmiddle]
    simp only [Lexeme.kindAt_cons_zero, Lexeme.kindAt_cons_succ, decide_true, Bool.and_self, if_true]
    refine .bind (.advance hmiddle TokenKind.noConfusion) fun _ before hdot => ?_
    have hbefore := hdot.rest hmiddle
    refine .bind (.take hbefore TokenKind.noConfusion) ?_
    rintro _ behind ⟨rfl, hselector⟩
    have hboth := hdot.trans hselector
    have hname : Name.ofText _ = ⟨text⟩ := Formula.name_of_lexeme (Formula.lexeme_current hbefore)
    refine .bind (select_succeeds (hrecords.advances hboth)) ?_
    rintro longer later ⟨hadded, hlonger⟩
    have hround := hboth.still hadded
    rw [hname] at hlonger
    refine .pure ⟨longer, rfl, hround.remaining (Nat.zero_lt_succ _), ?_⟩
    have hrest : later.upcoming = rest := hround.upcoming (show middle.upcoming = [_, _] ++ rest from hmiddle) rfl
    have hnext := ih longer later hrest (hround.symbols.trans hsymbols) _ hlonger
    rwa [List.append_assoc] at hnext
  | case2 lexemes hother =>
    obtain ⟨dot, text, rest, rfl⟩ | ⟨hends, hselectors⟩ := Lexeme.selectors_cases lexemes
    · exact absurd rfl (hother dot text rest)
    · refine .loop_stop (.followedBy ?_)
      rw [hmiddle, hends, hselectors, List.append_nil]
      exact .pure ⟨node, rfl, hsymbols, hrecords⟩

end Program

inductive Program.Unaided : {α : Type} → Program α → Prop where
  | pure {α : Type} (value : α) : Unaided (.pure value)
  | bind {α β : Type} {first : Program β} {next : β → Program α} (hfirst : Unaided first)
      (hnext : ∀ value, Unaided (next value)) : Unaided (first >>= next)
  | step {α : Type} (op : Op α) : Unaided (.step op)
  | reject {α : Type} (expected : String) : Unaided (.reject expected : Program α)
  | loop {α σ : Type} {body : σ → Program (σ ⊕ α)} (hbody : ∀ state, Unaided (body state)) (state : σ) :
      Unaided (.loop body state)

namespace Program

open Grammar

theorem Unaided.run_eq {α : Type} {program : Program α} (h : program.Unaided)
    (calls more : ∀ {α : Type}, Production α → Parser → Reply α × Parser) (parser : Parser) :
    program.run calls parser = program.run more parser := by
  induction h generalizing parser with
  | pure value => rfl
  | bind _ _ ihfirst ihnext =>
    rw [run_bind, run_bind, ihfirst]
    split <;> first | rfl | exact ihnext _ _
  | step op => rfl
  | reject expected => rfl
  | loop _ state ih =>
    rw [run_loop, run_loop]
    congr 1
    funext state parser
    exact ih state parser

theorem isAt_unaided (kind : TokenKind) : (isAt kind).Unaided := .bind (.step _) fun _ => .pure _

theorem directName_unaided : directName.Unaided := by
  refine .bind (.step _) fun start => .bind (.bind (.step _) fun _ => .pure _) fun isName => ?_
  split
  · exact .bind (.step _) fun token => .bind (.step _) fun resolution => .step _
  · exact .reject _

theorem resolveSelector_unaided (base : Option SymbolId × SymbolKind) (selector : Name) :
    (resolveSelector base selector).Unaided := by
  unfold resolveSelector
  split
  · split
    · exact .bind (.step _) fun _ => .pure _
    · exact .pure _
  · exact .pure _

theorem select_unaided (start : Nat) (base : NodeId) (selector : Name) : (Grammar.select start base selector).Unaided :=
  .bind (.bind (.step _) fun _ => .pure _) fun known => .bind (resolveSelector_unaided known selector) fun _ => .step _

theorem expandedName_unaided : expandedName.Unaided := by
  refine .bind (.step _) fun start => .bind (isAt_unaided _) fun isName => ?_
  split
  · refine .bind directName_unaided fun node => .loop (fun node => .bind (.step _) fun isSelected => ?_) node
    split
    · exact .bind (.bind (.step _) fun _ => .pure _) fun _ => .bind (.step _) fun token =>
        .bind (select_unaided start node _) fun _ => .pure _
    · exact .pure _
  · exact .reject _

end Program

/-- What an expanded name is read as is what looking ahead has told, unless it goes through an object. -/
theorem Grammar.expandedName_classified (parser : Parser) (h : parser.kind = .identifier) :
    ∃ node later, (∀ budget, Grammar.expandedName.run (Grammar.call budget) parser = (.matched node, later)) ∧
      let first := Name.ofText parser.current.text
      let selectors := Lexeme.selectors parser.upcoming.tail
      let kind := (later.tree.payload node).classify.2
      (parser.symbols.PassesObject first selectors → parser.lookaheadClass = .unresolved ∧ kind = .component) ∧
      (¬parser.symbols.PassesObject first selectors → kind = parser.lookaheadClass) ∧
      kind.isTypeMark = parser.lookaheadClass.isTypeMark := by
  obtain ⟨rest, hupcoming⟩ : ∃ rest, parser.upcoming = ⟨.identifier, (Name.ofText parser.current.text).text⟩ :: rest :=
    ⟨_, parser.upcoming_eq.trans (congrArg (· :: _) (Token.lexeme_of_identifier h))⟩
  obtain ⟨node, later, ⟨hsymbols, use, huse, hclass⟩, need, hrun⟩ := Program.expandedName_succeeds hupcoming
  refine ⟨node, later, fun budget => ?_, ?_⟩
  · rw [Program.expandedName_unaided.run_eq _ (Grammar.call need)]
    exact hrun need (Nat.le_refl _)
  · have hlook := Parser.lookaheadClass_eq hupcoming
    rw [hupcoming, List.tail_cons, huse]
    rw [hsymbols] at hclass
    simp only [Payload.classify]
    rcases hclass with ⟨hobject, hkind⟩ | ⟨hnone, hkind⟩ <;> obtain ⟨-, hkind⟩ := Prod.mk.inj hkind <;> rw [hkind, hlook]
    · rw [hobject.denote_eq]
      exact ⟨fun _ => ⟨rfl, rfl⟩, fun hnone => absurd hobject hnone, rfl⟩
    · exact ⟨fun hobject => absurd hobject hnone, fun _ => rfl, rfl⟩

def componentStart : Parser :=
  ((Parser.new (.ofSource "R.C.D") { predefined := false }).declare { name := ⟨"R"⟩, kind := .object }).2

theorem Grammar.component_classified : componentStart.kind = .identifier ∧
    ∃ node later, (∀ budget, Grammar.expandedName.run (Grammar.call budget) componentStart = (.matched node, later)) ∧
      componentStart.lookaheadClass = .unresolved ∧ (later.tree.payload node).classify.2 = .component := by
  have hkind : componentStart.kind = .identifier := by decide +kernel
  obtain ⟨node, later, hrun, hpasses, -, -⟩ := expandedName_classified componentStart hkind
  obtain ⟨hlook, hclass⟩ := hpasses ⟨[], List.nil_prefix, by decide +kernel, by decide +kernel⟩
  exact ⟨hkind, node, later, hrun, hlook, hclass⟩

end AdaSyntax
