import AdaSyntax.Proofs.Discipline.Adequacy

namespace AdaSyntax

/-- What an expression keeps of a token. -/
structure Lexeme where
  kind : TokenKind
  text : String
deriving DecidableEq

def Token.lexeme (token : Token) : Lexeme :=
  match token.kind with
  | .identifier => ⟨.identifier, (Name.ofText token.text).text⟩
  | .integerLiteral => ⟨.integerLiteral, token.text⟩
  | .realLiteral => ⟨.realLiteral, token.text⟩
  | .characterLiteral => ⟨.characterLiteral, token.text⟩
  | .stringLiteral => ⟨.stringLiteral, token.text⟩
  | .kwNull => ⟨.kwNull, token.text⟩
  | kind => ⟨kind, ""⟩

@[simp] theorem Token.lexeme_kind (token : Token) : token.lexeme.kind = token.kind := by
  unfold lexeme
  split <;> simp_all

namespace Lexeme

def mark (kind : TokenKind) : Lexeme := ⟨kind, ""⟩

def kindAt (lexemes : List Lexeme) (index : Nat) : TokenKind := (lexemes[index]?.map kind).getD .endOfFile

@[simp] theorem kindAt_cons_zero (lexeme : Lexeme) (lexemes : List Lexeme) :
    kindAt (lexeme :: lexemes) 0 = lexeme.kind := rfl

@[simp] theorem kindAt_cons_succ (lexeme : Lexeme) (lexemes : List Lexeme) (index : Nat) :
    kindAt (lexeme :: lexemes) (index + 1) = kindAt lexemes index := rfl

end Lexeme

def Cursor.lexemesFrom (tokens : Array Token) (position : Nat) : List Lexeme :=
  (tokens.toList.drop position).map Token.lexeme

namespace Cursor

variable {tokens : Array Token} {position : Nat} {lexeme : Lexeme} {lexemes rest : List Lexeme}

theorem lexemesFrom_of_lt (h : position < tokens.size) :
    lexemesFrom tokens position = tokens[position].lexeme :: lexemesFrom tokens (position + 1) := by
  rw [lexemesFrom, List.drop_eq_getElem_cons (by simpa using h)]
  rfl

theorem lt_size_of_lexemesFrom (h : lexemesFrom tokens position = lexeme :: rest) : position < tokens.size := by
  rcases Nat.lt_or_ge position tokens.size with hlt | hge
  · exact hlt
  · rw [lexemesFrom, List.drop_eq_nil_of_le (by simpa using hge)] at h
    cases h

theorem lexemesFrom_succ (h : lexemesFrom tokens position = lexeme :: rest) :
    lexemesFrom tokens (position + 1) = rest := by
  rw [lexemesFrom_of_lt (lt_size_of_lexemesFrom h)] at h
  exact (List.cons.inj h).2

theorem lexemesFrom_add (h : lexemesFrom tokens position = lexemes ++ rest) :
    lexemesFrom tokens (position + lexemes.length) = rest := by
  induction lexemes generalizing position with
  | nil => exact h
  | cons lexeme lexemes ih =>
    have hrest := ih (lexemesFrom_succ h)
    rwa [Nat.add_assoc, Nat.add_comm 1] at hrest

theorem kind_of_lexemesFrom (h : lexemesFrom tokens position = lexeme :: rest) (hlt : position < tokens.size) :
    tokens[position].kind = lexeme.kind := by
  rw [lexemesFrom_of_lt hlt] at h
  rw [← (List.cons.inj h).1, Token.lexeme_kind]

theorem ahead_of_lt (cursor : Cursor) {count : Nat} (h : cursor.position + count < cursor.tokens.size) :
    cursor.ahead count = cursor.tokens[cursor.position + count] := by
  simp [ahead, tokenAt, Nat.min_eq_left (Nat.le_sub_one_of_lt h), h]

theorem ahead_of_ge (cursor : Cursor) {count : Nat} (h : cursor.tokens.size ≤ cursor.position + count) :
    (cursor.ahead count).kind = .endOfFile := by
  have hsize := Nat.lt_of_le_of_lt (Nat.zero_le _) cursor.position_lt
  have hlt : cursor.tokens.size - 1 < cursor.tokens.size := Nat.sub_one_lt_of_lt hsize
  have hlast := cursor.last_kind
  rw [Array.back?, Array.getElem?_eq_getElem hlt] at hlast
  simp only [ahead, tokenAt, Nat.min_eq_right (Nat.le_trans (Nat.sub_le _ _) h)]
  simpa [hlt] using hlast

def Neutral (lexemes : List Lexeme) : Prop :=
  ∀ tokens position rest level, lexemesFrom tokens position = lexemes ++ rest →
    groupHas tokens [.arrow] position level = groupHas tokens [.arrow] (position + lexemes.length) level

namespace Neutral

theorem nil : Neutral [] := fun _ _ _ _ _ => rfl

theorem append {others : List Lexeme} (h : Neutral lexemes) (h' : Neutral others) : Neutral (lexemes ++ others) := by
  intro tokens position rest level hlexemes
  rw [List.append_assoc] at hlexemes
  rw [h tokens position _ level hlexemes, h' tokens _ rest level (lexemesFrom_add hlexemes), List.length_append,
    Nat.add_assoc]

theorem single (h : lexeme.kind ∉ [.endOfFile, .semicolon, .leftParen, .rightParen, .comma, .arrow]) :
    Neutral [lexeme] := by
  intro tokens position rest level hlexemes
  have hlt := lt_size_of_lexemesFrom hlexemes
  have hkind := kind_of_lexemesFrom hlexemes hlt
  rw [groupHas, dif_pos hlt, hkind]
  simp only [List.mem_cons, List.not_mem_nil, or_false, not_or] at h
  obtain ⟨hend, hsemicolon, hleft, hright, hcomma, harrow⟩ := h
  cases level with
  | zero => split <;> simp_all
  | succ level => split <;> simp_all

theorem parenthesized (h : Neutral lexemes) :
    Neutral (.mark .leftParen :: (lexemes ++ [.mark .rightParen])) := by
  intro tokens position rest level hlexemes
  have hlt := lt_size_of_lexemesFrom hlexemes
  have hinner : lexemesFrom tokens (position + 1) = lexemes ++ (.mark .rightParen :: rest) := by
    rw [lexemesFrom_succ hlexemes]
    simp
  have hclose := lexemesFrom_add hinner
  have hlt' := lt_size_of_lexemesFrom hclose
  rw [groupHas, dif_pos hlt, kind_of_lexemesFrom hlexemes hlt]
  dsimp only [Lexeme.mark]
  rw [h tokens _ _ _ hinner, groupHas, dif_pos hlt', kind_of_lexemesFrom hclose hlt']
  simp only [Lexeme.mark, List.length_cons, List.length_append, List.length_nil]
  congr 1
  omega

end Neutral

end Cursor

namespace Parser

def upcoming (parser : Parser) : List Lexeme := Cursor.lexemesFrom parser.cursor.tokens parser.position

variable {parser later : Parser} {lexeme : Lexeme} {rest : List Lexeme}

theorem upcoming_congr (h : later.cursor = parser.cursor) : later.upcoming = parser.upcoming := by
  simp only [upcoming, position, h]

theorem upcoming_eq (parser : Parser) :
    parser.upcoming =
      parser.current.lexeme :: Cursor.lexemesFrom parser.cursor.tokens (parser.position + 1) :=
  Cursor.lexemesFrom_of_lt parser.cursor.position_lt

theorem kind_eq (parser : Parser) : parser.kind = Lexeme.kindAt parser.upcoming 0 := by
  rw [upcoming_eq, Lexeme.kindAt_cons_zero, Token.lexeme_kind]
  rfl

theorem kind_of_upcoming (h : parser.upcoming = lexeme :: rest) : parser.kind = lexeme.kind := by
  rw [kind_eq, h, Lexeme.kindAt_cons_zero]

theorem ahead_kind (parser : Parser) (count : Nat) :
    (parser.cursor.ahead count).kind = Lexeme.kindAt parser.upcoming count := by
  simp only [upcoming, Cursor.lexemesFrom, Lexeme.kindAt, List.getElem?_map, List.getElem?_drop,
    Array.getElem?_toList, position]
  rcases Nat.lt_or_ge (parser.cursor.position + count) parser.cursor.tokens.size with hlt | hge
  · simp [Cursor.ahead_of_lt _ hlt, hlt]
  · rw [Cursor.ahead_of_ge _ hge, Array.getElem?_eq_none hge]
    rfl

theorem take_upcoming (h : parser.upcoming = lexeme :: rest) (hend : lexeme.kind ≠ .endOfFile) :
    ∃ later, parser.take = (.matched parser.current, later) ∧ later.upcoming = rest ∧
      ∃ cursor, later = { parser with cursor } ∧ cursor.tokens = parser.cursor.tokens ∧
        cursor.position = parser.position + 1 := by
  have hkind : parser.cursor.kind ≠ .endOfFile := fun heq => hend ((kind_of_upcoming h).symm.trans heq)
  simp only [take, Cursor.advance, dif_neg hkind]
  exact ⟨_, rfl, Cursor.lexemesFrom_succ h, _, rfl, rfl, rfl⟩

theorem upcoming_of_take {token : Token} (h : parser.take = (.matched token, later)) :
    token = parser.current ∧ parser.upcoming = token.lexeme :: later.upcoming ∧ later.tree = parser.tree := by
  unfold take at h
  cases hadvance : parser.cursor.advance with
  | error error => simp [hadvance] at h
  | ok next =>
    obtain ⟨current, cursor⟩ := next
    simp only [hadvance, Prod.mk.injEq, Reply.matched.injEq] at h
    obtain ⟨rfl, rfl⟩ := h
    unfold Cursor.advance at hadvance
    split at hadvance
    · cases hadvance
    · obtain ⟨rfl, rfl⟩ := Prod.mk.inj (Except.ok.inj hadvance)
      exact ⟨rfl, parser.upcoming_eq, rfl⟩

end Parser

end AdaSyntax
