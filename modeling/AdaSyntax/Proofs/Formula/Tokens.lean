import AdaSyntax.Proofs.Formula.Basic

namespace AdaSyntax

namespace Token

variable {token : Token} {kind : LiteralKind}

theorem lexeme_of_literal (h : token.kind = kind.token) : token.lexeme = ⟨kind.token, token.text⟩ := by
  cases kind <;> simp [lexeme, h, LiteralKind.token]

theorem lexeme_of_identifier (h : token.kind = .identifier) :
    token.lexeme = ⟨.identifier, (Name.ofText token.text).text⟩ := by
  simp [lexeme, h]

end Token

namespace Formula

variable {formula operand left right low high inner : Formula} {op : BinaryOp} {sign : UnaryOp} {negated : Bool}
variable {rank rank' : Nat} {rest : List Lexeme} {kind : TokenKind}

def first : Formula → TokenKind
  | literal kind _ => kind.token
  | identifier _ => .identifier
  | parenthesized _ => .leftParen
  | unary op _ => op.token
  | binary _ left _ => left.first
  | membership operand .. => operand.first

theorem lexemes_eq_cons (formula : Formula) : ∃ text rest, formula.lexemes = ⟨formula.first, text⟩ :: rest := by
  induction formula with
  | binary op left right ih _ =>
    obtain ⟨text, rest, heq⟩ := ih
    exact ⟨text, _, by rw [lexemes, heq, List.cons_append, first]⟩
  | membership operand negated low high ih _ _ =>
    obtain ⟨text, rest, heq⟩ := ih
    exact ⟨text, _, by rw [lexemes, heq, List.cons_append, first]⟩
  | _ => exact ⟨_, _, rfl⟩

theorem lexemes_pos (formula : Formula) : 0 < formula.lexemes.length := by
  obtain ⟨text, rest, heq⟩ := formula.lexemes_eq_cons
  simp [heq]

theorem first_ne_not (h : formula.rank = 0) : formula.first ≠ .kwAbs ∧ formula.first ≠ .kwNot := by
  cases formula with
  | literal kind text => cases kind <;> simp [first, LiteralKind.token]
  | identifier name => simp [first]
  | parenthesized inner => simp [first]
  | unary op operand => cases op <;> simp [Formula.rank, UnaryOp.rank] at h
  | binary op left right => cases op <;> simp [Formula.rank, BinaryOp.rank] at h
  | membership operand negated low high => simp [Formula.rank] at h

theorem leftRank_le (op : BinaryOp) : op.leftRank ≤ op.rank := by
  cases op <;> decide

theorem sign?_first (hregular : formula.Regular) (h : formula.rank < 3) : Grammar.sign? formula.first = none := by
  induction formula with
  | literal kind text => cases kind <;> rfl
  | identifier name => rfl
  | parenthesized inner => rfl
  | unary op operand => cases op <;> simp [Formula.rank, UnaryOp.rank] at h <;> rfl
  | binary op left right ih _ =>
    have hop : op.rank < 3 := h
    have hle := leftRank_le op
    obtain ⟨hleft, -, hrank, -⟩ := hregular
    exact ih hleft (by omega)
  | membership operand negated low high => simp [Formula.rank] at h

theorem lexemes_neutral (formula : Formula) : Cursor.Neutral formula.lexemes := by
  induction formula with
  | literal kind text => exact .single (by cases kind <;> simp [LiteralKind.token])
  | identifier name => exact .single (by simp)
  | parenthesized inner ih => exact ih.parenthesized
  | unary op operand ih =>
    have hop : Cursor.Neutral [.mark op.token] := .single (by cases op <;> decide)
    exact hop.append ih
  | binary op left right ihleft ihright =>
    have hop : Cursor.Neutral (op.tokens.map .mark) := by
      cases op with
      | andThen | orElse => exact .append (.single (by decide)) (.single (by decide))
      | _ => exact .single (by decide)
    exact ihleft.append (hop.append ihright)
  | membership operand negated low high ihoperand ihlow ihhigh =>
    have hnot : Cursor.Neutral (if negated then [.mark .kwNot] else []) := by
      cases negated with
      | true => exact .single (by decide)
      | false => exact .nil
    have hin : Cursor.Neutral [.mark .kwIn] := .single (by decide)
    have hdots : Cursor.Neutral [.mark .doubleDot] := .single (by decide)
    exact ihoperand.append (hnot.append (hin.append (ihlow.append (hdots.append ihhigh))))

def closes (rank : Nat) (kind : TokenKind) : Bool :=
  !([.dot, .leftParen, .tick].contains kind) && (rank < 1 || kind != .doubleStar) &&
    (rank < 2 || (Grammar.multiplyingOperator? kind).isNone) && (rank < 3 || (Grammar.addingOperator? kind).isNone) &&
      (rank < 4 || ((Grammar.relationalOperator? kind).isNone && kind != .kwIn && kind != .kwNot)) &&
        (rank < 5 || !([.kwAnd, .kwOr, .kwXor].contains kind))

theorem takesSuffix_of_closes (h : kind ∉ [.dot, .leftParen, .tick]) : formula.takesSuffix kind = false := by
  simp only [List.mem_cons, List.not_mem_nil, or_false, not_or] at h
  unfold takesSuffix
  split <;> simp [h]

theorem ends_of_closes (h : closes rank (Lexeme.kindAt rest 0) = true) : formula.Ends rank rest := by
  simp only [closes, Bool.and_eq_true, Bool.or_eq_true, Bool.not_eq_true', decide_eq_true_eq, bne_iff_ne,
    Option.isNone_iff_eq_none, List.contains_eq_mem, decide_eq_false_iff_not] at h
  obtain ⟨⟨⟨⟨⟨hsuffix, hpower⟩, hmultiplying⟩, hadding⟩, hrelational⟩, hlogical⟩ := h
  refine ⟨takesSuffix_of_closes hsuffix, fun hrank _ => ?_, fun hrank => ?_, fun hrank => ?_, fun hrank _ => ?_,
    fun hrank => ?_⟩
  · exact hpower.resolve_left (Nat.not_lt.mpr hrank)
  · exact hmultiplying.resolve_left (Nat.not_lt.mpr hrank)
  · exact hadding.resolve_left (Nat.not_lt.mpr hrank)
  · obtain ⟨⟨hnone, hin⟩, hnot⟩ := hrelational.resolve_left (Nat.not_lt.mpr hrank)
    exact ⟨hnone, hin, fun heq => absurd heq hnot⟩
  · exact hlogical.resolve_left (Nat.not_lt.mpr hrank)

theorem ends_operator (op : BinaryOp) (rest : List Lexeme) :
    formula.Ends (op.rank - 1) (op.tokens.map .mark ++ rest) :=
  ends_of_closes (by cases op <;> rfl)

theorem Ends.mono (h : formula.Ends rank rest) (hrank : rank' ≤ rank) : formula.Ends rank' rest where
  suffix := h.suffix
  power hle := h.power (Nat.le_trans hle hrank)
  multiplying hle := h.multiplying (Nat.le_trans hle hrank)
  adding hle := h.adding (Nat.le_trans hle hrank)
  relational hle := h.relational (Nat.le_trans hle hrank)
  logical hle := h.logical (Nat.le_trans hle hrank)

theorem lastRelation_eq (h : formula.rank < 5) : formula.lastRelation = formula := by
  cases formula with
  | binary op left right =>
    have hop : op.rank ≠ 5 := Nat.ne_of_lt h
    rw [lastRelation, if_neg hop]
  | _ => rfl

theorem rank_le (op : BinaryOp) : op.rank ≤ 5 := by
  cases op <;> decide

theorem rank_le_five (formula : Formula) : formula.rank ≤ 5 := by
  cases formula with
  | unary op operand => cases op <;> exact Nat.le_of_ble_eq_true rfl
  | binary op left right => exact rank_le op
  | _ => exact Nat.le_of_ble_eq_true rfl

theorem Ends.of_binary (h : (binary op left right).Ends rank rest) (hrank : rank < op.rank)
    (hright : right.rank < op.rank) : right.Ends rank rest where
  suffix := h.suffix
  power hle hprimary := by
    refine h.power hle ?_
    rw [lastFactor, if_neg (by omega)]
    exact hprimary
  multiplying := h.multiplying
  adding := h.adding
  relational hle hsimple := by
    have hop : op.rank = 5 := by
      have := rank_le op
      omega
    refine h.relational hle ?_
    rw [lastRelation, if_pos hop]
    rwa [lastRelation_eq (by omega)] at hsimple
  logical := h.logical

theorem Ends.of_unary (h : (unary sign operand).Ends rank rest) (hrank : rank < sign.rank) :
    operand.Ends rank rest where
  suffix := h.suffix
  power hle hprimary := by
    refine h.power hle ?_
    rw [lastFactor, if_neg (by omega)]
    exact hprimary
  multiplying := h.multiplying
  adding := h.adding
  relational hle := by
    have hsign : sign.rank ≤ 3 := by cases sign <;> decide
    omega
  logical hle := by
    have hsign : sign.rank ≤ 3 := by cases sign <;> decide
    omega

theorem Ends.of_membership (h : (membership operand negated low high).Ends 4 rest) : high.Ends 3 rest where
  suffix := h.suffix
  power hle := h.power (by omega)
  multiplying hle := h.multiplying (by omega)
  adding hle := h.adding (by omega)
  relational hle := by omega
  logical hle := by omega

end Formula

end AdaSyntax
