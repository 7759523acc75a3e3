import AdaSyntax.Proofs.Formula.Basic
import AdaSyntax.Proofs.Formula.Operators
import AdaSyntax.Proofs.Formula.Primary
import Mathlib.Data.List.Perm.Basic

/-!
Reading expressions inverts writing formulas: the tokens of a formula are read as that formula, and what was read as a
formula are its tokens. What is reported of the chains of a formula are their first changes of operator, one for each
chain that has any.
-/

namespace AdaSyntax

namespace Formula

variable {formula left : Formula} {op : BinaryOp}

/-- The logical operators of the chain that the formula is, from the left. -/
@[simp] def operators : Formula → List BinaryOp
  | binary op left _ => if op.rank = 5 then left.operators ++ [op] else []
  | _ => []

/-- The chains below the one that the formula is. A left operand of a chain is the same chain. -/
def innerChains : Formula → List (List BinaryOp)
  | literal .. | identifier _ => []
  | parenthesized inner => inner.operators :: inner.innerChains
  | unary _ operand => operand.operators :: operand.innerChains
  | binary op left right =>
    (if op.rank = 5 then [] else [left.operators]) ++ left.innerChains ++ (right.operators :: right.innerChains)
  | membership operand _ low high =>
    operand.operators :: operand.innerChains ++ (low.operators :: low.innerChains) ++
      (high.operators :: high.innerChains)

/-- The operators of each chain in the formula. Where there is no logical operator the chain is empty. -/
def chains (formula : Formula) : List (List BinaryOp) := formula.operators :: formula.innerChains

/-- The first operator of a chain, and the first one that is another. -/
def firstChange : List BinaryOp → Option (BinaryOp × BinaryOp)
  | [] => none
  | first :: rest => (rest.find? (· ≠ first)).map fun next => (first, next)

theorem firstChange_append (operators : List BinaryOp) (op : BinaryOp) :
    firstChange (operators ++ [op]) =
      (firstChange operators).or ((operators.head?.filter (· ≠ op)).map fun first => (first, op)) := by
  cases operators with
  | nil => rfl
  | cons first rest =>
    simp only [List.cons_append, firstChange, List.find?_append, List.head?_cons]
    cases rest.find? (· ≠ first) with
    | some next => rfl
    | none => by_cases hop : op = first <;> simp [hop, Option.filter, eq_comm]

theorem connective_eq (formula : Formula) : formula.connective = formula.operators.head? := by
  induction formula with
  | binary op left right ih _ =>
    rw [connective, operators, ih]
    split
    · cases left.operators <;> rfl
    · rfl
  | _ => rfl

theorem mixes_eq (formula : Formula) : formula.mixes = (firstChange formula.operators).isSome := by
  induction formula with
  | binary op left right ih _ =>
    rw [mixes, operators, ih, connective_eq]
    by_cases hop : op.rank = 5
    · rw [if_pos hop, firstChange_append]
      cases firstChange left.operators with
      | some change => simp [hop]
      | none => cases left.operators.head? with
        | none => simp
        | some first => by_cases hfirst : first = op <;> simp [hop, hfirst, Option.filter]
    · simp [hop, firstChange]
  | _ => rfl

def Mixture.change (mixture : Mixture) : BinaryOp × BinaryOp := (mixture.first, mixture.next)

theorem change_mixture (place : Nat) (hop : op.rank = 5) :
    (firstChange (left.operators ++ [op])).toList =
      (firstChange left.operators).toList ++ (mixture place op left).map Mixture.change := by
  rw [firstChange_append, mixture, mixes_eq, connective_eq]
  cases firstChange left.operators with
  | some change => simp
  | none => cases left.operators.head? with
    | none => rfl
    | some first => by_cases hfirst : first = op <;> simp [hop, hfirst, Option.filter, Mixture.change]

theorem filterMap_chains (formula : Formula) : formula.chains.filterMap firstChange =
    (firstChange formula.operators).toList ++ formula.innerChains.filterMap firstChange := by
  rw [chains, List.filterMap_cons]
  cases firstChange formula.operators <;> rfl

theorem mixtures_perm (formula : Formula) (place : Nat) :
    ((formula.mixtures place).map Mixture.change).Perm (formula.chains.filterMap firstChange) := by
  induction formula generalizing place with
  | literal | identifier => exact .nil
  | parenthesized inner ih => exact ih _
  | unary op operand ih => exact ih _
  | binary op left right ihleft ihright =>
    have hleft := ihleft place
    have hright := ihright (place + left.lexemes.length + op.tokens.length)
    by_cases hop : op.rank = 5
    · -- The change of this operator comes behind those on its left, but its chain comes before the chains there.
      rw [filterMap_chains, operators, if_pos hop, change_mixture place hop, innerChains, if_pos hop]
      rw [filterMap_chains] at hleft
      simp only [mixtures, List.map_append, List.filterMap_append, List.nil_append]
      refine (hleft.append (hright.append_left _)).trans ?_
      simp only [List.append_assoc]
      refine List.Perm.append_left _ ?_
      rw [← List.append_assoc, ← List.append_assoc]
      exact List.perm_append_comm.append_right _
    · have hnone : mixture place op left = [] := by simp [mixture, hop]
      have hchains : (binary op left right).chains = [] :: (left.chains ++ right.chains) := by
        simp [chains, operators, innerChains, hop]
      rw [hchains, List.filterMap_cons_none rfl, List.filterMap_append]
      simpa only [mixtures, hnone, List.nil_append, List.map_append] using hleft.append hright
  | membership operand negated low high ihoperand ihlow ihhigh =>
    have hall := (ihoperand place).append
      ((ihlow (place + operand.lexemes.length + (negated.toNat + 1))).append
        (ihhigh (place + operand.lexemes.length + (negated.toNat + 1) + low.lexemes.length + 1)))
    have hchains : (membership operand negated low high).chains =
        [] :: (operand.chains ++ (low.chains ++ high.chains)) := by
      simp [chains, operators, innerChains]
    rw [hchains, List.filterMap_cons_none rfl, List.filterMap_append, List.filterMap_append]
    simpa only [mixtures, List.map_append] using hall

end Formula

namespace Formula

open Program Grammar AdaSyntax.Parser

variable {formula left right operand low high inner : Formula} {op : BinaryOp} {sign : UnaryOp} {negated : Bool}
variable {rank rank' : Nat}

def ReadAt (formula : Formula) : Nat → Prop
  | 0 => formula.Parses 0 primary
  | 1 => formula.Parses 1 factor
  | 2 => formula.Opens 1 term (leftAssociative multiplyingOperator? factor)
  | 3 => formula.Opens 2 simpleExpression (leftAssociative addingOperator? term)
  | 4 => formula.Parses 4 relation
  | _ => formula.Opens 4 logical (chain formula)

theorem ReadAt.succ (h : formula.ReadAt rank) (hregular : formula.Regular) (hrank : formula.rank ≤ rank) :
    formula.ReadAt (rank + 1) :=
  match rank with
  | 0 => Parses.asFactor h (Nat.le_zero.mp hrank)
  | 1 => Parses.opensTerm h
  | 2 => (Opens.asTerm h).opensSimple (sign?_first hregular (Nat.lt_succ_of_le hrank))
  | 3 => (Opens.asSimple h).called.asRelation (Nat.lt_succ_of_le hrank)
  | 4 => Parses.opensChain h (Nat.lt_succ_of_le hrank)
  | _ + 5 => h

theorem ReadAt.mono (h : formula.ReadAt rank) (hregular : formula.Regular) (hrank : formula.rank ≤ rank)
    (hle : rank ≤ rank') : formula.ReadAt rank' := by
  induction hle with
  | refl => exact h
  | step hle ih => exact ih.succ hregular (Nat.le_trans hrank hle)

theorem readAt_unary (hsign : operand.ReadAt (sign.rank - 1)) : (unary sign operand).ReadAt sign.rank := by
  cases sign with
  | abs | not => exact parses_prefixed hsign rfl
  | plus | minus => exact opens_signed (Opens.asTerm hsign) rfl

theorem readAt_binary (hleft : left.ReadAt op.leftRank) (hright : right.ReadAt (op.rank - 1))
    (hleftRank : left.rank ≤ op.leftRank) (hrightRank : right.rank < op.rank) :
    (binary op left right).ReadAt op.rank := by
  cases op with
  | pow => exact parses_pow hleft hright (Nat.le_zero.mp hleftRank) (Nat.lt_one_iff.mp hrightRank)
  | mul | div | mod | rem =>
    exact Opens.binary hleft hright rfl hrightRank (by decide) rfl rfl TokenKind.noConfusion
  | add | sub | concat =>
    exact Opens.binary hleft (Opens.asTerm hright) rfl hrightRank (by decide) rfl rfl TokenKind.noConfusion
  | eq | ne | lt | le | gt | ge =>
    exact parses_relational (Opens.asSimple hleft).called (Opens.asSimple hright).called rfl hrightRank
  | and | andThen | or | orElse | xor => exact Opens.chained hleft hright rfl hrightRank

theorem Regular.readAt (h : formula.Regular) : formula.ReadAt formula.rank := by
  induction formula with
  | literal kind text => exact parses_literal
  | identifier name => exact parses_identifier
  | parenthesized inner ih =>
    have hinner : inner.ReadAt 5 := (ih h).mono h (Nat.le_refl _) inner.rank_le_five
    exact parses_parenthesized (Opens.asLogical hinner)
  | unary sign operand ih =>
    obtain ⟨hoperand, hrank⟩ := h
    exact readAt_unary ((ih hoperand).mono hoperand (Nat.le_refl _) (by omega))
  | binary op left right ihleft ihright =>
    obtain ⟨hleft, hright, hleftRank, hrightRank⟩ := h
    exact readAt_binary ((ihleft hleft).mono hleft (Nat.le_refl _) hleftRank)
      ((ihright hright).mono hright (Nat.le_refl _) (by omega)) hleftRank hrightRank
  | membership operand negated low high ihoperand ihlow ihhigh =>
    obtain ⟨hoperand, hlow, hhigh, hoperandRank, hlowRank, hhighRank⟩ := h
    have hbound {bound : Formula} (hread : bound.ReadAt bound.rank) (hregular : bound.Regular)
        (hrank : bound.rank < 4) : bound.Parses 3 (.call .simpleExpression) :=
      have hsimple : bound.ReadAt 3 := hread.mono hregular (Nat.le_refl _) (Nat.le_of_lt_succ hrank)
      (Opens.asSimple hsimple).called
    exact parses_membership (hbound (ihoperand hoperand) hoperand hoperandRank) (hbound (ihlow hlow) hlow hlowRank)
      (hbound (ihhigh hhigh) hhigh hhighRank)

theorem Regular.parses (h : formula.Regular) : formula.Parses 5 logical :=
  have hlogical : formula.ReadAt 5 := h.readAt.mono h (Nat.le_refl _) formula.rank_le_five
  Opens.asLogical hlogical

end Formula

namespace Parser

variable {parser later : Parser} {lexemes : List Lexeme}

theorem length_upcoming (parser : Parser) :
    parser.upcoming.length = parser.cursor.tokens.size - parser.position := by
  simp [upcoming, Cursor.lexemesFrom]

theorem position_of_upcoming (htokens : later.cursor.tokens = parser.cursor.tokens)
    (hupcoming : parser.upcoming = lexemes ++ later.upcoming) : later.position = parser.position + lexemes.length := by
  have hlength := congrArg List.length hupcoming
  rw [List.length_append, length_upcoming, length_upcoming, htokens] at hlength
  have hlt : parser.position < parser.cursor.tokens.size := parser.cursor.position_lt
  have hlater : later.position < parser.cursor.tokens.size := htokens ▸ later.cursor.position_lt
  omega

end Parser

namespace Rule

/-- The tokens of a regular formula, in front of what cannot continue it, are read as the formula: they are consumed,
there is a tree of it, and all that is reported are the first changes of operator in its chains. The other way round,
whenever an expression matches and its tree is a formula, no matter which, the tokens of the formula were consumed. -/
theorem expression_inverts (formula : Formula) (parser : Parser) :
    (∀ rest, formula.Regular → parser.upcoming = formula.lexemes ++ rest → formula.Ends 5 rest →
      parser.depth + (formula.nesting + 1) ≤ parser.options.maxDepth →
        ∃ node later, (Program.rule .expression).execute parser = (.matched node, later) ∧
          parser.Takes formula node later) ∧
    ((formula.mixtures parser.position).map Formula.Mixture.change).Perm
      (formula.chains.filterMap Formula.firstChange) ∧
    (parser.Reachable → ∀ node later, (Program.rule .expression).execute parser = (.matched node, later) →
      later.tree.Represents node formula → later.cursor.tokens = parser.cursor.tokens ∧
        later.position = parser.position + formula.lexemes.length ∧
          parser.upcoming = formula.lexemes ++ later.upcoming) := by
  refine ⟨fun rest hregular hupcoming hends hdepth => ?_, formula.mixtures_perm _, ?_⟩
  · exact (hregular.parses.expression hupcoming hends hdepth).execute
  · intro hreachable node later hmatch hformula
    obtain ⟨-, hretraces⟩ := Formula.call_retraces (Grammar.callBudget parser)
    have hupcoming := (hretraces parser hreachable node later hmatch).echo later.tree formula List.prefix_rfl hformula
    have hmade : Parser.Made parser later true (.expression node) :=
      Program.Finds.made (Program.rule_builds .expression (by decide)) hreachable node later hmatch
    have htokens := hmade.reverts.tokens
    exact ⟨htokens, Parser.position_of_upcoming htokens hupcoming, hupcoming⟩

def mixedChain : Cursor where
  tokens := #[.ofText .identifier "a" 0, .ofText .kwAnd "and" 2, .ofText .kwThen "then" 6, .ofText .identifier "B" 11,
    .ofText .kwOr "or" 13, .ofText .leftParen "(" 16, .ofText .integerLiteral "1" 17, .ofText .rightParen ")" 18,
    .ofText .semicolon ";" 19, .endOfFile 20]
  position := 0
  position_lt := by decide
  last_kind := by decide

theorem expression_inverts_mixedChain :
    let parser := Parser.new mixedChain { predefined := false }
    let formula : Formula :=
      .binary .or (.binary .andThen (.identifier ⟨"A"⟩) (.identifier ⟨"B"⟩)) (.parenthesized (.literal .integer "1"))
    formula.chains.filterMap Formula.firstChange = [(.andThen, .or)] ∧
      ∃ node later, (Program.rule .expression).execute parser = (.matched node, later) ∧
        parser.Takes formula node later ∧ parser.upcoming = formula.lexemes ++ later.upcoming := by
  intro parser formula
  obtain ⟨hreads, -, hretraces⟩ := expression_inverts formula parser
  have hregular : formula.Regular := ⟨⟨trivial, trivial, by decide, by decide⟩, trivial, by decide, by decide⟩
  have hupcoming : parser.upcoming = formula.lexemes ++ [.mark .semicolon, .mark .endOfFile] := by decide
  obtain ⟨node, later, hmatch, htakes⟩ :=
    hreads _ hregular hupcoming (Formula.ends_of_closes rfl) (by decide)
  obtain ⟨-, -, htokens⟩ := hretraces (.new _ _) node later hmatch htakes.represents
  exact ⟨by decide, node, later, hmatch, htakes, htokens⟩

end Rule

end AdaSyntax
