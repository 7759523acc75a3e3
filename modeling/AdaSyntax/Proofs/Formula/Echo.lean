import AdaSyntax.Proofs.Formula.Primary
import AdaSyntax.Proofs.Parser.Spells

namespace AdaSyntax

namespace Payload

variable {ρ : Type}

def isOther (payload : Payload ρ) : Bool := !payload.isPlaceholder && !payload.isFormula

end Payload

namespace Tree

variable {tree : Tree} {id node low high target : NodeId} {formula : Formula}

theorem Represents.of_literal {kind : LiteralKind} {text : String} (h : tree.Represents id formula)
    (hpayload : tree.payload id = .expr (.literal kind text)) : formula = .literal kind text := by
  cases formula <;> simp_all

theorem Represents.of_identifier {name : Name} {symbol : Option SymbolId} {kind : SymbolKind}
    (h : tree.Represents id formula) (hpayload : tree.payload id = .name (.identifier name symbol kind)) :
    formula = .identifier name := by
  cases formula <;> simp_all

theorem Represents.of_parenthesized (h : tree.Represents id formula)
    (hpayload : tree.payload id = .expr (.parenthesized node)) :
    ∃ inner, formula = .parenthesized inner ∧ tree.Represents node inner := by
  cases formula <;> simp_all

theorem Represents.of_unary {op : UnaryOp} (h : tree.Represents id formula)
    (hpayload : tree.payload id = .expr (.unary op node)) :
    ∃ operand, formula = .unary op operand ∧ tree.Represents node operand := by
  cases formula with
  | unary sign operand =>
    obtain ⟨child, hchild, hoperand⟩ := h
    obtain ⟨rfl, rfl⟩ : op = sign ∧ node = child := by simpa [hpayload] using hchild
    exact ⟨operand, rfl, hoperand⟩
  | _ => simp_all

theorem Represents.of_binary {op : BinaryOp} (h : tree.Represents id formula)
    (hpayload : tree.payload id = .expr (.binary op low high)) :
    ∃ left right, formula = .binary op left right ∧ tree.Represents low left ∧ tree.Represents high right := by
  cases formula with
  | binary sign left right =>
    obtain ⟨lower, upper, hparts, hleft, hright⟩ := h
    obtain ⟨rfl, rfl, rfl⟩ : op = sign ∧ low = lower ∧ high = upper := by simpa [hpayload] using hparts
    exact ⟨left, right, rfl, hleft, hright⟩
  | _ => simp_all

theorem Represents.of_membership {negated : Bool} (h : tree.Represents id formula)
    (hpayload : tree.payload id = .expr (.membership node negated target)) :
    ∃ operand lower upper left right, formula = .membership operand negated left right ∧
      tree.payload target = .type (.range lower upper) ∧ tree.Represents node operand ∧
        tree.Represents lower left ∧ tree.Represents upper right := by
  cases formula with
  | membership operand absent left right =>
    obtain ⟨tested, bounds, lower, upper, hparts, hbounds, hoperand, hleft, hright⟩ := h
    obtain ⟨rfl, rfl, rfl⟩ : node = tested ∧ negated = absent ∧ target = bounds := by simpa [hpayload] using hparts
    exact ⟨operand, lower, upper, left, right, rfl, hbounds, hoperand, hleft, hright⟩
  | _ => simp_all

end Tree

namespace Parser

structure Echoes (parser : Parser) (node : NodeId) (later : Parser) : Prop where
  nodes : parser.tree.nodes.toList <+: later.tree.nodes.toList
  echo : ∀ (tree : Tree) formula, later.tree.nodes.toList <+: tree.nodes.toList → tree.Represents node formula →
    parser.upcoming = formula.lexemes ++ later.upcoming

structure EchoesRange (parser : Parser) (target : NodeId) (later : Parser) : Prop where
  nodes : parser.tree.nodes.toList <+: later.tree.nodes.toList
  echo : ∀ (tree : Tree) lower upper low high, later.tree.nodes.toList <+: tree.nodes.toList →
    tree.payload target = .type (.range lower upper) → tree.Represents lower low → tree.Represents upper high →
      parser.upcoming = low.lexemes ++ .mark .doubleDot :: (high.lexemes ++ later.upcoming)

variable {parser middle between later last : Parser} {node other target result : NodeId} {lexemes : List Lexeme}

namespace Echoes

theorem of_isOther (hnodes : parser.tree.nodes.toList <+: later.tree.nodes.toList)
    (h : (later.tree.payload node).isOther = true) : parser.Echoes node later where
  nodes := hnodes
  echo tree formula hgrown hformula := by
    simp only [Payload.isOther, Bool.and_eq_true, Bool.not_eq_true'] at h
    have hroot := hformula.isFormula
    rw [Tree.payload_kept hgrown rfl h.1, h.2] at hroot
    cases hroot

theorem ascend (h : parser.deeper.Echoes node later) : parser.Echoes node later.ascend :=
  ⟨h.nodes, h.echo⟩

theorem still (h : parser.Echoes node later) (hstill : later.Spells last []) : parser.Echoes node last where
  nodes := h.nodes.trans hstill.nodes
  echo tree formula hgrown hformula := by
    have hupcoming : later.upcoming = last.upcoming := hstill.upcoming
    rw [h.echo tree formula (hstill.nodes.trans hgrown) hformula, hupcoming]

theorem behind (h : middle.Echoes node later) (hstill : parser.Spells middle []) : parser.Echoes node later where
  nodes := hstill.nodes.trans h.nodes
  echo tree formula hgrown hformula := hstill.upcoming.trans (h.echo tree formula hgrown hformula)

theorem literal {kind : LiteralKind} {text : String} (h : parser.Spells later [⟨kind.token, text⟩])
    (hpayload : later.tree.payload node = .expr (.literal kind text)) : parser.Echoes node later where
  nodes := h.nodes
  echo tree formula hgrown hformula := by
    have hkept := Tree.payload_kept hgrown hpayload rfl
    obtain rfl := hformula.of_literal hkept
    exact h.upcoming

theorem identifier {name : Name} {symbol : Option SymbolId} {kind : SymbolKind}
    (h : parser.Spells later [⟨.identifier, name.text⟩])
    (hpayload : later.tree.payload node = .name (.identifier name symbol kind)) : parser.Echoes node later where
  nodes := h.nodes
  echo tree formula hgrown hformula := by
    have hkept := Tree.payload_kept hgrown hpayload rfl
    obtain rfl := hformula.of_identifier hkept
    exact h.upcoming

theorem parenthesized (hopen : parser.Spells middle [.mark .leftParen]) (h : middle.Echoes node between)
    (hclose : between.Spells later [.mark .rightParen]) (hadd : later.Spells last [])
    (hpayload : last.tree.payload result = .expr (.parenthesized node)) : parser.Echoes result last where
  nodes := ((hopen.nodes.trans h.nodes).trans hclose.nodes).trans hadd.nodes
  echo tree formula hgrown hformula := by
    have hkept := Tree.payload_kept hgrown hpayload rfl
    obtain ⟨inner, rfl, hinner⟩ := hformula.of_parenthesized hkept
    rw [hopen.upcoming, h.echo tree inner ((hclose.trans hadd).nodes.trans hgrown) hinner, (hclose.trans hadd).upcoming]
    simp [Formula.lexemes]

theorem unary {op : UnaryOp} (hop : parser.Spells middle [.mark op.token]) (h : middle.Echoes node later)
    (hadd : later.Spells last []) (hpayload : last.tree.payload result = .expr (.unary op node)) :
    parser.Echoes result last where
  nodes := (hop.nodes.trans h.nodes).trans hadd.nodes
  echo tree formula hgrown hformula := by
    have hkept := Tree.payload_kept hgrown hpayload rfl
    obtain ⟨operand, rfl, hoperand⟩ := hformula.of_unary hkept
    rw [hop.upcoming, (h.still hadd).echo tree operand hgrown hoperand]
    rfl

theorem binary {op : BinaryOp} (hleft : parser.Echoes node middle)
    (hop : middle.Spells between (op.tokens.map .mark)) (hright : between.Echoes other later)
    (hadd : later.Spells last []) (hpayload : last.tree.payload result = .expr (.binary op node other)) :
    parser.Echoes result last where
  nodes := ((hleft.nodes.trans hop.nodes).trans hright.nodes).trans hadd.nodes
  echo tree formula hgrown hformula := by
    have hkept := Tree.payload_kept hgrown hpayload rfl
    obtain ⟨left, right, rfl, hl, hr⟩ := hformula.of_binary hkept
    have hnodes := ((hop.nodes.trans hright.nodes).trans hadd.nodes).trans hgrown
    rw [hleft.echo tree left hnodes hl, hop.upcoming, (hright.still hadd).echo tree right hgrown hr]
    simp [Formula.lexemes]

theorem range (hlow : parser.Echoes node middle) (hdots : middle.Spells between [.mark .doubleDot])
    (hhigh : between.Echoes other later) (hadd : later.Spells last [])
    (hpayload : last.tree.payload target = .type (.range node other)) : parser.EchoesRange target last where
  nodes := ((hlow.nodes.trans hdots.nodes).trans hhigh.nodes).trans hadd.nodes
  echo tree lower upper low high hgrown htarget hlower hupper := by
    have hkept := Tree.payload_kept hgrown hpayload rfl
    obtain ⟨rfl, rfl⟩ : node = lower ∧ other = upper := by simpa [hkept] using htarget
    have hnodes := ((hdots.nodes.trans hhigh.nodes).trans hadd.nodes).trans hgrown
    rw [hlow.echo tree low hnodes hlower, hdots.upcoming, (hhigh.still hadd).echo tree high hgrown hupper]
    rfl

theorem membership {negated : Bool} (hoperand : parser.Echoes node middle)
    (hin : middle.Spells between ((if negated then [.mark .kwNot] else []) ++ [.mark .kwIn]))
    (hrange : between.EchoesRange target later) (hadd : later.Spells last [])
    (hpayload : last.tree.payload result = .expr (.membership node negated target)) : parser.Echoes result last where
  nodes := ((hoperand.nodes.trans hin.nodes).trans hrange.nodes).trans hadd.nodes
  echo tree formula hgrown hformula := by
    have hkept := Tree.payload_kept hgrown hpayload rfl
    obtain ⟨operand, lower, upper, low, high, rfl, htarget, ho, hl, hh⟩ :=
      hformula.of_membership hkept
    have hnodes := ((hin.nodes.trans hrange.nodes).trans hadd.nodes).trans hgrown
    have hlast : later.upcoming = last.upcoming := hadd.upcoming
    rw [hoperand.echo tree operand hnodes ho, hin.upcoming,
      hrange.echo tree lower upper low high (hadd.nodes.trans hgrown) htarget hl hh, hlast]
    simp [Formula.lexemes]

end Echoes

theorem EchoesRange.of_isName (hnodes : parser.tree.nodes.toList <+: later.tree.nodes.toList)
    (h : (later.tree.payload target).isName = true) : parser.EchoesRange target later where
  nodes := hnodes
  echo tree lower upper low high hgrown htarget _ _ := by
    have hfilled : (later.tree.payload target).isPlaceholder = false := by
      cases hpayload : later.tree.payload target <;> simp_all [Payload.isName, Payload.isPlaceholder]
    rw [← Tree.payload_kept hgrown rfl hfilled, htarget] at h
    cases h

theorem EchoesRange.ascend (h : parser.deeper.EchoesRange target later) : parser.EchoesRange target later.ascend :=
  ⟨h.nodes, h.echo⟩

end Parser

end AdaSyntax
