import AdaSyntax.Proofs.Parser.Built

namespace AdaSyntax

namespace Cursor

/-- `later` is `earlier` moved on over tokens that are no end markers. -/
structure MovesTo (earlier later : Cursor) : Prop where
  tokens : later.tokens = earlier.tokens
  le : earlier.position ≤ later.position
  passed : ∀ index, earlier.position ≤ index → index < later.position →
    ∀ token, earlier.tokens[index]? = some token → token.kind ≠ .endOfFile

namespace MovesTo

variable {first second third : Cursor}

theorem refl (cursor : Cursor) : cursor.MovesTo cursor :=
  ⟨rfl, Nat.le_refl _, fun _ hle hlt => absurd hlt (Nat.not_lt.mpr hle)⟩

theorem trans (h : first.MovesTo second) (h' : second.MovesTo third) : first.MovesTo third where
  tokens := h'.tokens.trans h.tokens
  le := Nat.le_trans h.le h'.le
  passed := by
    intro index hle hlt token htoken
    by_cases hsecond : index < second.position
    · exact h.passed index hle hsecond token htoken
    · exact h'.passed index (Nat.not_lt.mp hsecond) hlt token (h.tokens ▸ htoken)

theorem advance {cursor next : Cursor} {token : Token} (h : cursor.advance = .ok (token, next)) :
    cursor.MovesTo next := by
  unfold Cursor.advance at h
  split at h
  · cases h
  · rename_i hkind
    cases h
    refine ⟨rfl, Nat.le_succ _, fun index hle hlt token htoken => ?_⟩
    obtain rfl : index = cursor.position := Nat.le_antisymm (Nat.le_of_lt_succ hlt) hle
    rw [Array.getElem?_eq_getElem cursor.position_lt] at htoken
    rw [← Option.some.inj htoken]
    exact hkind

end MovesTo

end Cursor

namespace Parser

variable (parser : Parser)

theorem skip_eq : ∃ cursor, parser.skip = { parser with cursor } ∧ parser.cursor.MovesTo cursor ∧
    (parser.cursor.atEnd = false → parser.position < cursor.position) := by
  cases hadvance : parser.cursor.advance with
  | ok next =>
    obtain ⟨token, cursor⟩ := next
    refine ⟨cursor, by simp only [skip, hadvance], .advance hadvance, fun _ => ?_⟩
    rw [(Cursor.advance_eq hadvance).2]
    exact Nat.lt_succ_self _
  | error error =>
    refine ⟨parser.cursor, by simp only [skip, hadvance], .refl _, fun hmore => ?_⟩
    simp only [Cursor.atEnd, decide_eq_false_iff_not] at hmore
    simp only [Cursor.advance, hmore, dif_neg, not_false_eq_true] at hadvance
    cases hadvance

theorem skipPast_eq (closers : List TokenKind) (fuel : Nat) :
    ∃ cursor, skipPast closers fuel parser = { parser with cursor } ∧ parser.cursor.MovesTo cursor := by
  induction fuel generalizing parser with
  | zero => exact ⟨parser.cursor, rfl, .refl _⟩
  | succ fuel ih =>
    obtain ⟨cursor, hskip, hmoves, -⟩ := parser.skip_eq
    rw [skipPast]
    split
    · exact ⟨parser.cursor, rfl, .refl _⟩
    · split
      · exact ⟨cursor, hskip, hmoves⟩
      · obtain ⟨last, hlast, hmoves'⟩ := ih parser.skip
        rw [hskip] at hlast hmoves' ⊢
        exact ⟨last, hlast, hmoves.trans hmoves'⟩

theorem resynchronize_eq (closers : List TokenKind) :
    ∃ cursor, parser.resynchronize closers = { parser with cursor } ∧ parser.cursor.MovesTo cursor ∧
      (parser.cursor.atEnd = false → parser.position < cursor.position) := by
  obtain ⟨cursor, hskip, hmoves, hlt⟩ := parser.skip_eq
  rw [resynchronize]
  split
  · exact ⟨cursor, hskip, hmoves, hlt⟩
  · obtain ⟨last, hlast, hmoves'⟩ := parser.skip.skipPast_eq closers parser.cursor.remaining
    rw [hskip] at hlast hmoves' ⊢
    exact ⟨last, hlast, hmoves.trans hmoves', fun hmore => Nat.lt_of_lt_of_le (hlt hmore) hmoves'.le⟩

theorem dropItem_eq (context : Context) (code : Code) (first : Nat) (outer : Option Mismatch) :
    ∃ diagnostic cursor furthest,
      parser.dropItem context code first outer = { parser.report diagnostic with cursor, furthest } ∧
        parser.cursor.MovesTo cursor ∧ (parser.cursor.atEnd = false → parser.position < cursor.position) := by
  obtain ⟨diagnostic, hreport⟩ : ∃ diagnostic,
      parser.reportUnrecognized context code first = parser.report diagnostic := ⟨_, rfl⟩
  obtain ⟨cursor, hcursor, hmoves, hlt⟩ := (parser.report diagnostic).resynchronize_eq context.closers
  let skipped : Parser := { parser.report diagnostic with cursor }
  refine ⟨diagnostic, cursor, (skipped.mergeMismatch outer).furthest, ?_, hmoves, hlt⟩
  rw [dropItem, hreport, hcursor]
  rfl

end Parser

end AdaSyntax
