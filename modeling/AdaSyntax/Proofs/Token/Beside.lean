import AdaSyntax.Proofs.Parser.Recovery

namespace AdaSyntax

def TokenKind.isStop (kind : TokenKind) : Bool := kind = .semicolon || kind = .endOfFile

namespace Cursor

theorem getElem?_tokenAt (cursor : Cursor) {index : Nat} (h : index < cursor.tokens.size) :
    cursor.tokens[index]? = some (cursor.tokenAt index) := by
  have hmin : min index (cursor.tokens.size - 1) = index := Nat.min_eq_left (by omega)
  simp only [tokenAt, hmin, Array.getD_eq_getD_getElem?, Array.getElem?_eq_getElem h, Option.getD_some]

theorem tokenAt_position (cursor : Cursor) : cursor.tokenAt cursor.position = cursor.current := by
  have hget := cursor.getElem?_tokenAt cursor.position_lt
  rw [Array.getElem?_eq_getElem cursor.position_lt] at hget
  exact (Option.some.inj hget).symm

structure Beside (shared : Nat) (cursor cursor' : Cursor) : Prop where
  shared_le : shared ≤ cursor.tokens.size
  shared_le' : shared ≤ cursor'.tokens.size
  get : ∀ index, index < shared → cursor'.tokens[index]? = cursor.tokens[index]?
  stops : ∀ index token, index + 1 = shared → cursor.tokens[index]? = some token → token.kind.isStop = true
  position : cursor'.position = cursor.position

namespace Beside

variable {shared : Nat} {cursor cursor' : Cursor} (h : Beside shared cursor cursor')

include h

theorem tokenAt {index : Nat} (hindex : index < shared) : cursor'.tokenAt index = cursor.tokenAt index := by
  have hget := h.get index hindex
  rw [cursor.getElem?_tokenAt (Nat.lt_of_lt_of_le hindex h.shared_le),
    cursor'.getElem?_tokenAt (Nat.lt_of_lt_of_le hindex h.shared_le')] at hget
  exact Option.some.inj hget

theorem succ_lt {index : Nat} (hindex : index < shared) (hkind : (cursor.tokenAt index).kind.isStop = false) :
    index + 1 < shared := by
  refine Nat.lt_of_le_of_ne hindex fun heq => ?_
  have hstop := h.stops index _ heq (cursor.getElem?_tokenAt (Nat.lt_of_lt_of_le hindex h.shared_le))
  rw [hkind] at hstop
  cases hstop

theorem groupHas (kinds : List TokenKind) {index : Nat} (hindex : index < shared) (level : Nat) :
    Cursor.groupHas cursor'.tokens kinds index level = Cursor.groupHas cursor.tokens kinds index level := by
  have hsame {index : Nat} (hindex : index < shared) (hlt : index < cursor.tokens.size)
      (hlt' : index < cursor'.tokens.size) : cursor'.tokens[index] = cursor.tokens[index] := by
    have hget := h.get index hindex
    rwa [Array.getElem?_eq_getElem hlt, Array.getElem?_eq_getElem hlt', Option.some.injEq] at hget
  have hnext {index : Nat} (hindex : index < shared) (hlt : index < cursor.tokens.size)
      (hend : cursor.tokens[index].kind ≠ .endOfFile) (hsemicolon : cursor.tokens[index].kind ≠ .semicolon) :
      index + 1 < shared := by
    refine Nat.lt_of_le_of_ne hindex fun heq => ?_
    have hstop := h.stops index _ heq (Array.getElem?_eq_getElem hlt)
    simp [TokenKind.isStop, hend, hsemicolon] at hstop
  fun_induction Cursor.groupHas cursor.tokens kinds index level with
  | case9 index level hlt => exact absurd (Nat.lt_of_lt_of_le hindex h.shared_le) hlt
  | _ =>
    have hlt' := Nat.lt_of_lt_of_le hindex h.shared_le'
    rw [Cursor.groupHas, dif_pos hlt']
    simp_all

theorem ahead {n : Nat} (hn : cursor.position + n < shared) : cursor'.ahead n = cursor.ahead n := by
  rw [Cursor.ahead, Cursor.ahead, h.position, h.tokenAt hn]

theorem aheadInGroup (kinds : List TokenKind) {offset : Nat} (hoffset : cursor.position + offset < shared) :
    cursor'.aheadInGroup offset kinds = cursor.aheadInGroup offset kinds := by
  rw [Cursor.aheadInGroup, Cursor.aheadInGroup, h.position, h.groupHas kinds hoffset]

theorem previousEnd (hle : cursor.position ≤ shared) (hpos : 0 < shared) : cursor'.previousEnd = cursor.previousEnd := by
  have hposition := h.position
  unfold Cursor.previousEnd
  split
  next hzero =>
    have hcurrent : cursor'.current = cursor.current := by
      rw [← tokenAt_position, ← tokenAt_position, hposition, h.tokenAt (by omega)]
    have hzero' : cursor.position = 0 := hposition ▸ hzero
    simp only [hzero', hcurrent]
  next n hn =>
    have hn' : cursor.position = n + 1 := hposition ▸ hn
    simp only [hn', h.tokenAt (show n < shared by omega)]

section

variable (hposition : cursor.position < shared)

include hposition

theorem current : cursor'.current = cursor.current := by
  rw [← tokenAt_position, ← tokenAt_position, h.position, h.tokenAt hposition]

theorem kind : cursor'.kind = cursor.kind := congrArg Token.kind (h.current hposition)

theorem next_lt (hkind : cursor.kind.isStop = false) : cursor.position + 1 < shared :=
  h.succ_lt hposition (cursor.tokenAt_position.symm ▸ hkind)

theorem advance :
    (∃ error, cursor.advance = .error error ∧ cursor'.advance = .error error) ∨
      ∃ token next next', cursor.advance = .ok (token, next) ∧ cursor'.advance = .ok (token, next') ∧
        Beside shared next next' := by
  have hcurrent := h.current hposition
  have hkind := h.kind hposition
  unfold Cursor.advance
  by_cases hend : cursor.kind = .endOfFile
  · refine .inl ⟨_, dif_pos hend, ?_⟩
    rw [dif_pos (hkind.trans hend), hcurrent]
  · have hend' : cursor'.kind ≠ .endOfFile := hkind ▸ hend
    rw [dif_neg hend, dif_neg hend', hcurrent]
    exact .inr ⟨_, _, _, rfl, rfl, { h with position := congrArg (· + 1) h.position }⟩

end

end Beside

end Cursor

end AdaSyntax
