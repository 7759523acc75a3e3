import AdaSyntax.Token.Stream

namespace AdaSyntax

namespace Token

def Ordered (tokens : List Token) : Prop :=
  tokens.Pairwise fun token next => token.range.stop ≤ next.range.start

def Within (low high : Nat) (tokens : List Token) : Prop :=
  ∀ token ∈ tokens, low ≤ token.range.start ∧ token.range.stop ≤ high

theorem Ordered.filter {tokens : List Token} (p : Token → Bool) (h : Ordered tokens) :
    Ordered (tokens.filter p) :=
  List.Pairwise.filter p h

theorem Within.filter {low high : Nat} {tokens : List Token} (p : Token → Bool)
    (h : Within low high tokens) : Within low high (tokens.filter p) :=
  fun token htoken => h token (List.mem_filter.mp htoken).1

theorem Ordered.concat {low : Nat} {tokens : List Token} {token : Token} (h : Ordered tokens)
    (hwithin : Within low token.range.start tokens) : Ordered (tokens ++ [token]) := by
  refine List.pairwise_append.mpr ⟨h, List.pairwise_singleton _ _, fun earlier hearlier last hlast => ?_⟩
  rw [List.mem_singleton.mp hlast]
  exact (hwithin earlier hearlier).2

theorem utf8ByteSize_lexeme (c : Char) (cs : List Char) (length : Nat) :
    (String.ofList (c :: cs)).utf8ByteSize =
      (String.ofList (c :: cs.take length)).utf8ByteSize + (String.ofList (cs.drop length)).utf8ByteSize := by
  rw [← String.utf8ByteSize_append, ← String.ofList_append, List.cons_append, List.take_append_drop]

theorem scan_within (previous : Option TokenKind) (offset : Nat) (cs : List Char) :
    Within offset (offset + (String.ofList cs).utf8ByteSize) (scan previous offset cs) := by
  induction previous, offset, cs using scan.induct with
  | case1 => simp [scan, Within]
  | case2 previous offset c cs lexeme token ih =>
    have hsize := utf8ByteSize_lexeme c cs lexeme.2
    have hstop : token.range.stop =
        offset + (String.ofList (c :: cs.take lexeme.2)).utf8ByteSize := rfl
    rw [scan]
    intro other hother
    rcases List.mem_cons.mp hother with rfl | hother
    · exact ⟨Nat.le_refl offset, by change token.range.stop ≤ _; omega⟩
    · obtain ⟨hstart, hend⟩ := ih other hother
      exact ⟨by omega, by omega⟩

theorem scan_ordered (previous : Option TokenKind) (offset : Nat) (cs : List Char) :
    Ordered (scan previous offset cs) := by
  induction previous, offset, cs using scan.induct with
  | case1 => simp [scan, Ordered]
  | case2 previous offset c cs lexeme token ih =>
    rw [scan]
    exact List.pairwise_cons.mpr ⟨fun next hnext => (scan_within _ _ _ next hnext).1, ih⟩

theorem wellFormed_ordered (source : String) : Ordered (wellFormed (significant source)) := by
  have hwithin := scan_within none 0 source.toList
  rw [String.ofList_toList, Nat.zero_add] at hwithin
  rw [wellFormed_significant]
  apply Ordered.concat
  · exact ((scan_ordered none 0 source.toList).filter _).filter _
  · exact (hwithin.filter _).filter _

end Token

end AdaSyntax
