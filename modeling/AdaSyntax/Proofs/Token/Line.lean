import AdaSyntax.Proofs.Token.Lexeme
import AdaSyntax.Token.Stream

namespace AdaSyntax

def OnLine (text : String) : Prop := '\n' ∉ text.toList

instance (text : String) : Decidable (OnLine text) := inferInstanceAs (Decidable (_ ∉ _))

theorem OnLine.empty : OnLine "" := List.not_mem_nil

theorem OnLine.append {first second : String} (h : OnLine first) (h' : OnLine second) : OnLine (first ++ second) := by
  rw [OnLine, String.toList_append]
  exact fun hmem => (List.mem_append.mp hmem).elim h h'

namespace Lexeme

def Unbroken (cs : List Char) (length : Nat) : Prop := '\n' ∉ cs.take length

variable {cs : List Char} {c : Char} {first second length : Nat}

theorem Unbroken.zero (cs : List Char) : Unbroken cs 0 := by
  rw [Unbroken, List.take_zero]
  exact List.not_mem_nil

theorem Unbroken.add (h : Unbroken cs first) (h' : Unbroken (cs.drop first) second) : Unbroken cs (first + second) := by
  rw [Unbroken, List.take_add]
  exact fun hmem => (List.mem_append.mp hmem).elim h h'

theorem Unbroken.cons (hc : c ≠ '\n') (h : Unbroken cs length) : Unbroken (c :: cs) (length + 1) := by
  rw [Unbroken, List.take_succ_cons]
  exact List.not_mem_cons_of_ne_of_not_mem hc.symm h

theorem Unbroken.behind {rest : List Char} (h : Unbroken cs first) (hrest : cs.drop first = rest)
    (h' : Unbroken rest second) : Unbroken cs (first + second) :=
  h.add (hrest ▸ h')

theorem take_runLength (p : Char → Bool) (cs : List Char) : cs.take (runLength p cs) = cs.takeWhile p :=
  List.prefix_iff_eq_take.mp (List.takeWhile_prefix p) |>.symm

theorem unbroken_run {p : Char → Bool} (hp : p '\n' = false) (cs : List Char) : Unbroken cs (runLength p cs) := by
  rw [Unbroken, take_runLength]
  intro hmem
  have hholds := List.all_eq_true.mp List.all_takeWhile '\n' hmem
  rw [hp] at hholds
  cases hholds

theorem unbroken_digits (cs : List Char) : Unbroken cs (digitsLength cs) := unbroken_run rfl cs

theorem unbroken_hex (cs : List Char) : Unbroken cs (hexLength cs) := unbroken_run rfl cs

theorem ne_newline_of_isDigit (h : c.isDigit = true) : c ≠ '\n' := by
  rintro rfl
  cases h

theorem ne_newline_of_isHexDigit (h : isHexDigit c = true) : c ≠ '\n' := by
  rintro rfl
  cases h

theorem unbroken_exponent {negative : Bool} (h : exponent negative cs = .complete length) : Unbroken cs length := by
  unfold exponent at h
  split at h
  · cases h
  · split at h
    · cases h
    · rename_i e rest hletter
      have he : e ≠ '\n' := by
        rintro rfl
        exact hletter rfl
      split at h
      · cases h
      · rename_i sign rest
        split at h
        · rename_i hdigit
          cases h
          exact Nat.add_comm 2 _ ▸ ((unbroken_digits _).cons (ne_newline_of_isDigit hdigit)).cons he
        · split at h
          · rename_i hsign
            have hne : sign ≠ '\n' := by
              rintro rfl
              cases hsign
            split at h
            · cases h
            · split at h
              · rename_i hdigit
                cases h
                exact Nat.add_comm 3 _ ▸ (((unbroken_digits _).cons (ne_newline_of_isDigit hdigit)).cons hne).cons he
              · cases h
          · cases h

theorem unbroken_exponentLength (negative : Bool) (cs : List Char) : Unbroken cs (exponentLength negative cs) := by
  unfold exponentLength
  split
  · rename_i length hcomplete
    exact unbroken_exponent hcomplete
  · exact .zero cs

theorem unbroken_decimalTail {all : List Char} (h : Unbroken all length) (hrest : all.drop length = cs) :
    Unbroken all (decimalTail length cs).2 := by
  unfold decimalTail
  split
  · rename_i digit rest
    split
    · rename_i hdigit
      have hpoint : Unbroken ('.' :: digit :: rest) (digitsLength rest + 1 + 1) :=
        ((unbroken_digits rest).cons (ne_newline_of_isDigit hdigit)).cons (by decide)
      have hall := h.behind hrest (hpoint.add (unbroken_exponentLength true _))
      have hlength : length + (digitsLength rest + 1 + 1 + exponentLength true (rest.drop (digitsLength rest))) =
          length + 2 + digitsLength rest + exponentLength true (rest.drop (digitsLength rest)) := by omega
      rw [List.drop_succ_cons, List.drop_succ_cons, hlength] at hall
      exact hall
    · exact h.behind hrest (unbroken_exponentLength false _)
  · exact h.behind hrest (unbroken_exponentLength false _)

theorem unbroken_basedTail {all : List Char} (h : Unbroken all length) (hrest : all.drop length = cs) :
    Unbroken all (basedTail length cs).2 := by
  unfold basedTail
  split
  · rename_i rest
    have hhash : Unbroken ('#' :: rest) (exponentLength false rest + 1) :=
      (unbroken_exponentLength false rest).cons (by decide)
    exact Nat.add_right_comm length 1 _ ▸ h.behind hrest hhash
  · rename_i digit rest
    split
    · rename_i hdigit
      have hpoint : Unbroken ('.' :: digit :: rest) (hexLength rest + 1 + 1) :=
        ((unbroken_hex rest).cons (ne_newline_of_isHexDigit hdigit)).cons (by decide)
      have hfraction : Unbroken all (length + 2 + hexLength rest) := by
        have hall := h.behind hrest hpoint
        have hlength : length + (hexLength rest + 1 + 1) = length + 2 + hexLength rest := by omega
        exact hlength ▸ hall
      have hbehind : all.drop (length + 2 + hexLength rest) = rest.drop (hexLength rest) := by
        rw [← List.drop_drop, ← List.drop_drop, hrest]
        rfl
      dsimp only
      split
      · rename_i behind hclose
        rw [hclose] at hbehind
        have hhash : Unbroken all (length + 2 + hexLength rest + 1) :=
          hfraction.behind hbehind ((Unbroken.zero behind).cons (by decide))
        split
        · exact hhash
        · exact hhash
        · rename_i extra hcomplete
          have hafter : all.drop (length + 2 + hexLength rest + 1) = behind := by
            rw [← List.drop_drop, hbehind]
            rfl
          exact hhash.behind hafter (unbroken_exponent hcomplete)
      · exact hfraction
    · exact h
  · exact h

theorem unbroken_number (cs : List Char) : Unbroken cs (number cs).2 := by
  have hdigits := unbroken_digits cs
  have hdecimal := unbroken_decimalTail hdigits rfl
  unfold number
  dsimp only
  split
  · rename_i digit based hrest
    split
    · rename_i hdigit
      have hhash : Unbroken ('#' :: digit :: based) (hexLength based + 1 + 1) :=
        ((unbroken_hex based).cons (ne_newline_of_isHexDigit hdigit)).cons (by decide)
      have hlength : digitsLength cs + (hexLength based + 1 + 1) = digitsLength cs + 2 + hexLength based := by omega
      refine unbroken_basedTail (hlength ▸ hdigits.behind hrest hhash) ?_
      rw [← List.drop_drop, ← List.drop_drop, hrest]
      rfl
    · exact hdecimal
  · exact hdecimal

theorem unbroken_string (cs : List Char) : Unbroken cs (string cs).2 := by
  fun_induction string cs with
  | case1 cs kind length hstring ih =>
    rw [hstring] at ih
    exact (ih.cons (by decide)).cons (by decide)
  | case2 => exact (Unbroken.zero _).cons (by decide)
  | case3 | case4 => exact .zero _
  | case5 c cs hquote hclose hline kind length hstring ih =>
    rw [hstring] at ih
    refine ih.cons ?_
    rintro rfl
    exact hline rfl

theorem unbroken_quote (mustBeTick : Bool) (cs : List Char) : Unbroken cs (quote mustBeTick cs).2 := by
  unfold quote
  split
  · rename_i c rest
    split
    · exact .zero _
    · rename_i hne
      refine ((Unbroken.zero rest).cons (by decide)).cons ?_
      rintro rfl
      exact hne (by simp)
  · exact .zero _

theorem unbroken_word (first : Char) (cs : List Char) : Unbroken cs (word first cs).2 :=
  unbroken_run (by decide +kernel) cs

theorem unbroken_punctuation (first : Char) (cs : List Char) : Unbroken cs (punctuation first cs).2 := by
  unfold punctuation
  split
  · exact .zero _
  · rename_i second rest
    split
    · rename_i hdashes
      obtain ⟨-, rfl⟩ : first = '-' ∧ second = '-' := by simpa using hdashes
      exact Nat.add_comm 1 _ ▸ (unbroken_run rfl rest).cons (by decide)
    · split
      · rename_i kind hcompound
        refine (Unbroken.zero rest).cons ?_
        rintro rfl
        unfold compound? at hcompound
        split at hcompound <;> simp_all
      · exact .zero _

theorem scan_unbroken (mustBeTick : Bool) (first : Char) (cs : List Char)
    (h : (scan mustBeTick first cs).1 ≠ .whitespace) : Unbroken (first :: cs) ((scan mustBeTick first cs).2 + 1) := by
  have hblank : isBlank first = false := by
    cases hblank : isBlank first with
    | false => rfl
    | true => exact absurd (by rw [scan, if_pos hblank]) h
  refine Unbroken.cons ?_ ?_
  · rintro rfl
    cases hblank
  · rw [scan, if_neg (Bool.eq_false_iff.mp hblank)]
    split
    · exact unbroken_number cs
    · split
      · exact unbroken_string cs
      · split
        · exact unbroken_quote mustBeTick cs
        · split
          · exact unbroken_word first cs
          · exact unbroken_punctuation first cs

end Lexeme

namespace Token

theorem scan_onLine (previous : Option TokenKind) (offset : Nat) (cs : List Char) :
    ∀ token ∈ scan previous offset cs, token.kind ≠ .whitespace → OnLine token.text := by
  intro token htoken hkind
  obtain ⟨mustBeTick, first, rest, hlexeme, htext⟩ := exists_lexeme previous offset cs token htoken
  have hline := Lexeme.scan_unbroken mustBeTick first rest (hlexeme ▸ hkind)
  rw [Lexeme.Unbroken, List.take_succ_cons] at hline
  rwa [OnLine, htext, String.toList_ofList]

theorem wellFormed_onLine (source : String) : ∀ token ∈ wellFormed (significant source), OnLine token.text := by
  intro token htoken
  rw [wellFormed_significant] at htoken
  rcases List.mem_append.mp htoken with hread | hend
  · obtain ⟨hscanned, htrivia⟩ := List.mem_filter.mp (List.mem_filter.mp hread).1
    refine scan_onLine none 0 source.toList token hscanned ?_
    intro hkind
    rw [hkind] at htrivia
    cases htrivia
  · rw [List.mem_singleton.mp hend]
    exact .empty

end Token

end AdaSyntax
