import AdaSyntax.Proofs.Token.ReservedWord
import AdaSyntax.Token.Lexer

namespace AdaSyntax

namespace TokenKind

def isQuoted : TokenKind → Bool
  | characterLiteral | tick => true
  | _ => false

def isWord (kind : TokenKind) : Bool := kind = identifier || kind.isReserved

structure Plain (kind : TokenKind) : Prop where
  isQuoted : kind.isQuoted = false
  isWord : kind.isWord = false
  ne_endOfFile : kind ≠ .endOfFile

end TokenKind

namespace Unicode

theorem toNat_ofNat (code : Nat) : (Char.ofNat code).toNat = code ∨ (Char.ofNat code).toNat = 0 := by
  rw [Char.ofNat]
  by_cases h : code.isValidChar
  · exact .inl (by rw [dif_pos h]; rfl)
  · exact .inr (by rw [dif_neg h]; rfl)

theorem ofNat_notMem {code : Nat} (h : 0x80 ≤ code) : Char.ofNat code ∉ "RANGE".toList := by
  intro hmem
  have hsmall : ∀ letter ∈ "RANGE".toList, 0 < letter.toNat ∧ letter.toNat < 0x80 := by simp
  have hletter := hsmall _ hmem
  rcases toNat_ofNat code with heq | heq <;> omega

theorem exists_of_upperCase {c : Char} (h : 0x80 ≤ c.toNat) : ∃ letter ∈ upperCase c, letter ∉ "RANGE".toList := by
  rw [upperCase, if_neg (Nat.not_lt.mpr h)]
  split
  · rename_i codes hcodes
    obtain ⟨_, _, hentries, -⟩ := List.lookup_eq_some_iff.mp hcodes
    have hentry : (c.toNat, codes) ∈ caseExpansions := hentries ▸ by simp
    have hall : ∀ entry ∈ caseExpansions, ∃ code ∈ entry.2, Char.ofNat code ∉ "RANGE".toList := by decide +kernel
    obtain ⟨code, hcode, hletter⟩ := hall _ hentry
    exact ⟨_, List.mem_map_of_mem hcode, hletter⟩
  · split
    · rename_i code hcode
      obtain ⟨run, hrun, himage⟩ := List.exists_of_findSome?_eq_some hcode
      have hall : ∀ run ∈ caseRuns, 0x80 ≤ run.upper ∨ run.last = run.first ∧ Char.ofNat run.upper ∉ "RANGE".toList := by
        decide +kernel
      refine ⟨_, List.mem_singleton_self _, ?_⟩
      unfold CaseRun.image? at himage
      split at himage
      · obtain rfl := Option.some.inj himage
        rcases hall run hrun with hupper | ⟨hsingle, hletter⟩
        · exact ofNat_notMem (Nat.le_trans hupper (Nat.le_add_right _ _))
        · rename_i hbounds
          simp only [hsingle, Bool.and_eq_true, decide_eq_true_iff] at hbounds
          rwa [Nat.sub_eq_zero_of_le hbounds.1.2, Nat.add_zero]
      · cases himage
    · refine ⟨c, List.mem_singleton_self c, ?_⟩
      rw [← Char.ofNat_toNat c]
      exact ofNat_notMem h

theorem toLower_toUpper {c : Char} (h : c.toNat < 0x80) : c.toUpper.toLower = c.toLower := by
  have hall : ∀ code < 0x80, (Char.ofNat code).toUpper.toLower = (Char.ofNat code).toLower := by decide
  have hthis := hall c.toNat h
  rwa [Char.ofNat_toNat] at hthis

end Unicode

namespace Lexeme

theorem number_plain (cs : List Char) : (number cs).1.Plain := by
  have hdecimal : ∀ length cs, (decimalTail length cs).1.Plain := by
    intro length cs
    unfold decimalTail
    repeat' split
    all_goals exact ⟨rfl, rfl, by simp⟩
  have hbased : ∀ length cs, (basedTail length cs).1.Plain := by
    intro length cs
    unfold basedTail
    repeat' split
    all_goals exact ⟨rfl, rfl, by simp⟩
  unfold number
  dsimp only
  split
  · split
    · exact hbased _ _
    · exact hdecimal _ _
  · exact hdecimal _ _

theorem string_plain (cs : List Char) : (string cs).1.Plain := by
  fun_induction string cs with
  | case1 cs kind length hstring ih => simpa [hstring] using ih
  | case2 | case3 | case4 => exact ⟨rfl, rfl, by simp⟩
  | case5 c cs hquote hclose hline kind length hstring ih => simpa [hstring] using ih

theorem wordKind_plain (text : String) : (wordKind text).isQuoted = false ∧ (wordKind text).isTrivia = false := by
  unfold wordKind
  split
  case h_1 kind hkind =>
    have hreserved := ReservedWord.isReserved_of_kind? hkind
    cases kind <;> first | exact ⟨rfl, rfl⟩ | cases hreserved
  case h_2 => split <;> exact ⟨rfl, rfl⟩

theorem punctuation_plain (first : Char) (cs : List Char) : (punctuation first cs).1.Plain := by
  have hdelimiter : (delimiter first).Plain := by
    unfold delimiter
    split <;> exact ⟨rfl, rfl, by decide⟩
  have hcompound : ∀ second kind, compound? first second = some kind → kind.Plain := by
    intro second kind hkind
    unfold compound? at hkind
    split at hkind <;> cases hkind <;> exact ⟨rfl, rfl, by decide⟩
  unfold punctuation
  split
  · exact hdelimiter
  · split
    · exact ⟨rfl, rfl, by simp⟩
    · split
      case h_1 kind hkind => exact hcompound _ kind hkind
      case h_2 => exact hdelimiter

theorem scan_not_quote (mustBeTick : Bool) {first : Char} (cs : List Char) (h : first ≠ '\'') :
    (scan mustBeTick first cs).1.isQuoted = false ∧
      scan mustBeTick first cs = scan false first cs := by
  unfold scan
  repeat' split
  all_goals first
    | exact ⟨rfl, rfl⟩
    | exact ⟨(number_plain _).isQuoted, rfl⟩
    | exact ⟨(string_plain _).isQuoted, rfl⟩
    | exact ⟨(wordKind_plain _).1, rfl⟩
    | exact ⟨(punctuation_plain _ _).isQuoted, rfl⟩

theorem scan_quote (mustBeTick : Bool) (cs : List Char) :
    scan mustBeTick '\'' cs = quote mustBeTick cs := rfl

theorem quote_true (cs : List Char) : quote true cs = (.tick, 0) := by
  unfold quote
  split <;> rfl

theorem quote_false (cs : List Char) :
    quote false cs = (.tick, 0) ∨ ∃ c rest, cs = c :: '\'' :: rest ∧
      quote false cs = (.characterLiteral, 2) := by
  unfold quote
  split
  case h_1 c rest =>
    split
    · exact .inl rfl
    · exact .inr ⟨c, rest, rfl, rfl⟩
  case h_2 => exact .inl rfl

theorem scan_behind_name (first : Char) (cs : List Char) :
    scan true first cs =
      if (scan false first cs).1 = .characterLiteral then (.tick, 0) else scan false first cs := by
  by_cases hquote : first = '\''
  · subst hquote
    rw [scan_quote, scan_quote, quote_true]
    obtain htick | ⟨c, rest, -, hliteral⟩ := quote_false cs
    · simp [htick]
    · simp [hliteral]
  · obtain ⟨hkind, hsame⟩ := scan_not_quote true cs hquote
    rw [hsame] at hkind ⊢
    rw [if_neg]
    intro hliteral
    rw [hliteral] at hkind
    cases hkind

theorem scan_eq_tick {mustBeTick : Bool} {first : Char} {cs : List Char}
    (h : (scan mustBeTick first cs).1 = .tick) :
    first = '\'' ∧ (scan mustBeTick first cs).2 = 0 := by
  by_cases hquote : first = '\''
  · subst hquote
    refine ⟨rfl, ?_⟩
    rw [scan_quote] at h ⊢
    cases mustBeTick with
    | true => rw [quote_true]
    | false =>
      obtain htick | ⟨c, rest, -, hliteral⟩ := quote_false cs
      · rw [htick]
      · rw [hliteral] at h
        cases h
  · have hkind := (scan_not_quote mustBeTick cs hquote).1
    rw [h] at hkind
    cases hkind

theorem scan_eq_characterLiteral {mustBeTick : Bool} {first : Char} {cs : List Char}
    (h : (scan mustBeTick first cs).1 = .characterLiteral) :
    mustBeTick = false ∧ first = '\'' := by
  constructor
  · cases mustBeTick with
    | false => rfl
    | true =>
      rw [scan_behind_name] at h
      split at h
      · cases h
      · contradiction
  · refine Decidable.byContradiction fun hquote => ?_
    have hkind := (scan_not_quote mustBeTick cs hquote).1
    rw [h] at hkind
    cases hkind

theorem scan_ne_endOfFile (mustBeTick : Bool) (first : Char) (cs : List Char) :
    (scan mustBeTick first cs).1 ≠ .endOfFile := by
  have hquote : (quote mustBeTick cs).1 ≠ .endOfFile := by
    unfold quote
    repeat' split
    all_goals simp
  have hword : (word first cs).1 ≠ .endOfFile := by
    intro hend
    have hkind : wordKind (String.ofList (first :: cs.takeWhile isWordPart)) = .endOfFile := hend
    unfold wordKind at hkind
    split at hkind
    case h_1 kind hreserved =>
      subst hkind
      cases ReservedWord.isReserved_of_kind? hreserved
    case h_2 => split at hkind <;> cases hkind
  unfold scan
  split
  · simp
  split
  · exact (number_plain cs).ne_endOfFile
  split
  · exact (string_plain cs).ne_endOfFile
  split
  · exact hquote
  split
  · exact hword
  · exact (punctuation_plain first cs).ne_endOfFile

theorem le_of_isLetter {c : Char} (h : Unicode.isLetter c) : 'A'.toNat ≤ c.toNat := by
  have hfirst (code first last : Nat) (ranges : List (Nat × Nat)) :
      Unicode.inRanges code ((first, last) :: ranges) → first ≤ code := by
    intro hcode
    rw [Unicode.inRanges, Bool.and_eq_true, decide_eq_true_eq] at hcode
    exact hcode.1
  exact hfirst _ _ _ _ h

theorem scan_letter (mustBeTick : Bool) {first : Char} (cs : List Char) (h : Unicode.isLetter first) :
    scan mustBeTick first cs = word first cs := by
  have hne (c : Char) (hc : c.toNat < 'A'.toNat) : first ≠ c := by
    rintro rfl
    exact Nat.not_le.mpr hc (le_of_isLetter h)
  have hblank : isBlank first = false := by simp [isBlank, hne]
  have hdigit : first.isDigit = false := by
    refine Bool.eq_false_iff.mpr fun hdigit => ?_
    simp only [Char.isDigit, Bool.and_eq_true, decide_eq_true_eq] at hdigit
    exact Nat.not_le.mpr (Nat.lt_of_le_of_lt (UInt32.le_iff_toNat_le.mp hdigit.2) (by decide)) (le_of_isLetter h)
  rw [scan, hblank, hdigit, if_neg Bool.false_ne_true, if_neg Bool.false_ne_true, if_neg (hne _ (by decide)),
    if_neg (hne _ (by decide)), if_pos h]

theorem take_word (first : Char) (cs : List Char) : cs.take (word first cs).2 = cs.takeWhile isWordPart :=
  (List.prefix_iff_eq_take.mp (List.takeWhile_prefix _)).symm

theorem isLetter_of_isWord {mustBeTick : Bool} {first : Char} {cs : List Char}
    (h : (scan mustBeTick first cs).1.isWord = true) : Unicode.isLetter first := by
  unfold scan at h
  split at h
  · cases h
  split at h
  · rw [(number_plain cs).isWord] at h
    cases h
  split at h
  · rw [(string_plain cs).isWord] at h
    cases h
  split at h
  · cases mustBeTick with
    | true =>
      rw [quote_true] at h
      cases h
    | false => rcases quote_false cs with hquote | ⟨-, -, -, hquote⟩ <;> rw [hquote] at h <;> cases h
  split at h
  · assumption
  · rw [(punctuation_plain first cs).isWord] at h
    cases h

theorem wordKind_range {text : String} (h : (Name.ofText text).text = "RANGE") : wordKind text = .kwRange := by
  have hupper : text.toList.flatMap Unicode.upperCase = "RANGE".toList := by
    unfold Name.ofText at h
    split at h
    · simpa [Name.upperCase] using congrArg String.toList h
    · subst h
      decide +kernel
  have hascii : ∀ c ∈ text.toList, c.toNat < 0x80 := by
    intro c hc
    refine Decidable.byContradiction fun hlarge => ?_
    obtain ⟨letter, hletter, hother⟩ := Unicode.exists_of_upperCase (Nat.le_of_not_lt hlarge)
    exact hother (hupper ▸ List.mem_flatMap.mpr ⟨c, hc, hletter⟩)
  have hletters : text.toList.map Char.toUpper = "RANGE".toList := by
    have hsingle : text.toList.map Unicode.upperCase = text.toList.map fun c => [c.toUpper] :=
      List.map_congr_left fun c hc => if_pos (hascii c hc)
    rw [← hupper, List.flatMap_def, hsingle, List.map_eq_flatMap, List.flatMap_def]
  have hlower : text.map Char.toLower = "range" := by
    have hall : (text.toList.map Char.toUpper).map Char.toLower = text.toList.map Char.toLower := by
      rw [List.map_map]
      exact List.map_congr_left fun c hc => Unicode.toLower_toUpper (hascii c hc)
    rw [hletters] at hall
    exact String.toList_inj.mp (String.toList_map.trans (hall.symm.trans (by decide +kernel)))
  have hreserved : ReservedWord.kind? text = some .kwRange := by
    rw [ReservedWord.kind?_eq_some_iff, hlower, ← Array.mem_toList_iff]
    decide +kernel
  rw [wordKind, hreserved]

end Lexeme

namespace Token

theorem exists_lexeme (previous : Option TokenKind) (offset : Nat) (cs : List Char) :
    ∀ token ∈ scan previous offset cs, ∃ mustBeTick first rest,
      token.kind = (Lexeme.scan mustBeTick first rest).1 ∧
        token.text = String.ofList (first :: rest.take (Lexeme.scan mustBeTick first rest).2) := by
  induction previous, offset, cs using scan.induct with
  | case1 => simp [scan]
  | case2 previous offset c cs lexeme token ih =>
    rw [scan]
    intro other hother
    rcases List.mem_cons.mp hother with rfl | hother
    · exact ⟨endsName previous, c, cs, rfl, rfl⟩
    · exact ih other hother

end Token

end AdaSyntax
