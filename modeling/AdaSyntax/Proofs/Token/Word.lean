import AdaSyntax.Proofs.Token.Lexeme
import Mathlib.Data.List.Forall2

/-!
Words of a source. A text in the shape of an identifier is one token wherever no word part stands behind it, and its
kind is that of the reserved word it is in some letter case; it is an identifier only if it is none, and invalid if it
is no identifier either. No other token is a word.
-/

namespace AdaSyntax

namespace ReservedWord

def Spells (word text : String) : Prop :=
  List.Forall₂ (fun small letter => letter = small ∨ letter = small.toUpper) word.toList text.toList

theorem toLower_eq_iff {small letter : Char} (h : small.isLower) :
    letter.toLower = small ↔ letter = small ∨ letter = small.toUpper := by
  constructor
  · rintro rfl
    rcases Nat.lt_or_ge letter.toNat 0x80 with hascii | hlarge
    · have hall : ∀ code < 0x80, (Char.ofNat code).toLower.isLower →
          Char.ofNat code = (Char.ofNat code).toLower ∨ Char.ofNat code = (Char.ofNat code).toLower.toUpper := by
        decide +kernel
      have hletter := hall letter.toNat hascii
      rw [Char.ofNat_toNat] at hletter
      exact hletter h
    · exact .inl (toLower_eq_self hlarge).symm
  · have hascii : small.toNat < 0x80 := by
      have hle := of_decide_eq_true (Bool.and_eq_true_iff.mp h).2
      exact Nat.lt_of_le_of_lt (UInt32.le_iff_toNat_le.mp hle) (by decide)
    have hall : ∀ code < 0x80, (Char.ofNat code).isLower →
        (Char.ofNat code).toLower = Char.ofNat code ∧ (Char.ofNat code).toUpper.toLower = Char.ofNat code := by
      decide +kernel
    have hsmall := hall small.toNat hascii
    rw [Char.ofNat_toNat] at hsmall
    rintro (rfl | rfl)
    · exact (hsmall h).1
    · exact (hsmall h).2

theorem spells_iff {word text : String} (h : ∀ small ∈ word.toList, small.isLower) :
    Spells word text ↔ text.map Char.toLower = word := by
  rw [← String.toList_inj, String.toList_map, Spells]
  generalize text.toList = letters
  generalize word.toList = smalls at h
  induction smalls generalizing letters with
  | nil => cases letters <;> simp
  | cons small smalls ih =>
    obtain ⟨hsmall, hsmalls⟩ := List.forall_mem_cons.mp h
    cases letters with
    | nil => simp
    | cons letter letters =>
      rw [List.forall₂_cons, List.map_cons, List.cons.injEq, toLower_eq_iff hsmall, ih _ hsmalls]

/-- The text is a reserved word of this kind, in some letter case. -/
def Names (kind : TokenKind) (text : String) : Prop := ∃ word, (word, kind) ∈ table ∧ Spells word text

theorem names_iff {kind : TokenKind} {text : String} : Names kind text ↔ kind? text = some kind := by
  rw [kind?_eq_some_iff]
  constructor
  · rintro ⟨word, hword, hspells⟩
    rwa [(spells_iff (table_small _ hword)).mp hspells]
  · exact fun h => ⟨_, h, (spells_iff (table_small _ h)).mpr rfl⟩

end ReservedWord

namespace Lexeme

open ReservedWord

/-- A letter, and behind it letters, digits and underscores. -/
def WordShaped (text : String) : Prop :=
  ∃ first part, text.toList = first :: part ∧ Unicode.isLetter first ∧ ∀ c ∈ part, isWordPart c

/-- The kind of a text in the shape of an identifier: that of a reserved word if it is one in some letter case, and else
that of an identifier or of invalid text. -/
structure Classifies (text : String) (kind : TokenKind) : Prop where
  reserved : kind.isReserved ↔ ∃ named, Names named text
  unique : ∀ named, Names named text → kind = named
  otherwise : (∀ named, ¬Names named text) → kind = if isIdentifier text then .identifier else .error

theorem wordKind_classifies (text : String) : Classifies text (wordKind text) := by
  unfold wordKind
  cases hkind : kind? text with
  | some kind =>
    have hnames : Names kind text := names_iff.mpr hkind
    refine ⟨iff_of_true (isReserved_of_kind? hkind) ⟨kind, hnames⟩, fun named hnamed => ?_, fun hnone => ?_⟩
    · exact Option.some.inj (hkind.symm.trans (names_iff.mp hnamed))
    · exact absurd hnames (hnone kind)
  | none =>
    have hnone (named : TokenKind) : ¬Names named text := by
      rw [names_iff, hkind]
      exact nofun
    refine ⟨iff_of_false ?_ fun ⟨named, hnamed⟩ => hnone named hnamed,
      fun named hnamed => absurd hnamed (hnone named), ?_⟩
    · dsimp only
      split <;> decide
    · exact fun _ => rfl

theorem word_append (first : Char) {part rest : List Char} (hpart : ∀ c ∈ part, isWordPart c)
    (hrest : ∀ c ∈ rest.head?, isWordPart c = false) :
    word first (part ++ rest) = (wordKind (String.ofList (first :: part)), part.length) := by
  have hrun : (part ++ rest).takeWhile isWordPart = part := by
    rw [List.takeWhile_append_of_pos hpart]
    cases rest with
    | nil => simp
    | cons c rest => rw [List.takeWhile_cons_of_neg (Bool.eq_false_iff.mp (hrest c rfl)), List.append_nil]
  simp only [word, hrun]

end Lexeme

namespace Token

open Lexeme

theorem scan_append {text : String} (h : WordShaped text) (previous : Option TokenKind) (offset : Nat)
    {rest : List Char} (hrest : ∀ c ∈ rest.head?, isWordPart c = false) :
    scan previous offset (text.toList ++ rest) =
      ofText (wordKind text) text offset :: scan (some (wordKind text)) (offset + text.utf8ByteSize) rest := by
  obtain ⟨first, part, htext, hfirst, hpart⟩ := h
  obtain rfl : text = String.ofList (first :: part) := by rw [← htext, String.ofList_toList]
  rw [htext, List.cons_append, scan, scan_letter _ _ hfirst, word_append first hpart hrest,
    (wordKind_plain _).2]
  simp [ofText, Range.ofLength]

theorem kind_of_wordShaped {previous : Option TokenKind} {offset : Nat} {cs : List Char} {token : Token}
    (h : token ∈ scan previous offset cs) (hshaped : WordShaped token.text) : token.kind = wordKind token.text := by
  obtain ⟨mustBeTick, first, rest, hkind, htext⟩ := exists_lexeme previous offset cs token h
  obtain ⟨letter, part, hletters, hletter, -⟩ := hshaped
  obtain ⟨rfl, -⟩ : first = letter ∧ rest.take _ = part := by
    rwa [htext, String.toList_ofList, List.cons.injEq] at hletters
  rw [scan_letter mustBeTick rest hletter] at hkind htext
  rw [htext, take_word]
  exact hkind

theorem wordShaped_of_isWord {previous : Option TokenKind} {offset : Nat} {cs : List Char} {token : Token}
    (h : token ∈ scan previous offset cs) (hword : token.kind.isWord) : WordShaped token.text := by
  obtain ⟨mustBeTick, first, rest, hkind, htext⟩ := exists_lexeme previous offset cs token h
  have hletter : Unicode.isLetter first := isLetter_of_isWord (hkind ▸ hword)
  rw [scan_letter mustBeTick rest hletter, take_word] at htext
  exact ⟨first, _, by rw [htext, String.toList_ofList], hletter, fun _ => List.all_eq_true.mp List.all_takeWhile _⟩

end Token

namespace ReservedWord

open Lexeme

/-- Looking a text up never leaves the buffer, and finds just the kind of the reserved word that the text is with its
capital letters made small. So a text in the shape of an identifier, as long as no word part stands behind it, is one
token, which is a reserved word just in case the text is one in some letter case; in every source all tokens with such a
text are classified so, and no other token is a reserved word or an identifier. -/
theorem lookup_exact (text : String) :
    lookup text = .ok (kind? text) ∧
      (∀ kind, kind? text = some kind ↔ ∃ word, (word, kind) ∈ table ∧ text.map Char.toLower = word) ∧
      (WordShaped text → ∃ kind, Classifies text kind ∧ ∀ previous offset rest,
        (∀ c ∈ rest.head?, isWordPart c = false) → Token.scan previous offset (text.toList ++ rest) =
          .ofText kind text offset :: Token.scan (some kind) (offset + text.utf8ByteSize) rest) ∧
      ∀ source, ∀ token ∈ Token.ofSource source, token.text = text →
        (WordShaped text → Classifies text token.kind) ∧
          (token.kind.isReserved ∨ token.kind = .identifier → WordShaped text) := by
  refine ⟨lookup_eq text, fun kind => ?_, fun hshaped => ?_, fun source token htoken htext => ⟨fun hshaped => ?_, ?_⟩⟩
  · rw [kind?_eq_some_iff]
    exact ⟨fun h => ⟨_, h, rfl⟩, fun ⟨_, hword, hlower⟩ => hlower ▸ hword⟩
  · exact ⟨wordKind text, wordKind_classifies text, fun previous offset _ => Token.scan_append hshaped previous offset⟩
  · subst htext
    rw [Token.kind_of_wordShaped htoken hshaped]
    exact wordKind_classifies token.text
  · subst htext
    intro hkind
    refine Token.wordShaped_of_isWord htoken ?_
    rcases hkind with hreserved | hidentifier
    · rw [TokenKind.isWord, hreserved, Bool.or_true]
    · rw [hidentifier]
      rfl

/-- A reserved word in mixed letters, in front of a parenthesis and behind another word. -/
theorem lookup_exact_mixedCase :
    WordShaped "WhiLE" ∧ lookup "WhiLE" = .ok (some .kwWhile) ∧
      (∃ kind, Classifies "WhiLE" kind ∧ Token.scan none 0 ("WhiLE".toList ++ ['(']) =
        .ofText kind "WhiLE" 0 :: Token.scan (some kind) (0 + "WhiLE".utf8ByteSize) ['(']) ∧
      (.ofText .kwWhile "WhiLE" 3 : Token) ∈ Token.ofSource "is WhiLE(" ∧ Classifies "WhiLE" .kwWhile := by
  have hshaped : WordShaped "WhiLE" :=
    ⟨'W', ['h', 'i', 'L', 'E'], rfl, by decide +kernel, List.all_eq_true.mp (by decide +kernel)⟩
  have htoken : (.ofText .kwWhile "WhiLE" 3 : Token) ∈ Token.ofSource "is WhiLE(" := by decide +kernel
  have hword : ("while", TokenKind.kwWhile) ∈ table := by
    rw [← Array.mem_toList_iff]
    decide +kernel
  have hend : ∀ c ∈ ['('].head?, isWordPart c = false := by
    rintro c ⟨⟩
    decide +kernel
  obtain ⟨hlookup, hkind, hscan, hsources⟩ := lookup_exact "WhiLE"
  rw [(hkind .kwWhile).mpr ⟨"while", hword, by decide +kernel⟩] at hlookup
  obtain ⟨kind, hclass, htokens⟩ := hscan hshaped
  exact ⟨hshaped, hlookup, ⟨kind, hclass, htokens none 0 _ hend⟩, htoken, (hsources _ _ htoken rfl).1 hshaped⟩

end ReservedWord

end AdaSyntax
