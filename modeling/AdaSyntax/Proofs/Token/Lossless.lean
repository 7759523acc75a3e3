import AdaSyntax.Proofs.Token.Restart

/-!
Lexing loses nothing. The tokens of a source text lie end to end over the whole of it, each with the text
at its place; leaving trivia and invalid text out keeps the order of the others, and every piece of
invalid text leaves a diagnostic at its place.
-/

namespace AdaSyntax

namespace Token

/-- The tokens lie end to end from one offset to another. -/
def Tiles (start stop : Nat) : List Token → Prop
  | [] => start = stop
  | token :: tokens => token.range.start = start ∧ Tiles token.range.stop stop tokens

/-- The token holds a piece of the source, not an empty one, and has the place of this piece. -/
def CutFrom (source : String) (token : Token) : Prop :=
  token.text ≠ "" ∧ ∃ before after, source = before ++ token.text ++ after ∧
    token.range = .ofLength before.utf8ByteSize token.text.utf8ByteSize

def lastKind (previous : Option TokenKind) (tokens : List Token) : Option TokenKind :=
  ((tokens.filter (!·.kind.isTrivia)).getLast?.map (·.kind)).or previous

theorem lastKind_cons (previous : Option TokenKind) (token : Token) (tokens : List Token) :
    lastKind previous (token :: tokens) =
      lastKind (if token.kind.isTrivia then previous else some token.kind) tokens := by
  unfold lastKind
  cases htrivia : token.kind.isTrivia with
  | true => simp [htrivia]
  | false =>
    rw [List.filter_cons_of_pos (by simp [htrivia]), List.getLast?_cons]
    cases (tokens.filter (!·.kind.isTrivia)).getLast? <;> simp

namespace Lexes

variable {previous : Option TokenKind} {offset : Nat} {text : List Char} {tokens : List Token}

theorem tiles (h : Lexes previous offset text tokens) : Tiles offset (offset + byteSize text) tokens := by
  induction h with
  | nil => rfl
  | cons _ _ _ _ ih =>
    rw [byteSize_append, ← Nat.add_assoc]
    exact ⟨rfl, ih⟩

theorem cutFrom (h : Lexes previous offset text tokens) (before : String) (hbefore : before.utf8ByteSize = offset) :
    ∀ token ∈ tokens, CutFrom (before ++ String.ofList text) token := by
  induction h generalizing before with
  | nil => simp
  | @cons previous offset kind text rest tokens hnonempty _ _ _ ih =>
    intro token htoken
    have hsource : before ++ String.ofList (text ++ rest) = before ++ String.ofList text ++ String.ofList rest := by
      rw [String.ofList_append, String.append_assoc]
    rcases List.mem_cons.mp htoken with rfl | htoken
    · refine ⟨?_, before, _, hsource, by rw [hbefore]; rfl⟩
      exact fun hempty => hnonempty (String.ofList_eq_empty_iff.mp hempty)
    · rw [hsource]
      exact ih (before ++ String.ofList text) (by rw [String.utf8ByteSize_append, hbefore]; rfl) token htoken

theorem texts (h : Lexes previous offset text tokens) : String.join (tokens.map (·.text)) = String.ofList text := by
  induction h with
  | nil => rfl
  | cons _ _ _ _ ih =>
    rw [List.map_cons, String.join_cons, ih, String.ofList_append]
    rfl

theorem characterLiteral {before after : List Token} {token : Token}
    (h : Lexes previous offset text (before ++ token :: after)) (hkind : token.kind = .characterLiteral) :
    endsName (lastKind previous before) = false := by
  induction before generalizing previous offset text with
  | nil =>
    cases h with
    | cons _ hcharacter _ _ => exact hcharacter hkind
  | cons first before ih =>
    cases h with
    | cons _ _ _ hothers =>
      rw [lastKind_cons]
      exact ih hothers

theorem tick (h : Lexes previous offset text tokens) : ∀ token ∈ tokens, token.kind = .tick → token.text = "'" := by
  induction h with
  | nil => simp
  | cons _ _ htick _ ih =>
    refine List.forall_mem_cons.mpr ⟨fun hkind => ?_, ih⟩
    exact congrArg String.ofList (htick hkind)

end Lexes

/-- A stream taken apart, in order: invalid text leaves a diagnostic at its place, and the other tokens
stay as they are. -/
inductive Splits : List Token → List Token → List Diagnostic → Prop
  | nil : Splits [] [] []
  | keep {token : Token} {tokens kept : List Token} {reported : List Diagnostic}
      (hkind : token.kind ≠ .error) (rest : Splits tokens kept reported) :
      Splits (token :: tokens) (token :: kept) reported
  | report {token : Token} {tokens kept : List Token} {reported : List Diagnostic}
      {diagnostic : Diagnostic} (hkind : token.kind = .error)
      (hrange : diagnostic.range = token.range)
      (hcode : diagnostic.code.text ∈ ["E0101", "E0102", "E0103", "E0104"])
      (rest : Splits tokens kept reported) :
      Splits (token :: tokens) kept (diagnostic :: reported)

theorem defectCode_lexical (text : String) :
    (defectCode text).text ∈ ["E0101", "E0102", "E0103", "E0104"] := by
  unfold defectCode
  repeat' split
  all_goals decide

theorem splits_wellFormed (tokens : List Token) :
    Splits tokens (wellFormed tokens) (defects tokens) := by
  induction tokens with
  | nil => exact .nil
  | cons token tokens ih =>
    by_cases hkind : token.kind = .error
    · have hkept : wellFormed (token :: tokens) = wellFormed tokens := by simp [wellFormed, hkind]
      have hreported : defects (token :: tokens) = defect token :: defects tokens := by
        simp [defects, hkind]
      rw [hkept, hreported]
      exact .report hkind rfl (defectCode_lexical token.text) ih
    · have hkept : wellFormed (token :: tokens) = token :: wellFormed tokens := by
        simp [wellFormed, hkind]
      have hreported : defects (token :: tokens) = defects tokens := by simp [defects, hkind]
      rw [hkept, hreported]
      exact .keep hkind ih

/-- What the tokens keep of their source. They lie end to end over the whole of it and each holds the text at its
place, so that the source is their texts put together. No character literal stands behind a name, and a tick is a single
quote. The stream for a grammar has the same tokens without trivia, closed by an empty end marker, and is split in order
into what is read and what is reported. -/
structure Lossless (source : String) (tokens stream : List Token) : Prop where
  tiles : Tiles 0 source.utf8ByteSize tokens
  cut : ∀ token ∈ tokens, CutFrom source token
  texts : String.join (tokens.map (·.text)) = source
  characters : ∀ before token after, tokens = before ++ token :: after → token.kind = .characterLiteral →
    ∀ last ∈ (before.filter (!·.kind.isTrivia)).getLast?,
      last.kind ∉ [.identifier, .rightParen, .kwAll, .stringLiteral]
  ticks : ∀ token ∈ tokens, token.kind = .tick → token.text = "'"
  stream_eq : stream =
    tokens.filter (fun token => token.kind ≠ .whitespace ∧ token.kind ≠ .comment) ++
      [⟨.endOfFile, "", .empty source.utf8ByteSize⟩]
  splits : Splits stream (wellFormed stream) (defects stream)

theorem Lexes.lossless {source : String} {tokens : List Token} (h : Lexes none 0 source.toList tokens) :
    Lossless source tokens (tokens.filter (!·.kind.isTrivia) ++ [endOfFile source.utf8ByteSize]) := by
  refine ⟨?_, ?_, h.texts.trans String.ofList_toList, ?_, h.tick, ?_, splits_wellFormed _⟩
  · have htiles := h.tiles
    rwa [byteSize, String.ofList_toList, Nat.zero_add] at htiles
  · have hcut := h.cutFrom "" rfl
    rwa [String.ofList_toList, String.empty_append] at hcut
  · rintro before token after rfl hkind last hlast
    have hbehind := h.characterLiteral hkind
    rw [lastKind, Option.mem_def.mp hlast] at hbehind
    change endsName (some last.kind) = false at hbehind
    generalize last.kind = kind at hbehind ⊢
    cases kind <;> first | decide | cases hbehind
  · have htrivia (kind : TokenKind) :
        (!kind.isTrivia) = decide (kind ≠ .whitespace ∧ kind ≠ .comment) := by
      cases kind <;> rfl
    simp only [htrivia]
    rfl

theorem closed_of_lt {source : String} (h : source.utf8ByteSize < UInt32.size) (tokens : List Token) :
    Lexer.closed source tokens =
      .ok (tokens.filter (!·.kind.isTrivia) ++ [endOfFile source.utf8ByteSize]) := by
  have hsize : byteSize source.toList = source.utf8ByteSize := by rw [byteSize, String.ofList_toList]
  have hoffset : (UInt32.ofNat source.utf8ByteSize).toNat = source.utf8ByteSize := by
    rw [UInt32.toNat_ofNat', Nat.mod_eq_of_lt h]
  have hlast : Lexer.token .endOfFile [] (UInt32.ofNat source.utf8ByteSize) = .ok (endOfFile source.utf8ByteSize) := by
    rw [Lexer.token_of_lt (by rw [hoffset]; exact h), hoffset]
    rfl
  rw [Lexer.closed, Lexer.measure, hsize, if_pos h]
  simp only [bind, Except.bind, hlast]
  rfl

/-- Around any scanner whose spans cover its input, the lexer takes a source apart without a loss, and in one way only;
it refuses just the sources with more bytes than offsets can count. -/
theorem lexing_lossless {scanner : Scanner} (h : scanner.Lawful) (source : String) :
    (source.utf8ByteSize < UInt32.size → ∃ tokens stream,
      (∀ outcome, (Lexer.new scanner source).Yields outcome ↔ outcome = .ok tokens) ∧
        Lexer.closed source tokens = .ok stream ∧ Lossless source tokens stream) ∧
      (UInt32.size ≤ source.utf8ByteSize →
        ∀ outcome, (Lexer.new scanner source).Yields outcome ↔ outcome = .error .tooLarge) := by
  have hready := Lexer.new_ready h source
  have hsize : byteSize [] + byteSize source.toList = source.utf8ByteSize := by
    rw [byteSize, byteSize, String.ofList_toList]
    exact Nat.zero_add _
  constructor
  · intro hfits
    obtain ⟨tokens, hyields, hlexes⟩ := hready.yields (hsize ▸ hfits)
    refine ⟨tokens, _, fun outcome => ⟨hyields.unique, ?_⟩, closed_of_lt hfits tokens, hlexes.lossless⟩
    rintro rfl
    exact hyields
  · intro hlarge outcome
    have hyields := hready.yields_tooLarge (hsize ▸ hlarge)
    refine ⟨hyields.unique, ?_⟩
    rintro rfl
    exact hyields

/-- Quotes behind a name, in a character literal of two bytes and in a comment, and text that is no token. -/
theorem lexing_lossless_quotes :
    Lexeme.scanner.Lawful ∧ ∃ tokens stream,
      (Lexer.new Lexeme.scanner "T'('é') --'\n'?").Yields (.ok tokens) ∧
        Lossless "T'('é') --'\n'?" tokens stream ∧
        tokens.map (·.text) = ["T", "'", "(", "'é'", ")", " ", "--'", "\n", "'", "?"] := by
  have hfits : "T'('é') --'\n'?".utf8ByteSize < UInt32.size := by decide
  obtain ⟨tokens, stream, hyields, -, hlossless⟩ := (lexing_lossless Lexeme.scanner_lawful "T'('é') --'\n'?").1 hfits
  have hsame : tokens = ofSource "T'('é') --'\n'?" :=
    (Except.ok.inj ((hyields _).mp (Lexer.yields_ofSource hfits))).symm
  refine ⟨Lexeme.scanner_lawful, tokens, stream, (hyields _).mpr rfl, hlossless, ?_⟩
  rw [hsame]
  decide +kernel

end Token

end AdaSyntax
