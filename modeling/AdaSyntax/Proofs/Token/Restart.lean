import AdaSyntax.Proofs.Token.Lexeme
import AdaSyntax.Proofs.Token.Order
import AdaSyntax.Token.Scanner

/-!
What a lexer yields around any scanner whose spans cover its input. No span is lost and none is counted from a wrong
base, however often the scanner is started anew.
-/

namespace AdaSyntax

theorem byteSize_append (first rest : List Char) : byteSize (first ++ rest) = byteSize first + byteSize rest := by
  rw [byteSize, String.ofList_append, String.utf8ByteSize_append]
  rfl

theorem byteSize_cons (c : Char) (cs : List Char) : byteSize (c :: cs) = c.utf8Size + byteSize cs := by
  simp [byteSize]

theorem Scanner.Covers.eq_nil {offset : Nat} {text : List Char} {spans : List Span}
    (h : Scanner.Covers offset text spans) (hempty : text = []) : spans = [] := by
  cases h with
  | nil => rfl
  | cons nonempty => exact absurd (List.append_eq_nil_iff.mp hempty).1 nonempty

/-- Tokens end to end over a text, which starts at byte `offset` behind a token of kind `previous`. -/
inductive Token.Lexes : Option TokenKind → Nat → List Char → List Token → Prop
  | nil {previous : Option TokenKind} {offset : Nat} : Lexes previous offset [] []
  | cons {previous : Option TokenKind} {offset : Nat} {kind : TokenKind} {text rest : List Char} {tokens : List Token}
      (nonempty : text ≠ []) (character : kind = .characterLiteral → endsName previous = false)
      (tick : kind = .tick → text = ['\''])
      (others : Lexes (if kind.isTrivia then previous else some kind) (offset + byteSize text) rest tokens) :
      Lexes previous offset (text ++ rest) (ofText kind (String.ofList text) offset :: tokens)

namespace Lexer

theorem splitBytes_append (first rest : List Char) : splitBytes (byteSize first) (first ++ rest) = .ok (first, rest) := by
  induction first with
  | nil => cases rest <;> rfl
  | cons c cs ih =>
    have hpos := c.utf8Size_pos
    rw [List.cons_append, splitBytes, byteSize_cons, if_neg (by omega), if_neg (by omega), Nat.add_sub_cancel_left, ih]
    rfl

theorem slice_append (before text rest : List Char) :
    slice (before ++ (text ++ rest)) (byteSize before) (byteSize before + byteSize text) = .ok text := by
  have hrest : splitBytes (byteSize before + byteSize text - byteSize before) (text ++ rest) = .ok (text, rest) := by
    rw [Nat.add_sub_cancel_left, splitBytes_append]
  rw [slice, if_neg (by omega), splitBytes_append]
  simp only [bind, Except.bind, hrest, pure, Except.pure]

theorem toNat_add_ofNat (offset : UInt32) (count : Nat) :
    (offset + UInt32.ofNat count).toNat = (offset.toNat + count) % UInt32.size := by
  rw [UInt32.toNat_add, UInt32.toNat_ofNat', Nat.add_mod_mod]

variable {kind : TokenKind} {text : List Char} {offset : UInt32}

theorem token_of_lt (h : offset.toNat + byteSize text < UInt32.size) :
    token kind text offset = .ok (.ofText kind (String.ofList text) offset.toNat) := by
  have hstop : (offset + UInt32.ofNat (byteSize text)).toNat = offset.toNat + byteSize text := by
    rw [toNat_add_ofNat, Nat.mod_eq_of_lt h]
  have hle : offset ≤ offset + UInt32.ofNat (byteSize text) := UInt32.le_iff_toNat_le.mpr (by omega)
  rw [token, measure, if_pos (by omega)]
  simp only [bind, Except.bind, dif_pos hle, hstop]
  rfl

theorem token_of_le (h : UInt32.size ≤ offset.toNat + byteSize text) : token kind text offset = .error .tooLarge := by
  rw [token, measure]
  split
  case isFalse => rfl
  case isTrue hsmall =>
    have hoffset := offset.toNat_lt
    have hstop : (offset + UInt32.ofNat (byteSize text)).toNat < offset.toNat := by
      rw [toNat_add_ofNat]
      simp only [UInt32.size] at h hsmall ⊢
      omega
    have hlt : ¬ offset ≤ offset + UInt32.ofNat (byteSize text) := fun hle =>
      Nat.not_le.mpr hstop (UInt32.le_iff_toNat_le.mp hle)
    simp only [bind, Except.bind, dif_neg hlt]

structure Between (lexer : Lexer) (before rest : List Char) (read : Nat) : Prop where
  source_eq : lexer.source = before ++ rest
  base_add : lexer.base.toNat + read = byteSize before
  fits : byteSize before < UInt32.size

namespace Between

variable {lexer : Lexer} {before text rest : List Char} {span : Span} {spans : List Span}

theorem start_eq {read : Nat} (h : lexer.Between before rest read) :
    (lexer.base + UInt32.ofNat read).toNat = byteSize before := by
  rw [toNat_add_ofNat, h.base_add, Nat.mod_eq_of_lt h.fits]

theorem slice_eq (h : lexer.Between before (text ++ rest) span.start)
    (hsize : span.stop = span.start + byteSize text) :
    slice lexer.source (lexer.base + UInt32.ofNat span.start).toNat (lexer.base.toNat + span.stop) = .ok text := by
  rw [h.start_eq, hsize, ← Nat.add_assoc, h.base_add, h.source_eq, slice_append]

theorem restart_eq {inner : List Char} {read : Nat} (h : lexer.Between before ('\'' :: inner) read) :
    ∃ behind, lexer.restart (lexer.base + UInt32.ofNat read + 1) = .ok behind ∧
      behind.scanner = lexer.scanner ∧ behind.previous = lexer.previous ∧
      (byteSize before + 1 < UInt32.size →
        behind.Between (before ++ ['\'']) inner 0 ∧ behind.spans = lexer.scanner inner) := by
  have hsource : lexer.source = before ++ ['\''] ++ inner := by rw [h.source_eq, List.append_assoc, List.singleton_append]
  have hquote : byteSize (before ++ ['\'']) = byteSize before + 1 := byteSize_append before ['\'']
  have hbase : (lexer.base + UInt32.ofNat read + 1).toNat = (byteSize before + 1) % UInt32.size := by
    rw [← h.start_eq]
    exact toNat_add_ofNat _ 1
  by_cases hfits : byteSize before + 1 < UInt32.size
  · rw [Nat.mod_eq_of_lt hfits, ← hquote] at hbase
    refine ⟨{ lexer with base := lexer.base + UInt32.ofNat read + 1, spans := lexer.scanner inner }, ?_, rfl, rfl,
      fun _ => ⟨⟨hsource, hbase, hquote ▸ hfits⟩, rfl⟩⟩
    rw [restart, hbase, hsource, splitBytes_append]
    rfl
  · have hzero : (byteSize before + 1) % UInt32.size = byteSize [] := by
      have hlast : byteSize before + 1 = UInt32.size := Nat.le_antisymm h.fits (Nat.le_of_not_lt hfits)
      rw [hlast, Nat.mod_self]
      rfl
    refine ⟨{ lexer with base := lexer.base + UInt32.ofNat read + 1, spans := lexer.scanner lexer.source }, ?_, rfl, rfl,
      fun hlt => absurd hlt hfits⟩
    have hsplit := splitBytes_append [] lexer.source
    rw [List.nil_append] at hsplit
    rw [restart, hbase, hzero, hsplit]
    rfl

theorem next_restarting {inner : List Char} (h : lexer.Between before ('\'' :: inner ++ rest) span.start)
    (hspans : lexer.spans = span :: spans) (hsize : span.stop = span.start + byteSize ('\'' :: inner))
    (hclass : span.class? = some .character) (hname : Token.endsName lexer.previous = true) :
    ∃ behind : Lexer, lexer.next = (token .tick ['\''] (lexer.base + UInt32.ofNat span.start)).map (fun token => some (token, behind)) ∧
      behind.scanner = lexer.scanner ∧ behind.previous = some .tick ∧
      (byteSize before + 1 < UInt32.size →
        behind.Between (before ++ ['\'']) (inner ++ rest) 0 ∧ behind.spans = lexer.scanner (inner ++ rest)) := by
  obtain ⟨behind, hrestart, hscanner, -, hbehind⟩ := h.restart_eq
  refine ⟨{ behind with previous := some .tick }, ?_, hscanner, rfl, fun hfits => ?_⟩
  · have hquote : slice ('\'' :: inner) 0 1 = .ok ['\''] := slice_append [] ['\''] inner
    rw [next, hspans]
    simp only [h.slice_eq hsize, bind, Except.bind, hclass, hname, true_and, if_true, hrestart, hquote]
    cases token .tick ['\''] (lexer.base + UInt32.ofNat span.start) <;> rfl
  · obtain ⟨hbetween, hspans⟩ := hbehind hfits
    exact ⟨⟨hbetween.source_eq, hbetween.base_add, hbetween.fits⟩, hspans⟩

theorem next_scanned (h : lexer.Between before (text ++ rest) span.start) (hspans : lexer.spans = span :: spans)
    (hsize : span.stop = span.start + byteSize text)
    (hscanned : ¬(span.class? = some .character ∧ Token.endsName lexer.previous = true))
    (htick : kindOf span.class? text = .tick → text = ['\'']) :
    let kind := kindOf span.class? text
    ∃ behind : Lexer, lexer.next = (token kind text (lexer.base + UInt32.ofNat span.start)).map (fun token => some (token, behind)) ∧
      behind.scanner = lexer.scanner ∧
      behind.previous = (if kind.isTrivia then lexer.previous else some kind) ∧ behind.spans = spans ∧
      (byteSize before + byteSize text < UInt32.size → behind.Between (before ++ text) rest span.stop) := by
  intro kind
  have htext : (if kind = .tick then slice text 0 1 else .ok text) = .ok text := by
    split
    case isTrue hkind =>
      rw [htick hkind]
      rfl
    case isFalse => rfl
  refine ⟨{ lexer with spans, previous := if kind.isTrivia then lexer.previous else some kind }, ?_, rfl, rfl, rfl,
    fun hfits => ⟨?_, ?_, ?_⟩⟩
  · rw [next, hspans]
    simp only [h.slice_eq hsize, bind, Except.bind, hscanned, if_false, htext, kind]
    cases token (kindOf span.class? text) text (lexer.base + UInt32.ofNat span.start) with
    | error fault => rfl
    | ok token => cases (kindOf span.class? text).isTrivia <;> rfl
  · rw [h.source_eq, List.append_assoc]
  · rw [byteSize_append, hsize, ← Nat.add_assoc, h.base_add]
  · rwa [byteSize_append]

end Between

theorem kindOf_quoted {class? : Option LexemeClass} {text : List Char} :
    (kindOf class? text = .tick → class? = some .tick) ∧
      (kindOf class? text = .characterLiteral → class? = some .character) := by
  have hword := (Lexeme.wordKind_plain (String.ofList text)).1
  unfold kindOf
  split
  case h_1 =>
    constructor <;> intro hkind <;> rw [hkind] at hword <;> cases hword
  case h_2 other _ => cases other <;> simp [LexemeClass.kind]
  case h_3 => simp

structure Ready (lexer : Lexer) (before rest : List Char) (read : Nat) : Prop extends
    lexer.Between before rest read where
  lawful : lexer.scanner.Lawful
  covers : Scanner.Covers read rest lexer.spans

/-- The lexer takes a token of this text and goes on in front of the rest, unless the offsets end before. -/
structure Takes (lexer : Lexer) (before : List Char) (kind : TokenKind) (text rest : List Char) : Prop where
  nonempty : text ≠ []
  character : kind = .characterLiteral → Token.endsName lexer.previous = false
  tick : kind = .tick → text = ['\'']
  tooLarge : UInt32.size ≤ byteSize before + byteSize text → lexer.next = .error .tooLarge
  goesOn : byteSize before + byteSize text < UInt32.size → ∃ behind read,
    lexer.next = .ok (some (.ofText kind (String.ofList text) (byteSize before), behind)) ∧
      behind.Ready (before ++ text) rest read ∧
      behind.previous = if kind.isTrivia then lexer.previous else some kind

namespace Ready

variable {lexer : Lexer} {before rest : List Char} {read : Nat}

theorem takes (h : lexer.Ready before rest read) (hrest : rest ≠ []) :
    ∃ kind text rest', rest = text ++ rest' ∧ lexer.Takes before kind text rest' := by
  have hcovers := h.covers
  generalize hspans : lexer.spans = spans at hcovers
  cases hcovers with
  | nil => exact absurd rfl hrest
  | @cons _ span text rest' spans hnonempty hstart hsize htick hcharacter hothers =>
    subst hstart
    have hbetween := h.toBetween
    have hstart := hbetween.start_eq
    by_cases hrestart : span.class? = some .character ∧ Token.endsName lexer.previous = true
    · obtain ⟨hclass, hname⟩ := hrestart
      obtain ⟨inner, rfl⟩ := hcharacter hclass
      obtain ⟨behind, hnext, hscanner, hprevious, hbehind⟩ := hbetween.next_restarting hspans hsize hclass hname
      refine ⟨.tick, ['\''], inner ++ rest', rfl, List.cons_ne_nil _ _, nofun, fun _ => rfl, fun hlarge => ?_,
        fun hfits => ?_⟩
      · rw [hnext, token_of_le (hstart ▸ hlarge)]
        rfl
      · obtain ⟨hbetween, hspans⟩ := hbehind hfits
        refine ⟨behind, 0, ?_, ⟨hbetween, hscanner ▸ h.lawful, hspans ▸ h.lawful _⟩, hprevious⟩
        rw [hnext, token_of_lt (hstart ▸ hfits), hstart]
        rfl
    · have hkind := @kindOf_quoted span.class? text
      obtain ⟨behind, hnext, hscanner, hprevious, hspans, hbehind⟩ :=
        hbetween.next_scanned hspans hsize hrestart fun heq => htick (hkind.1 heq)
      refine ⟨kindOf span.class? text, text, rest', rfl, hnonempty, fun heq => ?_, fun heq => htick (hkind.1 heq),
        fun hlarge => ?_, fun hfits => ?_⟩
      · exact Bool.eq_false_iff.mpr fun hname => hrestart ⟨hkind.2 heq, hname⟩
      · rw [hnext, token_of_le (hstart ▸ hlarge)]
        rfl
      · refine ⟨behind, span.stop, ?_, ⟨hbehind hfits, hscanner ▸ h.lawful, hspans ▸ hothers⟩, hprevious⟩
        rw [hnext, token_of_lt (hstart ▸ hfits), hstart]
        rfl

theorem next_none (h : lexer.Ready before [] read) : lexer.next = .ok none := by
  rw [next, h.covers.eq_nil rfl]

theorem yields (h : lexer.Ready before rest read) (hfits : byteSize before + byteSize rest < UInt32.size) :
    ∃ tokens, lexer.Yields (.ok tokens) ∧ Token.Lexes lexer.previous (byteSize before) rest tokens := by
  induction hlength : rest.length using Nat.strongRecOn generalizing lexer before rest read with
  | _ length ih =>
    by_cases hempty : rest = []
    · subst hempty
      exact ⟨[], .done h.next_none, .nil⟩
    · obtain ⟨kind, text, rest', rfl, htakes⟩ := h.takes hempty
      rw [byteSize_append, ← Nat.add_assoc] at hfits
      obtain ⟨behind, read', hnext, hready, hprevious⟩ := htakes.goesOn (by omega)
      have hshorter : rest'.length < length := by
        have hpos := List.length_pos_iff.mpr htakes.nonempty
        rw [← hlength, List.length_append]
        omega
      rw [← byteSize_append] at hfits
      obtain ⟨tokens, hyields, hlexes⟩ := ih _ hshorter hready hfits rfl
      rw [hprevious, byteSize_append] at hlexes
      exact ⟨_, .step hnext hyields, .cons htakes.nonempty htakes.character htakes.tick hlexes⟩

theorem yields_tooLarge (h : lexer.Ready before rest read) (hlarge : UInt32.size ≤ byteSize before + byteSize rest) :
    lexer.Yields (.error .tooLarge) := by
  induction hlength : rest.length using Nat.strongRecOn generalizing lexer before rest read with
  | _ length ih =>
    have hempty : rest ≠ [] := by
      rintro rfl
      exact Nat.not_le.mpr h.fits hlarge
    obtain ⟨kind, text, rest', rfl, htakes⟩ := h.takes hempty
    rcases Nat.lt_or_ge (byteSize before + byteSize text) (UInt32.size) with hfits | hends
    · obtain ⟨behind, read', hnext, hready, -⟩ := htakes.goesOn hfits
      have hshorter : rest'.length < length := by
        have hpos := List.length_pos_iff.mpr htakes.nonempty
        rw [← hlength, List.length_append]
        omega
      rw [byteSize_append, ← Nat.add_assoc, ← byteSize_append] at hlarge
      exact .step hnext (ih _ hshorter hready hlarge rfl)
    · exact .fault (htakes.tooLarge hends)

end Ready

theorem Yields.unique {lexer : Lexer} {outcome other : Except Fault (List Token)} (h : lexer.Yields outcome)
    (hother : lexer.Yields other) : other = outcome := by
  induction h generalizing other with
  | done h =>
    cases hother with
    | done => rfl
    | fault h' | step h' => cases h.symm.trans h'
  | fault h =>
    cases hother with
    | fault h' => cases h.symm.trans h'; rfl
    | done h' | step h' => cases h.symm.trans h'
  | step h _ ih =>
    cases hother with
    | step h' hrest =>
      cases h.symm.trans h'
      rw [ih hrest]
    | done h' | fault h' => cases h.symm.trans h'

theorem new_ready {scanner : Scanner} (h : scanner.Lawful) (source : String) :
    (new scanner source).Ready [] source.toList 0 :=
  ⟨⟨rfl, rfl, by decide⟩, h, h _⟩

end Lexer

namespace Lexeme

theorem eq_kind_of_classOf? {kind : TokenKind} {found : LexemeClass} (h : classOf? kind = some found)
    (hword : found ≠ .word) : kind = found.kind := by
  unfold classOf? at h
  split at h
  case isTrue => exact absurd (Option.some.inj h).symm hword
  case isFalse =>
    have hkind := List.find?_some h
    exact (of_decide_eq_true hkind).symm

theorem spans_covers (offset : Nat) (cs : List Char) : Scanner.Covers offset cs (spans offset cs) := by
  induction offset, cs using spans.induct with
  | case1 offset =>
    rw [spans]
    exact .nil
  | case2 offset c cs lexeme stop ih =>
    have htick : classOf? lexeme.1 = some .tick → c :: cs.take lexeme.2 = ['\''] := by
      intro hclass
      obtain ⟨rfl, hextra⟩ := scan_eq_tick (eq_kind_of_classOf? hclass (by decide))
      rw [show lexeme.2 = 0 from hextra, List.take_zero]
    have hcharacter : classOf? lexeme.1 = some .character → ∃ inner, c :: cs.take lexeme.2 = '\'' :: inner := by
      intro hclass
      obtain ⟨-, rfl⟩ := scan_eq_characterLiteral (eq_kind_of_classOf? hclass (by decide))
      exact ⟨_, rfl⟩
    have hcovers : Scanner.Covers offset (c :: cs.take lexeme.2 ++ cs.drop lexeme.2)
        (⟨classOf? lexeme.1, offset, stop⟩ :: spans stop (cs.drop lexeme.2)) :=
      .cons (List.cons_ne_nil _ _) rfl rfl htick hcharacter ih
    rw [List.cons_append, List.take_append_drop] at hcovers
    rw [spans]
    exact hcovers

theorem scanner_lawful : scanner.Lawful := spans_covers 0

theorem kindOf_classOf? (c : Char) (cs : List Char) :
    let lexeme := scan false c cs
    Lexer.kindOf (classOf? lexeme.1) (c :: cs.take lexeme.2) = lexeme.1 := by
  intro lexeme
  have hclass : ∀ kind ≠ .endOfFile, ∀ text, Lexer.kindOf (classOf? kind) text =
      if kind.isWord then wordKind (String.ofList text) else kind := by
    intro kind hkind text
    cases kind <;> first | rfl | exact absurd rfl hkind
  rw [hclass _ (scan_ne_endOfFile false c cs)]
  split
  case isTrue hword =>
    have hlexeme : lexeme = word c cs := scan_letter false cs (isLetter_of_isWord hword)
    rw [hlexeme, take_word]
    rfl
  case isFalse => rfl

end Lexeme

namespace Lexer

variable {lexer : Lexer} {before rest : List Char} {read : Nat}

theorem Between.next_lexeme {c : Char} {cs : List Char} (h : lexer.Between before (c :: cs) read)
    (hscanner : lexer.scanner = Lexeme.scanner) (hspans : lexer.spans = Lexeme.spans read (c :: cs))
    (hfits : byteSize before + byteSize (c :: cs) < UInt32.size) :
    let lexeme := Lexeme.scan (Token.endsName lexer.previous) c cs
    let text := c :: cs.take lexeme.2
    ∃ behind read', lexer.next = .ok (some (.ofText lexeme.1 (String.ofList text) (byteSize before), behind)) ∧
      behind.Between (before ++ text) (cs.drop lexeme.2) read' ∧ behind.scanner = Lexeme.scanner ∧
      behind.spans = Lexeme.spans read' (cs.drop lexeme.2) ∧
      behind.previous = if lexeme.1.isTrivia then lexer.previous else some lexeme.1 := by
  intro lexeme text
  have hcut (length : Nat) : c :: cs = c :: cs.take length ++ cs.drop length := by
    rw [List.cons_append, List.take_append_drop]
  have hsmall (length : Nat) : byteSize before + byteSize (c :: cs.take length) < UInt32.size := by
    rw [hcut length, byteSize_append] at hfits
    omega
  rw [Lexeme.spans] at hspans
  by_cases hrestart : (Lexeme.scan false c cs).1 = .characterLiteral ∧ Token.endsName lexer.previous = true
  · obtain ⟨hliteral, hname⟩ := hrestart
    have hlexeme : lexeme = (.tick, 0) := by
      simp only [lexeme, hname, Lexeme.scan_behind_name, hliteral, if_true]
    obtain ⟨-, rfl⟩ := Lexeme.scan_eq_characterLiteral hliteral
    rw [hcut (Lexeme.scan false '\'' cs).2] at h
    have hclass : Lexeme.classOf? (Lexeme.scan false '\'' cs).1 = some .character := by
      rw [hliteral]
      rfl
    obtain ⟨behind, hnext, hsame, hprevious, hbehind⟩ := h.next_restarting hspans rfl hclass hname
    obtain ⟨hbetween, hspans⟩ := hbehind (hsmall 0)
    rw [List.take_append_drop] at hbetween hspans
    simp only [text, hlexeme]
    refine ⟨behind, 0, ?_, hbetween, hsame.trans hscanner, hspans.trans (by rw [hscanner]; rfl), hprevious⟩
    rw [hnext, token_of_lt (h.start_eq ▸ hsmall 0), h.start_eq]
    rfl
  · have hlexeme : lexeme = Lexeme.scan false c cs := by
      cases hname : Token.endsName lexer.previous with
      | false => simp only [lexeme, hname]
      | true => simp only [lexeme, hname, Lexeme.scan_behind_name,
          if_neg fun hliteral => hrestart ⟨hliteral, hname⟩]
    have hkind := Lexeme.kindOf_classOf? c cs
    rw [← hlexeme] at hspans hkind
    rw [hcut lexeme.2] at h
    have hscanned : ¬(Lexeme.classOf? lexeme.1 = some .character ∧ Token.endsName lexer.previous = true) :=
      fun h => hrestart ⟨hlexeme ▸ Lexeme.eq_kind_of_classOf? h.1 (by decide), h.2⟩
    have htick : kindOf (Lexeme.classOf? lexeme.1) text = .tick → text = ['\''] := by
      intro heq
      obtain ⟨rfl, hextra⟩ := Lexeme.scan_eq_tick (hkind.symm.trans heq)
      rw [show text = '\'' :: cs.take lexeme.2 from rfl, show lexeme.2 = 0 from hextra, List.take_zero]
    obtain ⟨behind, hnext, hsame, hprevious, hspans, hbehind⟩ := h.next_scanned hspans rfl hscanned htick
    rw [hkind] at hnext hprevious
    refine ⟨behind, _, ?_, hbehind (hsmall _), hsame.trans hscanner, hspans, hprevious⟩
    rw [hnext, token_of_lt (h.start_eq ▸ hsmall _), h.start_eq]
    rfl

theorem Between.yields_scan (h : lexer.Between before rest read) (hscanner : lexer.scanner = Lexeme.scanner)
    (hspans : lexer.spans = Lexeme.spans read rest) (hfits : byteSize before + byteSize rest < UInt32.size) :
    lexer.Yields (.ok (Token.scan lexer.previous (byteSize before) rest)) := by
  induction hlength : rest.length using Nat.strongRecOn generalizing lexer before rest read with
  | _ length ih =>
    cases rest with
    | nil =>
      have hnone : lexer.next = .ok none := by rw [next, hspans, Lexeme.spans]
      rw [Token.scan]
      exact .done hnone
    | cons c cs =>
      obtain ⟨behind, read', hnext, hbetween, hscanner, hspans, hprevious⟩ := h.next_lexeme hscanner hspans hfits
      have hshorter : (cs.drop (Lexeme.scan (Token.endsName lexer.previous) c cs).2).length < length := by
        rw [← hlength, List.length_drop, List.length_cons]
        omega
      rw [← List.take_append_drop (Lexeme.scan (Token.endsName lexer.previous) c cs).2 cs, ← List.cons_append,
        byteSize_append, ← Nat.add_assoc, ← byteSize_append] at hfits
      have hrest := ih _ hshorter hbetween hscanner hspans hfits rfl
      rw [hprevious, byteSize_append] at hrest
      rw [Token.scan]
      exact .step hnext hrest

theorem yields_ofSource {source : String} (hfits : source.utf8ByteSize < UInt32.size) :
    (new Lexeme.scanner source).Yields (.ok (Token.ofSource source)) := by
  have hbetween : (new Lexeme.scanner source).Between [] source.toList 0 := ⟨rfl, rfl, by decide⟩
  refine hbetween.yields_scan rfl rfl ?_
  rw [byteSize, byteSize, String.ofList_toList]
  simpa using hfits

end Lexer

end AdaSyntax
