import AdaSyntax.Compilation
import AdaSyntax.Proofs.Parser.Draft
import AdaSyntax.Proofs.Scope.Visibility
import AdaSyntax.Proofs.Token.Lexeme

/-!
Names fold case where a letter tells them to. What is in upper case holds no lower-case letter of ASCII, so a name that
was folded once stays as it is. A spelling without such a letter is left alone, and then it is in upper case only if it
was so before. Two spellings that are folded to the same name meet wherever a name is used: as direct names, as
declarations of one region, and behind an end.
-/

namespace AdaSyntax

namespace Unicode

theorem isLower_eq_false_iff {c : Char} : c.isLower = false ↔ c.toNat < 0x61 ∨ 0x7A < c.toNat := by
  change (decide (97 ≤ c.val) && decide (c.val ≤ 122)) = false ↔ _
  simp only [Bool.and_eq_false_iff, decide_eq_false_iff_not, UInt32.le_iff_toNat_le]
  exact or_congr Nat.not_le Nat.not_le

def IsImage (code : Nat) : Prop := 0x41 ≤ code ∧ (code < 0x61 ∨ 0x7A < code)

instance (code : Nat) : Decidable (IsImage code) := inferInstanceAs (Decidable (_ ∧ _))

theorem IsImage.isLower {code : Nat} (h : IsImage code) : (Char.ofNat code).isLower = false := by
  rw [isLower_eq_false_iff]
  have hrange := h.2
  rcases toNat_ofNat code with heq | heq <;> omega

theorem IsImage.ne_newline {code : Nat} (h : IsImage code) : Char.ofNat code ≠ '\n' := by
  intro heq
  have hlarge := h.1
  have hcode : (Char.ofNat code).toNat = 10 := congrArg Char.toNat heq
  rcases toNat_ofNat code with hsame | hsame <;> omega

theorem caseExpansions_isImage : ∀ entry ∈ caseExpansions, ∀ code ∈ entry.2, IsImage code := by decide +kernel

theorem CaseRun.image_isImage {run : CaseRun} (hrun : run ∈ caseRuns) {code image : Nat} (h : run.image? code = some image) :
    IsImage image := by
  have hall : ∀ run ∈ caseRuns, 0x41 ≤ run.upper ∧ (run.upper + (run.last - run.first) < 0x61 ∨ 0x7A < run.upper) := by
    decide +kernel
  obtain ⟨hlow, hrange⟩ := hall run hrun
  unfold CaseRun.image? at h
  split at h
  · rename_i hbounds
    simp only [Bool.and_eq_true, decide_eq_true_iff] at hbounds
    obtain rfl := Option.some.inj h
    exact ⟨by omega, by omega⟩
  · cases h

theorem forall_ascii (holds : Char → Prop) (h : ∀ code < 0x80, holds (Char.ofNat code)) {c : Char} (hc : c.toNat < 0x80) :
    holds c := by
  have hthis := h c.toNat hc
  rwa [Char.ofNat_toNat] at hthis

theorem toUpper_ascii {c : Char} (h : c.toNat < 0x80) : c.toUpper.isLower = false ∧ (c.toUpper = '\n' → c = '\n') :=
  forall_ascii (fun c => c.toUpper.isLower = false ∧ (c.toUpper = '\n' → c = '\n')) (by decide) h

theorem of_mem_upperCase {c letter : Char} (h : letter ∈ upperCase c) :
    letter.isLower = false ∧ (letter = '\n' → c = '\n') := by
  unfold upperCase at h
  split at h
  · rename_i hascii
    obtain rfl := List.mem_singleton.mp h
    exact toUpper_ascii hascii
  · rename_i hlarge
    split at h
    · rename_i codes hcodes
      obtain ⟨code, hcode, rfl⟩ := List.mem_map.mp h
      obtain ⟨_, _, hentries, -⟩ := List.lookup_eq_some_iff.mp hcodes
      have himage := caseExpansions_isImage (c.toNat, codes) (hentries ▸ by simp) code hcode
      exact ⟨himage.isLower, fun heq => absurd heq himage.ne_newline⟩
    · split at h
      · rename_i code hcode
        obtain rfl := List.mem_singleton.mp h
        obtain ⟨run, hrun, hfound⟩ := List.exists_of_findSome?_eq_some hcode
        have himage := CaseRun.image_isImage hrun hfound
        exact ⟨himage.isLower, fun heq => absurd heq himage.ne_newline⟩
      · obtain rfl := List.mem_singleton.mp h
        exact ⟨isLower_eq_false_iff.mpr (by omega), id⟩

theorem upperCase_of_ascii {c : Char} (h : c.toNat < 0x80) (hlower : c.isLower = false) : upperCase c = [c] := by
  have hsame := forall_ascii (fun c => c.isLower = false → c.toUpper = c) (by decide) h
  rw [upperCase, if_pos h, hsame hlower]

end Unicode

namespace Name

/-- The name of this spelling is in upper case: a lower-case letter of ASCII tells so, or nothing is to be done. -/
def Folds (text : String) : Prop := text.toList.any Char.isLower = true ∨ upperCase text = text

instance (text : String) : Decidable (Folds text) := inferInstanceAs (Decidable (_ ∨ _))

theorem toList_upperCase (text : String) : (upperCase text).toList = text.toList.flatMap Unicode.upperCase :=
  String.toList_ofList

theorem upperCase_any_isLower (text : String) : (upperCase text).toList.any Char.isLower = false := by
  rw [toList_upperCase, List.any_eq_false]
  intro letter hletter
  obtain ⟨c, -, hmem⟩ := List.mem_flatMap.mp hletter
  rw [(Unicode.of_mem_upperCase hmem).1]
  exact Bool.false_ne_true

theorem ofText_text_iff (text : String) : (ofText text).text = upperCase text ↔ Folds text := by
  unfold ofText Folds
  split
  · rename_i hlower
    exact iff_of_true rfl (.inl hlower)
  · rename_i hnone
    exact ⟨fun heq => .inr heq.symm, fun hfolds => (hfolds.resolve_left hnone).symm⟩

theorem Folds.ofText_eq {text : String} (h : Folds text) : ofText text = ⟨upperCase text⟩ :=
  congrArg mk ((ofText_text_iff text).mpr h)

theorem folds_of_ascii {text : String} (h : ∀ c ∈ text.toList, c.toNat < 0x80) : Folds text := by
  cases hlower : text.toList.any Char.isLower with
  | true => exact .inl hlower
  | false =>
    have hsame : text.toList.map Unicode.upperCase = text.toList.map fun c => [c] :=
      List.map_congr_left fun c hc => Unicode.upperCase_of_ascii (h c hc) (by simpa using List.any_eq_false.mp hlower c hc)
    refine .inr (String.toList_inj.mp ?_)
    rw [toList_upperCase, List.flatMap_def, hsame, ← List.flatMap_def, List.flatMap_singleton']

theorem ofText_ofText (text : String) : ofText (ofText text).text = ofText text := by
  rcases Bool.eq_false_or_eq_true (text.toList.any Char.isLower) with hlower | hnone
  · rw [Folds.ofText_eq (.inl hlower), ofText, upperCase_any_isLower, if_neg Bool.false_ne_true]
  · have hkept : ofText text = ⟨text⟩ := by rw [ofText, hnone, if_neg Bool.false_ne_true]
    rw [hkept, hkept]

theorem ofText_eq_iff {first second : String} (h : Folds first) (h' : Folds second) :
    ofText first = ofText second ↔ upperCase first = upperCase second := by
  rw [h.ofText_eq, h'.ofText_eq, mk.injEq]

end Name

namespace SymbolTable

variable {table : SymbolTable}

theorem bind_fst {id : SymbolId} {symbol : Symbol} (hsymbol : table.symbol? id = some symbol)
    (hlast : (table.innermost.bindings.get symbol.name).getLast? ≠ some id) :
    (table.bind id).1 = table.classifyBinding symbol.kind (table.innermost.bindings.get symbol.name) := by
  unfold bind
  simp only [hsymbol, if_neg hlast]
  split
  · rename_i hduplicate
    exact hduplicate.symm
  · rfl

theorem classifyBinding_concat (table : SymbolTable) (kind : SymbolKind) (ids : List SymbolId) (last : SymbolId) :
    ∃ first, (ids ++ [last]).head? = some first ∧ table.classifyBinding kind (ids ++ [last]) =
      if kind.isOverloadable && (table.kindOf last).isOverloadable then .overload
      else if kind.completes (table.kindOf last) then .completion last
      else .duplicate first := by
  cases ids with
  | nil => exact ⟨last, rfl, rfl⟩
  | cons first rest =>
    refine ⟨first, rfl, ?_⟩
    rw [List.cons_append, classifyBinding, List.getLastD_concat]

theorem WellFormed.declare_again (h : table.WellFormed) {earlier later : Declaration}
    (hname : later.name = earlier.name) (hbound : ∀ existing, (table.declare earlier).2.1 ≠ .duplicate existing) :
    ∃ first, ((table.declare earlier).2.2.innermost.bindings.get earlier.name).head? = some first ∧
      ((table.declare earlier).2.2.declare later).2.1 =
        if later.kind.isOverloadable && earlier.kind.isOverloadable then .overload
        else if later.kind.completes earlier.kind then .completion (table.declare earlier).1
        else .duplicate first := by
  rcases h.declare_cases earlier with ⟨heq, -⟩ | ⟨existing, heq, -⟩
  · rw [heq]
    generalize hafter : (table.reserve earlier).2.putBinding earlier.name ⟨table.symbols.size⟩ = after
    have hids : after.innermost.bindings.get earlier.name =
        table.innermost.bindings.get earlier.name ++ [⟨table.symbols.size⟩] :=
      hafter ▸ Bindings.get_add_self ..
    have hsize : after.symbols.size = table.symbols.size + 1 := hafter ▸ Array.size_push ..
    have hsymbol : after.symbol? ⟨table.symbols.size⟩ = (table.reserve earlier).2.symbol? ⟨table.symbols.size⟩ :=
      hafter ▸ rfl
    have hkind : (after.reserve later).2.kindOf ⟨table.symbols.size⟩ = earlier.kind := by
      have hkept : (after.reserve later).2.symbol? ⟨table.symbols.size⟩ = after.symbol? ⟨table.symbols.size⟩ :=
        (Array.getElem?_push_lt (hsize ▸ Nat.lt_succ_self _)).trans (Array.getElem?_eq_getElem _).symm
      rw [kindOf, hkept, hsymbol, table.symbol?_reserve]
    have hfresh : (after.innermost.bindings.get later.name).getLast? ≠ some ⟨after.symbols.size⟩ := by
      rw [hname, hids, List.getLast?_concat, hsize]
      simp
    obtain ⟨first, hfirst, hclass⟩ := (after.reserve later).2.classifyBinding_concat later.kind
      (table.innermost.bindings.get earlier.name) ⟨table.symbols.size⟩
    have hdeclare : (after.declare later).2.1 =
        (after.reserve later).2.classifyBinding later.kind (after.innermost.bindings.get later.name) :=
      bind_fst (after.symbol?_reserve later) hfresh
    refine ⟨first, hids ▸ hfirst, ?_⟩
    rw [hdeclare, hname, hids, hclass, hkind]
    rfl
  · exact absurd (congrArg Prod.fst heq) (hbound existing)

end SymbolTable

namespace Parser

/-- At an identifier, or at a string literal that may be an operator symbol. -/
def AtName (parser : Parser) : Prop := parser.kind = .identifier ∨ parser.kind = .stringLiteral

/-- The parser behind its current token. -/
structure Past (parser later : Parser) : Prop where
  tokens : later.cursor.tokens = parser.cursor.tokens
  position : later.position = parser.position + 1
  rest : later = { parser with cursor := later.cursor }

variable (calls : ∀ {α : Type}, Production α → Parser → Reply α × Parser) {parser : Parser}

theorem AtName.isAtAny_run (h : parser.AtName) :
    (Program.isAtAny [.identifier, .stringLiteral]).run calls parser = (.matched true, parser) := by
  have hcontains : [TokenKind.identifier, .stringLiteral].contains parser.kind = true := by
    rcases h with hkind | hkind <;> rw [hkind] <;> rfl
  exact congrArg (fun found => (Reply.matched found, parser)) hcontains

theorem AtName.take_run (h : parser.AtName) : ∃ past, parser.Past past ∧ Program.take.run calls parser =
    (.matched ⟨parser.kind, parser.current.text, parser.position⟩, past) := by
  have hkind : parser.cursor.kind ≠ .endOfFile := by
    intro heq
    have hsame : parser.kind = .endOfFile := heq
    rcases h with hname | hname <;> rw [hsame] at hname <;> cases hname
  refine ⟨{ parser with
    cursor := { parser.cursor with
      position := parser.position + 1, position_lt := parser.cursor.succ_lt_size hkind } }, ⟨rfl, rfl, rfl⟩, ?_⟩
  simp only [Program.take, Program.run, perform, take, Cursor.advance, dif_neg hkind, withPosition]
  rfl

end Parser

namespace Program

variable (calls : ∀ {α : Type}, Production α → Parser → Reply α × Parser) {parser : Parser}

theorem directName_run (h : parser.AtName) :
    let name := Name.ofText parser.current.text
    let resolution := parser.symbols.resolve name
    ∃ node later, Grammar.directName.run calls parser = (.matched node, later) ∧
      later.tree.payload node = .name (.identifier name resolution.symbol resolution.kind) := by
  intro name resolution
  obtain ⟨past, hpast, htake⟩ := h.take_run calls
  have hresolve : (step (.resolve name)).run calls past = (.matched resolution, past) := by
    rw [hpast.rest]
    rfl
  unfold Grammar.directName
  have hposition : Program.position.run calls parser = (.matched parser.position, parser) := rfl
  rw [run_bind_of_matched hposition, run_bind_of_matched (h.isAtAny_run calls), if_pos rfl, run_bind_of_matched htake,
    run_bind_of_matched hresolve]
  exact ⟨_, _, rfl, Tree.payload_of_get? (past.tree.get?_add_self _ _)⟩

theorem endName_run (h : parser.AtName) (expected : Name) : ∃ past, parser.Past past ∧
    (endName expected).run calls parser = (.matched (some (.ofText parser.current.text)),
      if Name.ofText parser.current.text = expected then past
      else past.find (.endMismatch parser.position (.ofText parser.current.text) expected)) := by
  obtain ⟨past, hpast, htake⟩ := h.take_run calls
  refine ⟨past, hpast, ?_⟩
  unfold endName
  rw [run_bind_of_matched (h.isAtAny_run calls), if_pos rfl, run_bind_of_matched htake]
  dsimp only
  by_cases hname : Name.ofText parser.current.text = expected
  · rw [if_neg (not_not_intro hname), if_pos hname]
    rfl
  · rw [if_pos hname, if_neg hname]
    rfl

end Program

namespace Name

/-- Wherever one spelling gives a name, the other one gives the same: as a direct name, as a declaration beside another
one in the same region, and behind an end. -/
structure Meet (first second : String) : Prop where
  directName : ∀ (calls : ∀ {α : Type}, Production α → Parser → Reply α × Parser) (parser : Parser), parser.AtName →
    parser.current.text = second →
      ∃ node later, Grammar.directName.run calls parser = (.matched node, later) ∧
        later.tree.payload node = .name (.identifier (ofText first) (parser.symbols.resolve (ofText first)).symbol
          (parser.symbols.resolve (ofText first)).kind)
  declare : ∀ table : SymbolTable, table.Reachable → ∀ earlier later : Declaration, earlier.name = ofText first →
    later.name = ofText second → (∀ existing, (table.declare earlier).2.1 ≠ .duplicate existing) →
      ∃ existing, ((table.declare earlier).2.2.innermost.bindings.get (ofText first)).head? = some existing ∧
        ((table.declare earlier).2.2.declare later).2.1 =
          if later.kind.isOverloadable && earlier.kind.isOverloadable then .overload
          else if later.kind.completes earlier.kind then .completion (table.declare earlier).1
          else .duplicate existing
  endName : ∀ (calls : ∀ {α : Type}, Production α → Parser → Reply α × Parser) (parser : Parser), parser.AtName →
    parser.current.text = second →
      ∃ past, parser.Past past ∧ (Program.endName (ofText first)).run calls parser = (.matched (some (ofText first)), past)

theorem meet_of_eq {first second : String} (h : ofText first = ofText second) : Meet first second where
  directName calls parser hname htext := by
    rw [h, ← htext]
    exact Program.directName_run calls hname
  declare table hreachable earlier later hearlier hlater hbound := by
    rw [← hearlier]
    exact hreachable.wellFormed.declare_again (hlater.trans (h.symm.trans hearlier.symm)) hbound
  endName calls parser hname htext := by
    obtain ⟨past, hpast, hrun⟩ := Program.endName_run calls hname (ofText first)
    rw [htext, ← h, if_pos rfl] at hrun
    exact ⟨past, hpast, hrun⟩

/-- A name is the upper case of its spelling just in case a lower-case letter of ASCII stands in the spelling, or it is in
upper case; so it is for every text in ASCII. Of two spellings of which this is true, the names are equal just in case the
upper cases are, and then the spellings meet wherever names are used. The name of a name is the name again. -/
theorem ofText_folds (text : String) :
    ((ofText text).text = upperCase text ↔ text.toList.any Char.isLower = true ∨ upperCase text = text) ∧
      ((∀ c ∈ text.toList, c.toNat < 0x80) → (ofText text).text = upperCase text) ∧
      ofText (ofText text).text = ofText text ∧
      ∀ other, Folds text → Folds other →
        (ofText text = ofText other ↔ upperCase text = upperCase other) ∧
          (upperCase text = upperCase other → Meet text other) :=
  ⟨ofText_text_iff text, fun h => (ofText_text_iff text).mpr (folds_of_ascii h), ofText_ofText text, fun _ h h' =>
    ⟨ofText_eq_iff h h', fun hsame => meet_of_eq ((ofText_eq_iff h h').mpr hsame)⟩⟩

/-- The letters of ASCII, and a sharp s, which is two letters in upper case. -/
theorem ofText_folds_sharpS :
    let parser := Parser.new (.ofSource "GRÖSSE") { predefined := false }
    let earlier : Declaration := { name := ofText "Größe", kind := .object }
    let later : Declaration := { name := ofText "GRÖSSE", kind := .exception }
    (ofText "count").text = upperCase "count" ∧ Folds "Größe" ∧ Folds "GRÖSSE" ∧
      upperCase "Größe" = upperCase "GRÖSSE" ∧ ofText "Größe" = ofText "GRÖSSE" ∧
      SymbolTable.empty.Reachable ∧ (∀ existing, (SymbolTable.empty.declare earlier).2.1 ≠ .duplicate existing) ∧
      (∃ existing, ((SymbolTable.empty.declare earlier).2.2.declare later).2.1 = .duplicate existing) ∧
      parser.AtName ∧ parser.current.text = "GRÖSSE" ∧ ∃ past, parser.Past past ∧
        (Program.endName (ofText "Größe")).run (Grammar.call 0) parser = (.matched (some (ofText "Größe")), past) := by
  intro parser earlier later
  have hfirst : Folds "Größe" := by decide +kernel
  have hsecond : Folds "GRÖSSE" := by decide +kernel
  have hsame : upperCase "Größe" = upperCase "GRÖSSE" := by decide +kernel
  have hreachable : SymbolTable.empty.Reachable := ⟨[], trivial, rfl⟩
  have hbound : ∀ existing, (SymbolTable.empty.declare earlier).2.1 ≠ .duplicate existing := nofun
  have hname : parser.AtName := .inl (by decide +kernel)
  have htext : parser.current.text = "GRÖSSE" := by decide +kernel
  have hcount : (ofText "count").text = upperCase "count" := (ofText_folds "count").2.1 (by simp)
  obtain ⟨-, -, -, hpairs⟩ := ofText_folds "Größe"
  obtain ⟨hequal, hmeet⟩ := hpairs "GRÖSSE" hfirst hsecond
  obtain ⟨existing, -, hdeclared⟩ := (hmeet hsame).declare _ hreachable earlier later rfl rfl hbound
  exact ⟨hcount, hfirst, hsecond, hsame, hequal.mpr hsame, hreachable, hbound, ⟨existing, hdeclared⟩, hname, htext,
    (hmeet hsame).endName _ parser hname htext⟩

/-- A single letter beyond ASCII is left in lower case, and is another name than its upper case. -/
theorem ofText_acute :
    upperCase "é" = "É" ∧ (ofText "é").text = "é" ∧ upperCase "é" = upperCase "É" ∧ ofText "é" ≠ ofText "É" := by
  decide +kernel

end Name

end AdaSyntax
