import AdaSyntax.Proofs.Parser.Finds
import AdaSyntax.Proofs.Parser.Upcoming

namespace AdaSyntax

namespace TokenKind

def levelBehind (kind : TokenKind) (level : Nat) : Option Nat :=
  match kind with
  | .endOfFile | .semicolon => none
  | .leftParen => some (level + 1)
  | .rightParen => if level = 0 then none else some (level - 1)
  | .comma => if level = 0 then none else some level
  | _ => some level

def isPlain : TokenKind → Bool
  | .endOfFile | .semicolon | .leftParen | .rightParen | .comma => false
  | _ => true

variable {kind : TokenKind} {level behind : Nat}

theorem levelBehind_of_isPlain (h : kind.isPlain = true) (level : Nat) : kind.levelBehind level = some level := by
  unfold levelBehind
  split <;> first | rfl | cases h

theorem levelBehind_add (h : kind.levelBehind level = some behind) (extra : Nat) :
    kind.levelBehind (level + extra) = some (behind + extra) := by
  by_cases hplain : kind.isPlain = true
  · rw [levelBehind_of_isPlain hplain] at h ⊢
    rw [Option.some.inj h]
  · cases kind <;> simp_all [isPlain, levelBehind] <;> omega

end TokenKind

namespace Lexeme

def levelAfter (level : Nat) (lexemes : List Lexeme) : Option Nat :=
  lexemes.foldlM (fun level lexeme => lexeme.kind.levelBehind level) level

variable {lexemes lexemes' rest : List Lexeme} {kind : TokenKind} {low middle high : Nat}

theorem levelAfter_cons {lexeme : Lexeme} : levelAfter low (lexeme :: lexemes) = some high ↔
    ∃ behind, lexeme.kind.levelBehind low = some behind ∧ levelAfter behind lexemes = some high :=
  Option.bind_eq_some_iff

theorem levelAfter_append (h : levelAfter low lexemes = some middle) (h' : levelAfter middle lexemes' = some high) :
    levelAfter low (lexemes ++ lexemes') = some high := by
  rw [levelAfter, List.foldlM_append]
  exact (congrArg (· >>= _) h).trans h'

theorem levelAfter_add (h : levelAfter low lexemes = some high) (extra : Nat) :
    levelAfter (low + extra) lexemes = some (high + extra) := by
  induction lexemes generalizing low with
  | nil => exact congrArg (some <| · + extra) (Option.some.inj h)
  | cons lexeme lexemes ih =>
    obtain ⟨behind, hbehind, hrest⟩ := levelAfter_cons.mp h
    exact levelAfter_cons.mpr ⟨_, TokenKind.levelBehind_add hbehind extra, ih hrest⟩

def Exposes (lexemes : List Lexeme) (kind : TokenKind) : Prop :=
  ∃ before rest, lexemes = before ++ rest ∧ levelAfter 0 before = some 0 ∧ kindAt rest 0 = kind

theorem Exposes.here (h : kindAt lexemes 0 = kind) : Exposes lexemes kind :=
  ⟨[], lexemes, rfl, rfl, h⟩

theorem Exposes.behind (h : Exposes rest kind) (hlevel : levelAfter 0 lexemes = some 0) :
    Exposes (lexemes ++ rest) kind := by
  obtain ⟨before, after, rfl, hbefore, hkind⟩ := h
  exact ⟨lexemes ++ before, after, (List.append_assoc ..).symm, levelAfter_append hlevel hbefore, hkind⟩

end Lexeme

namespace Cursor

open Lexeme

variable {tokens : Array Token} {kinds : List TokenKind} {kind : TokenKind} {index low high : Nat}
variable {lexeme : Lexeme} {lexemes rest : List Lexeme}

theorem groupHas_of_lt (h : index < tokens.size) (level : Nat) : groupHas tokens kinds index level =
    match tokens[index].kind.levelBehind level with
    | none => false
    | some behind =>
      decide (level = 0 ∧ tokens[index].kind ≠ .leftParen ∧ tokens[index].kind ∈ kinds) ||
        groupHas tokens kinds (index + 1) behind := by
  rw [groupHas, dif_pos h]
  generalize tokens[index].kind = kind
  cases level with
  | zero => cases kind <;> simp [TokenKind.levelBehind]
  | succ level => cases kind <;> simp [TokenKind.levelBehind]

theorem groupHas_of_levelAfter (hlexemes : lexemesFrom tokens index = lexemes ++ rest)
    (hlevel : levelAfter low lexemes = some high) (h : groupHas tokens kinds (index + lexemes.length) high = true) :
    groupHas tokens kinds index low = true := by
  induction lexemes generalizing index low with
  | nil => rwa [Option.some.inj hlevel]
  | cons lexeme lexemes ih =>
    obtain ⟨behind, hbehind, hrest⟩ := levelAfter_cons.mp hlevel
    have hlt := lt_size_of_lexemesFrom hlexemes
    rw [groupHas_of_lt hlt, kind_of_lexemesFrom hlexemes hlt, hbehind, Bool.or_eq_true]
    refine .inr (ih (lexemesFrom_succ hlexemes) hrest ?_)
    rwa [Nat.add_assoc, Nat.add_comm 1]

theorem groupHas_of_exposes (h : Exposes (lexemesFrom tokens index) kind) (hplain : kind.isPlain = true)
    (hkind : kind ∈ kinds) : groupHas tokens kinds index 0 = true := by
  obtain ⟨before, rest, hlexemes, hlevel, hnext⟩ := h
  refine groupHas_of_levelAfter hlexemes hlevel ?_
  have hrest := lexemesFrom_add hlexemes
  cases rest with
  | nil =>
    subst hnext
    cases hplain
  | cons lexeme rest =>
    have hlt := lt_size_of_lexemesFrom hrest
    obtain rfl : lexeme.kind = kind := hnext
    rw [groupHas_of_lt hlt, kind_of_lexemesFrom hrest hlt, TokenKind.levelBehind_of_isPlain hplain]
    have hparen : lexeme.kind ≠ .leftParen := fun heq => by
      rw [heq] at hplain
      cases hplain
    simp [hparen, hkind]

/-- A round of the loop that scans a group, so many tokens ahead and on some level: an answer, or how to go on. Nothing
keeps the level from going below zero but what the round does. -/
def groupRound (cursor : Cursor) (kinds : List TokenKind) (count : Nat) (level : Int) : Bool ⊕ Nat × Int :=
  match (cursor.ahead count).kind with
  | .endOfFile | .semicolon => .inl false
  | .leftParen => .inr (count + 1, level + 1)
  | .rightParen => if level = 0 then .inl false else .inr (count + 1, level - 1)
  | .comma => if level = 0 then .inl false else .inr (count + 1, level)
  | kind => if level = 0 ∧ kind ∈ kinds then .inl true else .inr (count + 1, level)

/-- The loop ends with the answer, and came through these levels. -/
inductive GroupLoop (cursor : Cursor) (kinds : List TokenKind) : Nat → Int → List Int → Bool → Prop
  | stop {count : Nat} {level : Int} {answer : Bool} (hround : cursor.groupRound kinds count level = .inl answer) :
      GroupLoop cursor kinds count level [level] answer
  | next {count count' : Nat} {level level' : Int} {levels : List Int} {answer : Bool}
      (hround : cursor.groupRound kinds count level = .inr (count', level'))
      (rest : GroupLoop cursor kinds count' level' levels answer) :
      GroupLoop cursor kinds count level (level :: levels) answer

variable {cursor : Cursor} {count : Nat}

theorem groupRound_eq (level : Nat) : cursor.groupRound kinds count level =
    match (cursor.ahead count).kind.levelBehind level with
    | none => .inl false
    | some behind =>
      if level = 0 ∧ (cursor.ahead count).kind ≠ .leftParen ∧ (cursor.ahead count).kind ∈ kinds then .inl true
      else .inr (count + 1, (behind : Int)) := by
  unfold groupRound
  generalize (cursor.ahead count).kind = kind
  cases level with
  | zero => cases kind <;> simp [TokenKind.levelBehind]
  | succ level => cases kind <;> simp [TokenKind.levelBehind] <;> omega

theorem groupRound_cases (cursor : Cursor) (kinds : List TokenKind) (count level : Nat) :
    cursor.groupRound kinds count level = .inl (groupHas cursor.tokens kinds (cursor.position + count) level) ∨
    ∃ behind : Nat, cursor.position + count < cursor.tokens.size ∧
      cursor.groupRound kinds count level = .inr (count + 1, (behind : Int)) ∧
      groupHas cursor.tokens kinds (cursor.position + count) level =
        groupHas cursor.tokens kinds (cursor.position + (count + 1)) behind := by
  rw [groupRound_eq]
  rcases Nat.lt_or_ge (cursor.position + count) cursor.tokens.size with hlt | hge
  · rw [groupHas_of_lt hlt, cursor.ahead_of_lt hlt]
    cases hbehind : cursor.tokens[cursor.position + count].kind.levelBehind level with
    | none => exact .inl rfl
    | some behind =>
      dsimp only
      split
      · rename_i hfound
        exact .inl (by simp [hfound])
      · rename_i hother
        exact .inr ⟨behind, hlt, rfl, by simp [hother, Nat.add_assoc]⟩
  · rw [cursor.ahead_of_ge hge, groupHas, dif_neg (Nat.not_lt.mpr hge)]
    exact .inl rfl

theorem groupLoop (cursor : Cursor) (kinds : List TokenKind) (count level : Nat) :
    ∃ levels, cursor.GroupLoop kinds count level levels
      (groupHas cursor.tokens kinds (cursor.position + count) level) ∧ ∀ level ∈ levels, 0 ≤ level := by
  induction hleft : cursor.tokens.size - (cursor.position + count) using Nat.strongRecOn generalizing count level with
  | ind left ih =>
    rcases cursor.groupRound_cases kinds count level with hstop | ⟨behind, hlt, hround, hanswer⟩
    · exact ⟨_, .stop hstop, by simp⟩
    · obtain ⟨levels, hloop, hlevels⟩ := ih _ (by omega) (count + 1) behind rfl
      rw [hanswer]
      exact ⟨_, .next hround hloop, by simpa using hlevels⟩

end Cursor

namespace Parser

open Lexeme

structure Consumes (parser later : Parser) : Prop where
  upcoming : parser.upcoming = parser.current.lexeme :: later.upcoming
  tree : later.tree = parser.tree

theorem Consumes.of_withPosition {parser later : Parser} {position : Nat} {token : TokenAt}
    (h : withPosition position parser.take = (.matched token, later)) : parser.Consumes later := by
  obtain ⟨taken, htake⟩ := withPosition_matched h
  obtain ⟨rfl, hupcoming, htree⟩ := upcoming_of_take htake
  exact ⟨hupcoming, htree⟩

def Crosses (parser later : Parser) (low high : Nat) : Prop :=
  ∃ lexemes, parser.upcoming = lexemes ++ later.upcoming ∧ levelAfter low lexemes = some high

namespace Crosses

variable {parser between later : Parser} {low middle high : Nat} {kind : TokenKind}

theorem of_upcoming (h : later.upcoming = parser.upcoming) : parser.Crosses later low low :=
  ⟨[], h.symm, rfl⟩

theorem of_consumes (h : parser.Consumes later) (hlevel : parser.kind.levelBehind low = some high) :
    parser.Crosses later low high := by
  refine ⟨[parser.current.lexeme], h.upcoming, levelAfter_cons.mpr ⟨high, ?_, rfl⟩⟩
  rwa [Token.lexeme_kind]

theorem trans (h : parser.Crosses between low middle) (h' : between.Crosses later middle high) :
    parser.Crosses later low high := by
  obtain ⟨lexemes, hupcoming, hlevel⟩ := h
  obtain ⟨lexemes', hupcoming', hlevel'⟩ := h'
  refine ⟨lexemes ++ lexemes', ?_, levelAfter_append hlevel hlevel'⟩
  rw [hupcoming, hupcoming', List.append_assoc]

theorem add (h : parser.Crosses later low high) (extra : Nat) : parser.Crosses later (low + extra) (high + extra) := by
  obtain ⟨lexemes, hupcoming, hlevel⟩ := h
  exact ⟨lexemes, hupcoming, levelAfter_add hlevel extra⟩

theorem exposes (h : parser.Crosses later 0 0) (hlater : Exposes later.upcoming kind) :
    Exposes parser.upcoming kind := by
  obtain ⟨lexemes, hupcoming, hlevel⟩ := h
  rw [hupcoming]
  exact hlater.behind hlevel

end Crosses

end Parser

namespace Program

open AdaSyntax.Parser

variable {α β σ : Type} {budget low middle high : Nat} {parser : Parser} {program : Program α}

def Crosses (budget low high : Nat) (program : Program α) (parser : Parser) : Prop :=
  Secures budget program parser fun _ later => parser.Crosses later low high

def Balanced (budget : Nat) (program : Program α) : Prop := ∀ parser, program.Crosses budget 0 0 parser

namespace Crosses

theorem pure {value : α} : Crosses budget low low (.pure value) parser :=
  Secures.pure (.of_upcoming rfl)

theorem refused {expected : String} : Crosses budget low high (.reject expected : Program α) parser :=
  Secures.refused

theorem bind {first : Program β} {next : β → Program α} (hfirst : first.Crosses budget low middle parser)
    (hnext : ∀ value later, (next value).Crosses budget middle high later) :
    (first >>= next).Crosses budget low high parser :=
  Secures.bind hfirst fun value later hcrosses => (hnext value later).mono fun _ _ => hcrosses.trans

theorem bind_of {first : Program β} {next : β → Program α} {known : β → Parser → Prop}
    (hfirst : Secures budget first parser fun value later => parser.Crosses later low middle ∧ known value later)
    (hnext : ∀ value later, known value later → (next value).Crosses budget middle high later) :
    (first >>= next).Crosses budget low high parser :=
  Secures.bind hfirst fun value later h => (hnext value later h.2).mono fun _ _ => h.1.trans

theorem reads {first : Program β} {next : β → Program α} (hreads : Reads (Grammar.call budget) first)
    (h : ∀ value, (next value).Crosses budget low high parser) : (first >>= next).Crosses budget low high parser :=
  Secures.reads hreads h

theorem position {next : Nat → Program α} (h : (next parser.position).Crosses budget low high parser) :
    (Program.step .position >>= next).Crosses budget low high parser :=
  Secures.query rfl h

theorem kind {next : TokenKind → Program α} (h : (next parser.kind).Crosses budget low high parser) :
    (Program.kind >>= next).Crosses budget low high parser :=
  Secures.query rfl h

theorem isAt {kind : TokenKind} {next : Bool → Program α}
    (h : (next (parser.kind == kind)).Crosses budget low high parser) :
    (Program.isAt kind >>= next).Crosses budget low high parser :=
  Secures.query rfl h

theorem isAtAny {kinds : List TokenKind} {next : Bool → Program α}
    (h : (next (kinds.contains parser.kind)).Crosses budget low high parser) :
    (Program.isAtAny kinds >>= next).Crosses budget low high parser :=
  Secures.query rfl h

theorem still {op : Op α}
    (h : ∀ value later, parser.perform op = (.matched value, later) → later.cursor = parser.cursor) :
    Crosses budget low low (.step op) parser :=
  fun value later hrun => .of_upcoming (upcoming_congr (h value later hrun))

theorem followedBy {first second : TokenKind} {next : Bool → Program α}
    (h : (next (parser.kind = first && (parser.cursor.ahead 1).kind = second)).Crosses budget low high parser) :
    (Program.followedBy first second >>= next).Crosses budget low high parser :=
  Secures.query rfl h

theorem add {start : Nat} {payload : Payload Nat} : (Program.add start payload).Crosses budget low low parser := by
  refine still fun value later hperform => ?_
  obtain ⟨-, rfl⟩ := Prod.mk.inj hperform
  rfl

theorem find {finding : Finding} : (Program.find finding).Crosses budget low low parser := by
  refine still fun value later hperform => ?_
  obtain ⟨-, rfl⟩ := Prod.mk.inj hperform
  exact (parser.find_reports finding).cursor_eq

theorem take {kind : TokenKind} (hkind : parser.kind = kind) (h : kind.levelBehind low = some high) :
    Program.take.Crosses budget low high parser :=
  fun _ _ hrun => .of_consumes (.of_withPosition hrun) (hkind ▸ h)

theorem advance {kind : TokenKind} (hkind : parser.kind = kind) (h : kind.levelBehind low = some high) :
    Program.advance.Crosses budget low high parser :=
  (take hkind h).bind fun _ _ => pure

theorem advance_secures {kind : TokenKind} (hkind : parser.kind = kind) (h : kind.levelBehind low = some high) :
    Secures budget Program.advance parser fun _ later =>
      parser.Crosses later low high ∧ later.kind = (parser.cursor.ahead 1).kind := by
  have htake : Secures budget Program.take parser fun _ later => parser.Consumes later :=
    fun _ _ hrun => .of_withPosition hrun
  refine Secures.bind htake fun _ later hconsumes => Secures.pure ⟨.of_consumes hconsumes (hkind ▸ h), ?_⟩
  rw [ahead_kind, hconsumes.upcoming, Parser.kind_eq]
  rfl

theorem advanceFirst {first second : TokenKind} {next : Unit → Program α}
    (h : (parser.kind = first && (parser.cursor.ahead 1).kind = second) = true)
    (hlevel : first.levelBehind low = some middle)
    (hnext : ∀ later, later.kind = second → (next ()).Crosses budget middle high later) :
    (Program.advance >>= next).Crosses budget low high parser := by
  simp only [Bool.and_eq_true, decide_eq_true_iff] at h
  exact bind_of (advance_secures h.1 hlevel) fun _ later hkind => hnext later (hkind.trans h.2)

theorem accept_secures {kind : TokenKind} (h : kind.levelBehind low = some low) :
    Secures budget (Program.accept kind) parser fun answer later => parser.Crosses later low low ∧
      (answer = true → parser.kind = kind ∧ later.kind = (parser.cursor.ahead 1).kind) ∧
        (answer = false → parser.kind ≠ kind ∧ later = parser) := by
  refine Secures.query rfl ?_
  cases hkind : parser.kind == kind with
  | true =>
    refine Secures.bind (advance_secures (eq_of_beq hkind) h) fun _ later hlater => ?_
    exact Secures.pure ⟨hlater.1, fun _ => ⟨eq_of_beq hkind, hlater.2⟩, nofun⟩
  | false => exact Secures.pure ⟨.of_upcoming rfl, nofun, fun _ => ⟨ne_of_beq_false hkind, rfl⟩⟩

theorem accept {kind : TokenKind} (h : kind.levelBehind low = some low) :
    (Program.accept kind).Crosses budget low low parser :=
  (accept_secures h).mono fun _ _ hlater => hlater.1

theorem expect_secures {kind : TokenKind} :
    Secures budget (Program.expect kind) parser fun _ later => parser.kind = kind ∧ parser.Consumes later := by
  have htoken : Secures budget (.step (.expect kind)) parser fun _ later =>
      parser.kind = kind ∧ parser.Consumes later := by
    intro token later hrun
    simp only [run, Parser.perform, Parser.expect] at hrun
    split at hrun
    · exact ⟨‹_›, .of_withPosition hrun⟩
    · split at hrun <;> cases hrun
  exact Secures.bind htoken fun _ _ hlater => Secures.pure hlater

theorem expect {kind : TokenKind} (h : kind.levelBehind low = some high) :
    (Program.expect kind).Crosses budget low high parser :=
  expect_secures.mono fun _ _ hlater => .of_consumes hlater.2 (hlater.1 ▸ h)

theorem expectChoice_secures {kind : TokenKind} :
    Secures budget (Program.expectChoice kind) parser fun _ later => parser.kind = kind ∧ parser.Consumes later := by
  have htoken : Secures budget (.step (.expectChoice kind)) parser fun _ later =>
      parser.kind = kind ∧ parser.Consumes later := by
    intro token later hrun
    simp only [run, Parser.perform, Parser.expectChoice] at hrun
    split at hrun
    · exact ⟨‹_›, .of_withPosition hrun⟩
    · cases hrun
  exact Secures.bind htoken fun _ _ hlater => Secures.pure hlater

theorem expectChoice {kind : TokenKind} (h : kind.levelBehind low = some high) :
    (Program.expectChoice kind).Crosses budget low high parser :=
  expectChoice_secures.mono fun _ _ hlater => .of_consumes hlater.2 (hlater.1 ▸ h)

theorem loop {body : σ → Program (σ ⊕ α)} {state : σ}
    (h : ∀ state parser, (body state).Crosses budget low low parser) :
    (Program.loop body state).Crosses budget low low parser := by
  refine Secures.loop (fun _ later => parser.Crosses later low low) (.of_upcoming rfl) fun state between hcrosses => ?_
  refine (h state between).mono fun result later hround => ?_
  cases result <;> exact hcrosses.trans hround

theorem nested {body : Program α} (h : body.Crosses budget low high parser.deeper) :
    (Program.nested body).Crosses budget low high parser :=
  Secures.nested h

theorem attemptIf {condition : Bool} {body : Program α}
    (h : condition = true → body.Crosses budget low low parser.deeper) :
    (Program.attemptIf condition body).Crosses budget low low parser := by
  have hattempt : Secures budget (Program.attemptIf condition body) parser fun found later =>
      (∀ value, found = some value → parser.Crosses later low low) ∧ (found = none → later.cursor = parser.cursor) :=
    Secures.attemptIf h
  refine hattempt.mono fun found later hfound => ?_
  cases found with
  | some value => exact hfound.1 value rfl
  | none => exact .of_upcoming (upcoming_congr (hfound.2 rfl))

theorem attempt {body : Program α} (h : body.Crosses budget low low parser.deeper) :
    (Program.attempt body).Crosses budget low low parser :=
  show (Program.attemptIf true body).Crosses budget low low parser from attemptIf fun _ => h

end Crosses

namespace Balanced

theorem crosses (h : program.Balanced budget) (level : Nat) : program.Crosses budget level level parser :=
  (h parser).mono fun _ _ hcrosses => by simpa only [Nat.zero_add] using hcrosses.add level

theorem nested {body : Program α} (h : body.Balanced budget) : (Program.nested body).Balanced budget :=
  fun parser => Crosses.nested (h parser.deeper)

theorem attempt {body : Program α} (h : body.Balanced budget) : (Program.attempt body).Balanced budget :=
  fun parser => Crosses.attempt (h parser.deeper)

theorem separated {separator : TokenKind} (hitem : program.Balanced budget)
    (h : separator.levelBehind low = some low) : (Program.separated separator program).Crosses budget low low parser := by
  refine Crosses.loop fun items parser => (hitem.crosses low).bind fun item later => ?_
  refine (Crosses.accept h).bind fun goesOn last => ?_
  split <;> exact .pure

theorem after {kind : TokenKind} (h : kind.levelBehind 0 = some 0) (hbody : program.Balanced budget) :
    (Program.after kind program).Balanced budget := fun parser => by
  refine (Crosses.accept h).bind fun isThere later => ?_
  split
  · exact (hbody later).bind fun _ _ => .pure
  · exact .pure

theorem parenthesized (h : ∀ parser, program.Crosses budget 1 1 parser) :
    (Grammar.parenthesized program).Balanced budget := fun _ =>
  (Crosses.expect rfl).bind fun _ opened => (h opened).bind fun _ _ => (Crosses.expect rfl).bind fun _ _ => .pure

theorem tryRules {rules : List Rule} (h : ∀ rule ∈ rules, (Program.rule rule).Balanced budget) :
    (Program.tryRules rules).Balanced budget := by
  induction rules with
  | nil => exact fun _ => .pure
  | cons first rest ih =>
    obtain ⟨hfirst, hrest⟩ := List.forall_mem_cons.mp h
    refine fun parser => (hfirst.attempt parser).bind fun found later => ?_
    split
    · exact .pure
    · exact ih hrest later

end Balanced

end Program

end AdaSyntax
