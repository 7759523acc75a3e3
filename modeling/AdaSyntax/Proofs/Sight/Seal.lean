import AdaSyntax.Proofs.Discipline.Adequacy
import AdaSyntax.Proofs.Parser.Twin

namespace AdaSyntax

namespace Program

open AdaSyntax.Parser

variable {shared : Nat} {α β : Type}

def Stays : ∀ {α : Type}, Program α → Prop
  | _, .pure _ => True
  | _, .bind first next => Stays first ∧ ∀ value, Stays (next value)
  | _, .step op => op.looks = false
  | _, _ => False

class Still (program : Program α) : Prop where
  stays : program.Stays

instance (value : α) : Still (Pure.pure value : Program α) := ⟨trivial⟩

instance (value : α) : Still (Program.pure value) := ⟨trivial⟩

instance (first : Program β) (next : β → Program α) [hfirst : Still first] [hnext : ∀ value, Still (next value)] :
    Still (first >>= next) :=
  ⟨hfirst.stays, fun value => (hnext value).stays⟩

theorem Stays.run_cursor {program : Program α} (h : program.Stays)
    (calls : ∀ {α : Type}, Production α → Parser → Reply α × Parser) (parser : Parser) :
    (program.run calls parser).2.position = parser.position ∧
      (program.run calls parser).2.reach = parser.reach := by
  induction program generalizing parser with
  | pure value => exact ⟨rfl, rfl⟩
  | bind body next ihfirst ihnext =>
    obtain ⟨hposition, hreach⟩ := ihfirst h.1 parser
    change (Program.run calls (body >>= next) parser).2.position = _ ∧ (Program.run calls (body >>= next) parser).2.reach = _
    rw [run_bind]
    generalize body.run calls parser = result at hposition hreach ⊢
    obtain ⟨reply, later⟩ := result
    cases reply with
    | matched value =>
      obtain ⟨hposition', hreach'⟩ := ihnext value (h.2 value) later
      exact ⟨hposition'.trans hposition, hreach'.trans hreach⟩
    | _ => exact ⟨hposition, hreach⟩
  | step op =>
    have hlooks : op.looks = false := h
    have hconsumes : op.consumes = false := by
      cases op <;> first | rfl | cases hlooks
    exact parser.perform_still hconsumes
  | _ => exact h.elim

theorem Stays.run_twins {program : Program α} (h : program.Stays) {noted : Bool} {done : Bool → α → Prop}
    (hminds : program.Heeds (Below shared) noted done)
    (calls calls' : ∀ {α : Type}, Production α → Parser → Reply α × Parser) {tokens : Array Token} {first second : Parser}
    (htwins : Twins tokens shared first second) (hle : first.position ≤ shared) (hpos : 0 < shared) :
    (program.run calls' second).1 = (program.run calls first).1 ∧
      Twins tokens shared (program.run calls first).2 (program.run calls' second).2 ∧
      ∀ value, (program.run calls first).1 = .matched value → ∃ noted, done noted value := by
  induction program generalizing first second noted with
  | pure value => exact ⟨rfl, htwins, fun _ heq => Reply.matched.inj heq ▸ ⟨noted, hminds⟩⟩
  | bind body next ihfirst ihnext =>
    obtain ⟨hreply, hlater, hdone⟩ := ihfirst h.1 hminds htwins hle
    have hposition := (h.1.run_cursor calls first).1
    change (Program.run calls' (body >>= next) second).1 = (Program.run calls (body >>= next) first).1 ∧
      Twins tokens shared (Program.run calls (body >>= next) first).2 (Program.run calls' (body >>= next) second).2 ∧
      ∀ value, (Program.run calls (body >>= next) first).1 = .matched value → _
    rw [run_bind, run_bind]
    generalize body.run calls first = result at hreply hlater hdone hposition ⊢
    generalize body.run calls' second = result' at hreply hlater ⊢
    obtain ⟨reply, later⟩ := result
    obtain ⟨reply', later'⟩ := result'
    obtain rfl : reply' = reply := hreply
    cases reply' with
    | matched value =>
      obtain ⟨noted, hnext⟩ := hdone value rfl
      exact ihnext value (h.2 value) hnext hlater (Nat.le_trans (Nat.le_of_eq hposition) hle)
    | _ => exact ⟨rfl, hlater, nofun⟩
  | step op =>
    obtain ⟨hreply, hlater⟩ := htwins.perform_of_not_looks hle hpos h hminds.1
    refine ⟨hreply, hlater, fun value _ => ⟨_, hminds.2 value ?_⟩⟩
    have hlooks : op.looks = false := h
    cases op <;> trivial
  | _ => exact h.elim

end Program

def Parser.lastKind? (parser : Parser) : Option TokenKind :=
  parser.cursor.tokens[parser.position - 1]?.map (·.kind)

namespace Program

open AdaSyntax.Parser

variable {shared : Nat} {given : Prop} {α β : Type}

inductive Meets (tokens : Array Token) (shared : Nat) (value : α) (later : Parser) : Reply α × Parser → Prop where
  | exhausted {parser : Parser} : Meets tokens shared value later (.exhausted, parser)
  | matched {later' : Parser} (h : Twins tokens shared later later') :
      Meets tokens shared value later (.matched value, later')

structure Closes (shared : Nat) (given : Prop) (program : Program α) : Prop where
  moves {budget : Nat} {parser later : Parser} {value : α} :
    program.run (Grammar.call budget) parser = (.matched value, later) →
      parser.position < later.position ∧ later.lastKind? = some .semicolon
  meets {budget : Nat} (budget' : Nat) {tokens : Array Token} {first second later : Parser} {value : α} : given →
    program.run (Grammar.call budget) first = (.matched value, later) → first.symbols.Recoverable →
      Twins tokens shared first second → first.position < shared → later.position ≤ shared → later.reach ≤ shared →
        Meets tokens shared value later (program.run (Grammar.call budget') second)

namespace Closes

variable {good : β → Prop}

theorem after {first : Program β} {next : β → Program α} (hminds : given → first.Minds (Below shared) good)
    (hnext : ∀ value, (next value).Closes shared (given ∧ good value))
    (hall : first.Minds (fun _ => True) fun _ => True := by exact Minds.of_heedful _) :
    (first >>= next).Closes shared given where
  moves {budget parser later value} hrun := by
    obtain ⟨middle, between, hfirst, hrest⟩ := run_bind_matched hrun
    have hle := (first.run_allows (Grammar.call_allows budget) parser).continues.position_le
    rw [hfirst] at hle
    obtain ⟨hlt, hkind⟩ := (hnext middle).moves hrest
    exact ⟨Nat.lt_of_le_of_lt hle hlt, hkind⟩
  meets {budget} budget' {tokens parser parser' later value} hgiven hrun hrecoverable htwins hlt hle hreach := by
    obtain ⟨middle, between, hfirst, hrest⟩ := run_bind_matched hrun
    have hmoved := ((hnext middle).moves hrest).1
    have hreach' := reach_le_of_run hrest nofun nofun
    have hagrees := (Heeds.couples (twin_sound tokens shared) (call_couples (twin_sound tokens shared) budget budget')
      (hminds hgiven) hall).agrees (.run first budget) hrecoverable htwins
    have hlater := (Tandem.Proceeds.run first budget).recoverable hrecoverable
    rw [hfirst] at hagrees hlater
    rw [run_bind]
    generalize first.run (Grammar.call budget') parser' = result at hagrees ⊢
    cases hagrees with
    | exhausted' => exact .exhausted
    | strays h =>
      have hstray : shared ≤ between.position ∨ shared < between.reach := h.2
      omega
    | same h hgood =>
      obtain ⟨-, hvalue⟩ := (hgood middle rfl).1
      exact (hnext middle).meets budget' ⟨hgiven, hvalue⟩ hrest hlater h (Nat.lt_of_lt_of_le hmoved hle) hle hreach

theorem imp {given' : Prop} {program : Program α} (h : program.Closes shared given) (himp : given' → given) :
    program.Closes shared given' :=
  ⟨h.moves, fun budget' _ _ _ _ _ hgiven => h.meets budget' (himp hgiven)⟩

theorem skip {p : Program β} {next : β → Program α} [Heedful p]
    (hnext : ∀ value, (next value).Closes shared given) : (p >>= next).Closes shared given :=
  after (fun _ => Minds.of_heedful p) fun value => (hnext value).imp And.left

theorem still {first : Program β} {next : β → Program α} [hstill : ∀ value, Still (next value)]
    (hfirst : first.Closes shared given) (hnext : given → ∀ value, (next value).Minds (Below shared) fun _ => True) :
    (first >>= next).Closes shared given where
  moves {budget parser later value} hrun := by
    obtain ⟨middle, between, hfirst', hrest⟩ := run_bind_matched hrun
    obtain ⟨hlt, hkind⟩ := hfirst.moves hfirst'
    have hposition := ((hstill middle).stays.run_cursor (Grammar.call budget) between).1
    have htokens := ((next middle).run_allows (Grammar.call_allows budget) between).continues.moves.tokens
    rw [hrest] at hposition htokens
    simp only [lastKind?] at hkind ⊢
    rw [hposition, htokens]
    exact ⟨hlt, hkind⟩
  meets {budget} budget' {tokens parser parser' later value} hgiven hrun hrecoverable htwins hlt hle hreach := by
    obtain ⟨middle, between, hfirst', hrest⟩ := run_bind_matched hrun
    obtain ⟨hposition, hreach'⟩ := (hstill middle).stays.run_cursor (Grammar.call budget) between
    rw [hrest] at hposition hreach'
    have hmeets := hfirst.meets budget' hgiven hfirst' hrecoverable htwins hlt
      (Nat.le_trans (Nat.le_of_eq hposition.symm) hle) (Nat.le_trans (Nat.le_of_eq hreach'.symm) hreach)
    rw [run_bind]
    generalize first.run (Grammar.call budget') parser' = result at hmeets ⊢
    cases hmeets with
    | exhausted => exact .exhausted
    | @matched between' h =>
      obtain ⟨hreply, hlater, -⟩ := (hstill middle).stays.run_twins (hnext hgiven middle) (Grammar.call budget)
        (Grammar.call budget') h (Nat.le_trans (Nat.le_of_eq hposition.symm) hle) (Nat.zero_lt_of_lt hlt)
      rw [hrest] at hreply hlater
      dsimp only
      generalize (next middle).run (Grammar.call budget') between' = result at hreply hlater ⊢
      obtain ⟨reply, later'⟩ := result
      obtain rfl : reply = .matched value := hreply
      exact .matched hlater

theorem semicolon : (expect .semicolon).Closes shared given where
  moves {budget parser later value} hrun := by
    change (Program.step (.expect .semicolon) >>= fun _ => Pure.pure ()).run _ parser = _ at hrun
    obtain ⟨token, between, hfirst, hrest⟩ := run_bind_matched hrun
    obtain rfl : between = later := (Prod.mk.inj hrest).2
    change withPosition parser.position (parser.expect .semicolon) = _ at hfirst
    unfold Parser.expect at hfirst
    split at hfirst
    next hkind =>
      unfold Parser.take at hfirst
      cases hadvance : parser.cursor.advance with
      | error error => rw [hadvance] at hfirst; cases hfirst
      | ok result =>
        rw [hadvance] at hfirst
        obtain rfl : { parser with cursor := result.2 } = between := (Prod.mk.inj hfirst).2
        obtain ⟨htokens, hposition⟩ := Cursor.advance_eq hadvance
        refine ⟨Nat.lt_of_lt_of_eq (Nat.lt_succ_self _) hposition.symm, ?_⟩
        have hlast : result.2.position - 1 = parser.cursor.position := by omega
        have hkind' : parser.cursor.current.kind = .semicolon := hkind
        simp only [lastKind?, Parser.position, hlast, htokens]
        rw [parser.cursor.getElem?_tokenAt parser.cursor.position_lt, Cursor.tokenAt_position, Option.map_some, hkind']
    next => split at hfirst <;> cases hfirst
  meets {budget} budget' {tokens parser parser' later value} _ hrun _ htwins hlt _ _ := by
    obtain ⟨hreply, hlater⟩ := htwins.perform hlt (show (Op.expect .semicolon).Minds (Below shared) from trivial)
    change (Program.step (.expect .semicolon) >>= fun _ => Pure.pure ()).run _ parser = _ at hrun
    change Meets tokens shared value later ((Program.step (.expect .semicolon) >>= fun _ => Pure.pure ()).run _ parser')
    obtain ⟨token, between, hfirst, hrest⟩ := run_bind_matched hrun
    obtain rfl : between = later := (Prod.mk.inj hrest).2
    change parser.perform (.expect .semicolon) = _ at hfirst
    rw [hfirst] at hreply hlater
    have hsecond : (Program.step (.expect .semicolon)).run (Grammar.call budget') parser' =
        (.matched token, (parser'.perform (.expect .semicolon)).2) := Prod.ext hreply rfl
    rw [run_bind, hsecond]
    exact .matched hlater

theorem rule {rule : Rule} (h : (Grammar.ofRule rule).Closes shared given) : (Program.rule rule).Closes shared given where
  moves {budget parser later value} hrun := by
    cases budget with
    | zero => cases hrun
    | succ budget => exact h.moves hrun
  meets {budget} budget' {tokens parser parser' later value} hgiven hrun hrecoverable htwins hlt hle hreach := by
    cases budget with
    | zero => cases hrun
    | succ budget =>
      cases budget' with
      | zero => exact .exhausted
      | succ budget' => exact h.meets budget' hgiven hrun hrecoverable htwins hlt hle hreach

end Closes

theorem run_attempt_matched {body : Program β} {budget : Nat} {parser later : Parser} {found : Option β}
    (h : (Program.attempt body).run (Grammar.call budget) parser = (.matched found, later)) :
    (∃ value, found = some value ∧ parser.attempt (body.run (Grammar.call budget)) = (.matched value, later)) ∨
      found = none ∧ parser.attempt (body.run (Grammar.call budget)) = (.mismatch, later) := by
  rw [run_attempt] at h
  generalize parser.attempt (body.run (Grammar.call budget)) = result at h ⊢
  obtain ⟨reply, between⟩ := result
  cases reply with
  | matched value =>
    obtain ⟨hfound, rfl⟩ := Prod.mk.inj h
    exact .inl ⟨value, (Reply.matched.inj hfound).symm, rfl⟩
  | mismatch =>
    obtain ⟨hfound, rfl⟩ := Prod.mk.inj h
    exact .inr ⟨(Reply.matched.inj hfound).symm, rfl⟩
  | fatal error => cases h
  | exhausted => cases h

namespace Closes

theorem attempt {body : Program α} (h : body.Closes shared given) {budget : Nat} (budget' : Nat) (hgiven : given)
    {tokens : Array Token} {first second later : Parser} {value : α}
    (hrun : first.attempt (body.run (Grammar.call budget)) = (.matched value, later))
    (hrecoverable : first.symbols.Recoverable) (htwins : Twins tokens shared first second)
    (hlt : first.position < shared) (hle : later.position ≤ shared) (hreach : later.reach ≤ shared) :
    Meets tokens shared value later (second.attempt (body.run (Grammar.call budget'))) := by
  have sound := twin_sound tokens shared
  obtain ⟨hdepth, inner, hinner, rfl⟩ := attempt_matched hrun
  have hmeets := h.meets budget' hgiven hinner hrecoverable (sound.deeper htwins) hlt hle hreach
  have hcovers := nested_covers (((Tandem.Proceeds.run body budget').since second.deeper second.deeper .refl).covers
    (htwins.symbols ▸ hrecoverable))
  have hdescend : second.descend = .ok second.deeper := by
    obtain @⟨cursor, -, -, -⟩ := htwins
    exact if_neg (Nat.not_le.mpr hdepth)
  unfold Parser.attempt
  unfold Parser.nested at hcovers ⊢
  rw [hdescend] at hcovers ⊢
  dsimp only at hcovers ⊢
  generalize body.run (Grammar.call budget') second.deeper = result at hmeets hcovers ⊢
  cases hmeets with
  | exhausted =>
    simp only [settle, hcovers.restore]
    exact .exhausted
  | matched hlater => exact .matched (sound.ascend hlater)

section

variable {rules : List Rule} (h : ∀ rule ∈ rules, (Program.rule rule).Closes shared given)

include h

theorem tryRules_moves {budget : Nat} {parser later : Parser} {node : NodeId}
    (hrun : (tryRules rules).run (Grammar.call budget) parser = (.matched (some node), later)) :
    parser.position < later.position ∧ later.lastKind? = some .semicolon := by
  induction rules generalizing parser with
  | nil => cases hrun
  | cons rule rules ih =>
    obtain ⟨hrule, hrules⟩ := List.forall_mem_cons.mp h
    obtain ⟨found, between, hattempt, hrest⟩ := run_bind_matched hrun
    rcases run_attempt_matched hattempt with ⟨value, rfl, hmatched⟩ | ⟨rfl, -⟩
    · obtain ⟨-, inner, hinner, rfl⟩ := attempt_matched hmatched
      obtain ⟨-, rfl⟩ := Prod.mk.inj hrest
      have hmoves := hrule.moves hinner
      exact hmoves
    · have hle := ((Program.attempt (Program.rule rule)).run_allows (Grammar.call_allows budget) parser).continues.position_le
      rw [hattempt] at hle
      obtain ⟨hlt, hkind⟩ := ih hrules hrest
      exact ⟨Nat.lt_of_le_of_lt hle hlt, hkind⟩

theorem tryRules_meets {budget : Nat} (budget' : Nat) (hgiven : given) {tokens : Array Token}
    {first second later : Parser} {node : NodeId}
    (hrun : (tryRules rules).run (Grammar.call budget) first = (.matched (some node), later))
    (hrecoverable : first.symbols.Recoverable) (htwins : Twins tokens shared first second)
    (hlt : first.position < shared) (hle : later.position ≤ shared) (hreach : later.reach ≤ shared) :
    Meets tokens shared (some node) later ((tryRules rules).run (Grammar.call budget') second) := by
  induction rules generalizing first second with
  | nil => cases hrun
  | cons rule rules ih =>
    obtain ⟨hrule, hrules⟩ := List.forall_mem_cons.mp h
    obtain ⟨found, between, hattempt, hrest⟩ := run_bind_matched hrun
    change Meets tokens shared (some node) later ((Program.attempt (Program.rule rule) >>= _).run _ second)
    rw [run_bind]
    rcases run_attempt_matched hattempt with ⟨value, rfl, hmatched⟩ | ⟨rfl, hfailed⟩
    · obtain ⟨hvalue, rfl⟩ := Prod.mk.inj hrest
      obtain rfl : value = node := Option.some.inj (Reply.matched.inj hvalue)
      have hmeets := hrule.attempt budget' hgiven hmatched hrecoverable htwins hlt hle hreach
      rw [run_attempt]
      generalize second.attempt ((Program.rule rule).run (Grammar.call budget')) = result at hmeets ⊢
      cases hmeets with
      | exhausted => exact .exhausted
      | matched hlater => exact .matched hlater
    · have hposition : between.position = first.position := by
        have hcursor := @attempt_cursor _ first _ ((Program.rule rule).run_allows (Grammar.call_allows budget))
        rw [hfailed] at hcursor
        exact congrArg Cursor.position (hcursor nofun)
      have hreach' := reach_le_of_run hrest nofun nofun
      have hagrees := run_agrees (twin_sound tokens shared) (Program.attempt (Program.rule rule)) budget budget'
        hrecoverable htwins
      have hlater := (Tandem.Proceeds.run (Program.attempt (Program.rule rule)) budget).recoverable hrecoverable
      rw [hattempt] at hagrees hlater
      generalize (Program.attempt (Program.rule rule)).run (Grammar.call budget') second = result at hagrees ⊢
      cases hagrees with
      | exhausted' => exact .exhausted
      | strays hstrays =>
        have hstray : shared ≤ between.position ∨ shared < between.reach := hstrays.2
        omega
      | same htwins _ => exact ih hrules hrest hlater htwins (Nat.lt_of_le_of_lt (Nat.le_of_eq hposition) hlt)

theorem firstOf : (Program.firstOf rules).Closes shared given where
  moves {budget parser later value} hrun := by
    obtain ⟨found, between, htry, hrest⟩ := run_bind_matched hrun
    cases found with
    | none => cases hrest
    | some node =>
      obtain ⟨-, rfl⟩ := Prod.mk.inj hrest
      exact tryRules_moves h htry
  meets {budget} budget' {tokens parser parser' later value} hgiven hrun hrecoverable htwins hlt hle hreach := by
    obtain ⟨found, between, htry, hrest⟩ := run_bind_matched hrun
    cases found with
    | none => cases hrest
    | some node =>
      obtain ⟨hvalue, rfl⟩ := Prod.mk.inj hrest
      have hmeets := tryRules_meets h budget' hgiven htry hrecoverable htwins hlt hle hreach
      change Meets tokens shared value between ((tryRules rules >>= _).run _ parser')
      rw [run_bind]
      generalize (tryRules rules).run (Grammar.call budget') parser' = result at hmeets ⊢
      cases hmeets with
      | exhausted => exact .exhausted
      | matched hlater => exact Reply.matched.inj hvalue ▸ .matched hlater

end

end Closes

end Program

namespace Program

instance : Still closeRegion := ⟨rfl⟩

instance (start : Nat) (payload : Payload Nat) : Still (add start payload) := ⟨rfl⟩

instance (id : NodeId) (start : Nat) (payload : Payload Nat) : Still (fill id start payload) := ⟨rfl⟩

instance (name : DefiningName Nat) (kind : SymbolKind) (node : NodeId) : Still (declare name kind node) := ⟨rfl⟩

instance (id : NodeId) : Still (inspect id) := ⟨rfl⟩

instance (id : NodeId) : Still (classify id) := inferInstanceAs (Still (_ >>= _))

instance (id : SymbolId) : Still (.step (.bind id)) := ⟨rfl⟩

instance (id : SymbolId) : Still (.step (.kindOf id)) := ⟨rfl⟩

instance (id : SymbolId) : Still (.step (.declaredHere id)) := ⟨rfl⟩

instance (owner : SymbolId) (members : Members) : Still (.step (.publish owner members)) := ⟨rfl⟩

end Program

namespace Grammar

open Program

variable {shared : Nat}

theorem packageDeclaration_closes : packageDeclaration.Closes shared True :=
  .skip fun _ => .still .semicolon fun _ _ => .done trivial

theorem packageBody_closes : packageBody.Closes shared True := by
  refine .after (fun _ => position_minds) fun start => .skip fun _ => .skip fun _ => ?_
  refine .after (fun _ => definingIdentifier_minds) fun name => .skip fun _ => .skip fun _ => .skip fun _ => ?_
  refine .skip fun _ => .skip fun declarations => .skip fun body => .skip fun _ => .skip fun endName => ?_
  exact .still .semicolon fun ⟨⟨_, hstart⟩, hname⟩ _ => .skip fun _ => add_minds hstart (one_name hname)

theorem subprogramDeclaration_closes : subprogramDeclaration.Closes shared True := by
  refine .after (fun _ => position_minds) fun start => .after (fun hstart => reserve_minds hstart.2) (fun node => ?_)
    (reserve_minds trivial)
  refine .after (fun _ => subprogramSpecification_minds node false) (fun header => ?_)
    (subprogramSpecification_minds node false).forget
  exact .still .semicolon fun ⟨⟨⟨_, hstart⟩, _⟩, _⟩ _ => .skip fun _ => (fill_minds hstart).bind fun _ _ => .done trivial

theorem subprogramBody_closes : subprogramBody.Closes shared True := by
  refine .after (fun _ => position_minds) fun start => .after (fun hstart => reserve_minds hstart.2) (fun node => ?_)
    (reserve_minds trivial)
  refine .after (fun _ => subprogramSpecification_minds node false) (fun header => .skip fun _ => .skip fun _ => ?_)
    (subprogramSpecification_minds node false).forget
  refine .skip fun declarations => .skip fun _ => .skip fun body => .skip fun _ => .skip fun endName => ?_
  exact .still .semicolon fun ⟨⟨⟨_, hstart⟩, _⟩, _⟩ _ => .skip fun _ => (fill_minds hstart).bind fun _ _ => .done trivial

instance (synonym : SymbolId) (target : Option SymbolId) : Still (publishAs synonym target) := by
  cases target <;> exact ⟨by trivial⟩

instance (template : NodeId) : Still (packageTemplate template) where
  stays := by
    refine ⟨Still.stays, fun named => ?_⟩
    dsimp only
    split <;> trivial

theorem genericInstantiation_closes : genericInstantiation.Closes shared True := by
  refine .after (fun _ => position_minds) fun start => .skip fun (kind, symbolKind) => ?_
  refine .after (fun _ => instanceDesignator_minds kind) (fun name => .skip fun _ => .skip fun _ => ?_)
    (instanceDesignator_minds kind).forget
  refine .skip fun template => .skip fun actuals => ?_
  exact .still .semicolon fun ⟨⟨_, hstart⟩, hname⟩ _ =>
    .add hstart (one_name hname) fun node => (declare_minds hname _ _).bind fun _ _ => .skip fun _ => .skip fun _ =>
      .done trivial

theorem genericDeclaration_closes : genericDeclaration.Closes shared True := by
  have : Heedful (firstOf Rule.genericFormals) := firstOf_heedful (by decide)
  have : Heedful (.items .genericFormalPart .unrecognizedDeclaration (firstOf Rule.genericFormals)) := items_heedful (by decide)
  refine .after (fun _ => position_minds) fun start => .skip fun _ => .after (fun hstart => reserve_minds hstart.2)
    (fun node => .skip fun _ => .skip fun formals => .skip fun (unit, symbol) => ?_) (reserve_minds trivial)
  exact .still .semicolon fun ⟨⟨_, hstart⟩, _⟩ _ =>
    .skip fun _ => .skip (p := .step (.publish _ _)) fun _ => .skip (p := .step (.bind _)) fun _ =>
      .fill hstart (unnamed rfl) fun _ => .done trivial

theorem libraryUnits_close {given : Prop} : (firstOf Rule.libraryUnits).Closes shared given := by
  refine .firstOf fun rule hmem => Closes.rule (Closes.imp (?_ : Closes shared True _) fun _ => trivial)
  simp only [Rule.libraryUnits, List.mem_cons, List.not_mem_nil, or_false] at hmem
  rcases hmem with rfl | rfl | rfl | rfl | rfl | rfl
  · exact genericDeclaration_closes
  · exact genericInstantiation_closes
  · exact packageDeclaration_closes
  · exact packageBody_closes
  · exact subprogramDeclaration_closes
  · exact subprogramBody_closes

theorem subunit_closes : subunit.Closes shared True := by
  refine .after (fun _ => position_minds) fun start => .skip fun _ => .skip fun parent => .skip fun _ => ?_
  refine .still (.firstOf fun rule hmem => Closes.rule (Closes.imp (?_ : Closes shared True _) fun _ => trivial)) fun hstart body =>
    add_minds hstart.2
  simp only [List.mem_cons, List.not_mem_nil, or_false] at hmem
  rcases hmem with rfl | rfl
  · exact subprogramBody_closes
  · exact packageBody_closes

instance (condition : Prop) [Decidable condition] {α : Type} (first second : Program α) [Still first] [Still second] :
    Still (if condition then first else second) := by
  split <;> infer_instance

instance (ids : List SymbolId) : Still (moveToLibrary ids) := by
  induction ids with
  | nil => exact ⟨trivial⟩
  | cons id ids ih => exact inferInstanceAs (Still (_ >>= _))

theorem compilationUnit_closes : compilationUnit.Closes shared True := by
  have : Heedful (firstOf Rule.libraryUnits) := firstOf_heedful (by decide)
  refine .after (fun _ => position_minds) fun start => .skip fun _ => .skip fun context => .skip fun isSubunit => ?_
  dsimp only
  split
  · refine .still (subunit_closes.imp fun _ => trivial) fun hstart unit => .skip fun members => ?_
    split
    · exact .skip fun _ => add_minds hstart.2
    · exact add_minds hstart.2
  · refine .still libraryUnits_close fun hstart unit => .skip fun members => ?_
    split
    · exact .skip fun _ => add_minds hstart.2
    · exact add_minds hstart.2

end Grammar

end AdaSyntax
