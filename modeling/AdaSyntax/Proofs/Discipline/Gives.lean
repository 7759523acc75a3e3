import AdaSyntax.Proofs.Discipline.Basic

namespace AdaSyntax

namespace Stage

variable {stage later first second third : Stage}

namespace Reaches

theorem refl (stage : Stage) : stage.Reaches stage := ⟨Nat.le_refl _, id, rfl⟩

theorem trans (h : third.Reaches second) (h' : second.Reaches first) : third.Reaches first where
  limit := Nat.le_trans h'.limit h.limit
  moved := h.moved ∘ h'.moved
  holes := h.holes.trans h'.holes

theorem after (h : later.Reaches stage) (consumes : Bool) : (later.after consumes).Reaches (stage.after consumes) := by
  cases consumes with
  | true => exact ⟨Nat.le_refl _, id, h.holes⟩
  | false => exact h

theorem next {α : Type} (h : later.Reaches stage) (op : Op α) (value : α) :
    (op.next later value).Reaches (op.next stage value) := by
  cases op with
  | reserve start => exact ⟨h.limit, h.moved, congrArg (value :: ·) h.holes⟩
  | fill id start payload => exact ⟨h.limit, h.moved, congrArg List.tail h.holes⟩
  | _ => exact h.after _

end Reaches

theorem advance_reaches (stage : Stage) : stage.advance.Reaches stage :=
  ⟨Fin.le_last _, fun _ => rfl, rfl⟩

theorem after_reaches (stage : Stage) (consumes : Bool) : (stage.after consumes).Reaches stage := by
  cases consumes with
  | true => exact stage.advance_reaches
  | false => exact .refl _

end Stage

theorem Op.Asks.mono {α : Type} {op : Op α} {know : Knowledge} {stage later : Stage} (h : op.Asks know stage)
    (hlater : later.Reaches stage) : op.Asks know later := by
  cases op with
  | fill id start payload => exact ⟨hlater.holes ▸ h.1, h.2⟩
  | _ => exact h

namespace Program

variable {α β σ : Type} {know : Knowledge} {stage later : Stage} {good : α → Prop}

theorem Assures.mono {program : Program α} {done done' : Stage → α → Prop}
    (h : program.Assures know stage done) (hlater : later.Reaches stage)
    (hdone : ∀ last last' value, last'.Reaches last → done last value → done' last' value) :
    program.Assures know later done' := by
  induction program generalizing know stage later with
  | pure value => exact hdone _ _ value hlater h
  | bind first next ihfirst ihnext =>
    exact ihfirst h hlater fun last last' value hlast hnext => ihnext value hnext hlast hdone
  | step op =>
    exact ⟨h.1.mono hlater, fun value hvalue => hdone _ _ _ (hlater.next op value) (h.2 value hvalue)⟩
  | reject expected => trivial
  | fail => trivial
  | call production =>
    exact ⟨Nat.lt_of_lt_of_le h.1 hlater.limit, fun value hvalue => hdone _ _ _ (hlater.after _) (h.2 value hvalue)⟩
  | attempt body ih =>
    refine ⟨fun inner hinner => ?_, hdone _ _ _ hlater h.2⟩
    refine ih (h.1 inner hinner) ⟨hlater.limit, hlater.moved, rfl⟩ fun last last' value hlast ⟨hholes, hvalue⟩ => ?_
    refine ⟨hlast.holes.trans hholes, hdone _ _ _ ?_ hvalue⟩
    exact ⟨hlast.limit, hlast.moved, hlater.holes⟩
  | nested body ih =>
    refine fun inner hinner => ih (h inner hinner) ⟨hlater.limit, hlater.moved, rfl⟩
      fun last last' value hlast ⟨hholes, hvalue⟩ => ?_
    refine ⟨hlast.holes.trans hholes, hdone _ _ _ ?_ hvalue⟩
    exact ⟨hlast.limit, hlast.moved, hlater.holes⟩
  | loop body state ih =>
    obtain ⟨keeps, hkeeps, hround⟩ := h
    refine ⟨keeps, hkeeps, fun state hstate => ?_⟩
    refine ih state (hround state hstate) ⟨hlater.limit, id, hlater.holes⟩ fun last last' result hlast h => ?_
    refine ⟨hlast.holes.trans (h.1.trans hlater.holes.symm), ?_⟩
    cases result with
    | inl state => exact ⟨hlast.moved h.2.1, h.2.2⟩
    | inr value =>
      refine hdone { last with moved := stage.moved || last.moved } _ _ ⟨hlast.limit, fun hmoved => ?_, hlast.holes⟩ h.2
      exact Bool.or_eq_true_iff.mpr ((Bool.or_eq_true_iff.mp hmoved).imp hlater.moved hlast.moved)
  | items context code item ih =>
    refine ⟨fun inner hinner => ?_, fun nodes hnodes => hdone _ _ _ hlater (h.2 nodes hnodes)⟩
    refine ih (h.1 inner hinner) ⟨hlater.limit, id, rfl⟩ fun last last' node hlast ⟨hholes, hmoved, hnode⟩ => ?_
    exact ⟨hlast.holes.trans hholes, hlast.moved hmoved, hnode⟩

theorem Assures.imp {program : Program α} {done done' : Stage → α → Prop} (h : program.Assures know stage done)
    (hdone : ∀ last value, done last value → done' last value) : program.Assures know stage done' := by
  induction program generalizing know stage with
  | pure value => exact hdone _ _ h
  | bind first next ihfirst ihnext => exact ihfirst h fun last value hlast => ihnext value hlast hdone
  | step op => exact ⟨h.1, fun value hvalue => hdone _ _ (h.2 value hvalue)⟩
  | reject expected => trivial
  | fail => trivial
  | call production => exact ⟨h.1, fun value hvalue => hdone _ _ (h.2 value hvalue)⟩
  | attempt body ih =>
    refine ⟨fun inner hinner => ?_, hdone _ _ h.2⟩
    exact ih (h.1 inner hinner) fun last value hlast => ⟨hlast.1, hdone _ _ hlast.2⟩
  | nested body ih =>
    exact fun inner hinner => ih (h inner hinner) fun last value hlast => ⟨hlast.1, hdone _ _ hlast.2⟩
  | loop body state ih =>
    obtain ⟨keeps, hkeeps, hround⟩ := h
    refine ⟨keeps, hkeeps, fun state hstate => ih state (hround state hstate) fun last result hlast => ⟨hlast.1, ?_⟩⟩
    cases result with
    | inl state => exact hlast.2
    | inr value => exact hdone _ _ hlast.2
  | items context code item ih => exact ⟨h.1, fun nodes hnodes => hdone _ _ (h.2 nodes hnodes)⟩

def Gives (know : Knowledge) (stage : Stage) (target : α → Stage) (program : Program α) (good : α → Prop) : Prop :=
  program.Assures know stage fun last value => last.Reaches (target value) ∧ good value

def Supplies (rank : Nat) (consumes : Bool) (program : Program α) (good : Knowledge → α → Prop) : Prop :=
  ∀ (know : Knowledge) (stage : Stage), stage.permits rank = true →
    program.Gives know stage (fun _ => stage.after consumes) (good know)

variable {target : α → Stage} {rank : Nat} {consumes : Bool}

namespace Gives

theorem bind {first : Program β} {next : β → Program α} {middle : β → Stage} {found : β → Prop}
    (hfirst : first.Gives know stage middle found)
    (hnext : ∀ value, found value → (next value).Gives know (middle value) target good) :
    (first >>= next).Gives know stage target good := by
  have hassures : first.Assures know stage fun last value => last.Reaches (middle value) ∧ found value := hfirst
  refine hassures.mono (.refl _) fun last last' value hlast ⟨hreaches, hvalue⟩ => ?_
  refine Assures.mono (hnext value hvalue) (hlast.trans hreaches) fun last last' value hlast ⟨hreaches, hgood⟩ => ?_
  exact ⟨hlast.trans hreaches, hgood⟩

theorem pure {value : α} (hreaches : stage.Reaches (target value)) (h : good value) :
    (Program.pure value).Gives know stage target good :=
  ⟨hreaches, h⟩

theorem pure_bind {value : β} {next : β → Program α} (h : (next value).Gives know stage target good) :
    ((Pure.pure value : Program β) >>= next).Gives know stage target good := h

theorem mono {program : Program α} {target' : α → Stage} {good' : α → Prop}
    (h : program.Gives know stage target good) (htarget : ∀ value, (target value).Reaches (target' value))
    (hgood : ∀ value, good value → good' value) : program.Gives know stage target' good' :=
  Assures.mono h (.refl _) fun _ _ value hlast ⟨hreaches, hvalue⟩ =>
    ⟨hlast.trans (hreaches.trans (htarget value)), hgood value hvalue⟩

theorem imp {program : Program α} {good' : α → Prop} (h : program.Gives know stage target good)
    (hgood : ∀ value, good value → good' value) : program.Gives know stage target good' :=
  h.mono (fun _ => .refl _) hgood

theorem reject {expected : String} : (Program.reject expected : Program α).Gives know stage target good := trivial

theorem reject_bind {expected : String} {next : β → Program α} :
    ((Program.reject expected : Program β) >>= next).Gives know stage target good := trivial

theorem fail : (Program.fail : Program α).Gives know stage target good := trivial

theorem step {op : Op α} (hasks : op.Asks know stage) (hnext : ∀ value, op.next stage value = stage)
    (hgood : ∀ value, op.Tells know value → good value) :
    (Program.step op).Gives know stage (fun _ => stage) good :=
  ⟨hasks, fun value htells => ⟨(hnext value).symm ▸ Stage.Reaches.refl stage, hgood value htells⟩⟩

theorem loop {body : σ → Program (σ ⊕ α)} {state : σ} (consumes : Bool) (keeps : σ → Prop) (h : keeps state)
    (hround : ∀ state, keeps state →
      (body state).Gives know { stage with moved := false }
        (fun result => Stage.after { stage with moved := false } (result.isLeft || consumes)) (Sum.elim keeps good)) :
    (Program.loop body state).Gives know stage (fun _ => stage.after consumes) good := by
  refine ⟨keeps, h, fun state hstate => ?_⟩
  refine Assures.mono (hround state hstate) (.refl _) fun last last' result hlast ⟨hreaches, hresult⟩ => ?_
  have hreaches := hlast.trans hreaches
  have hholes : ∀ consumes, (Stage.after { stage with moved := false } consumes).holes = stage.holes := by
    intro consumes
    cases consumes <;> rfl
  refine ⟨hreaches.holes.trans (hholes _), ?_⟩
  cases result with
  | inl state => exact ⟨hreaches.moved rfl, hresult⟩
  | inr value =>
    refine ⟨?_, hresult⟩
    cases consumes with
    | true => exact ⟨hreaches.limit, fun _ => Bool.or_eq_true_iff.mpr (.inr (hreaches.moved rfl)), hreaches.holes⟩
    | false => exact ⟨hreaches.limit, fun hmoved => Bool.or_eq_true_iff.mpr (.inl hmoved), hreaches.holes⟩

end Gives

namespace Supplies

variable {found : Knowledge → β → Prop} {given given' : Knowledge → α → Prop}

theorem gives {program : Program α} (h : program.Supplies rank consumes given) (hrank : stage.permits rank = true) :
    program.Gives know stage (fun _ => stage.after consumes) (given know) :=
  h know stage hrank

theorem bind {first : Program β} {next : β → Program α} (h : first.Supplies rank consumes found)
    (hrank : stage.permits rank = true)
    (hnext : ∀ value, found know value → (next value).Gives know (stage.after consumes) target good) :
    (first >>= next).Gives know stage target good :=
  (h.gives hrank).bind hnext

theorem imp {program : Program α} (h : program.Supplies rank consumes given)
    (hgood : ∀ (know : Knowledge) value, given know value → given' know value) :
    program.Supplies rank consumes given' :=
  fun know _ hrank => (h.gives hrank).imp (hgood know)

theorem whole {program : Program NodeId} (h : program.Supplies rank consumes Knowledge.shallow) :
    program.Supplies rank consumes Knowledge.whole :=
  h.imp fun know _ hnode => know.whole_of_shallow hnode

theorem forget {program : Program α} (h : program.Supplies rank consumes given) :
    program.Supplies rank false given :=
  fun _ stage hrank => (h.gives hrank).mono (fun _ => stage.after_reaches consumes) fun _ h => h

theorem map {first : Program β} {f : β → α} (h : first.Supplies rank consumes fun know value => given know (f value)) :
    Supplies rank consumes (first >>= fun value => .pure (f value)) given :=
  fun _ _ hrank => h.bind hrank fun _ hvalue => .pure (.refl _) hvalue

theorem call (production : Production α) :
    (Program.call production).Supplies (production.rank + 1) production.consumes fun know => production.Grants know :=
  fun _ _ hrank => ⟨Nat.le_of_ble_eq_true hrank, fun _ hgrants => ⟨.refl _, hgrants⟩⟩

theorem nested {body : Program α} (h : body.Supplies rank consumes given)
    (hgood : ∀ {inner know : Knowledge} {value}, inner.Below know → given inner value → given' know value) :
    (Program.nested body).Supplies rank consumes given' := by
  intro know stage hrank inner hinner
  refine Assures.mono (h inner { stage with holes := [] } hrank) (.refl _)
    fun last last' value hlast ⟨hreaches, hvalue⟩ => ?_
  have hreaches := hlast.trans hreaches
  cases consumes with
  | true => exact ⟨hreaches.holes, ⟨hreaches.limit, hreaches.moved, rfl⟩, hgood hinner hvalue⟩
  | false => exact ⟨hreaches.holes, ⟨hreaches.limit, hreaches.moved, rfl⟩, hgood hinner hvalue⟩

theorem attempt_gives {body : Program α} (h : body.Supplies rank consumes given)
    (hgood : ∀ {inner know : Knowledge} {value}, inner.Below know → given inner value → given' know value)
    (hrank : stage.permits rank = true) :
    (Program.attempt body).Gives know stage (fun found => stage.after (found.isSome && consumes))
      fun found => ∀ value ∈ found, given' know value := by
  refine ⟨fun inner hinner => ?_, .refl _, nofun⟩
  refine Assures.mono (h inner { stage with holes := [] } hrank) (.refl _)
    fun last last' value hlast ⟨hreaches, hvalue⟩ => ?_
  have hreaches := hlast.trans hreaches
  have hsome : ∀ found ∈ some value, given' know found :=
    fun found hfound => Option.mem_some.mp hfound ▸ hgood hinner hvalue
  cases consumes with
  | true => exact ⟨hreaches.holes, ⟨hreaches.limit, hreaches.moved, rfl⟩, hsome⟩
  | false => exact ⟨hreaches.holes, ⟨hreaches.limit, hreaches.moved, rfl⟩, hsome⟩

end Supplies

end Program

end AdaSyntax
