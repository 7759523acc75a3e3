import AdaSyntax.Proofs.Parser.Continues
import AdaSyntax.Proofs.Discipline.Basic

namespace AdaSyntax

namespace Parser

variable {α : Type} {parser later : Parser} {value : α}

theorem nested_matched {body : Parser → Reply α × Parser}
    (h : parser.nested body = (.matched value, later)) :
    parser.depth < parser.options.maxDepth ∧
      ∃ inner, body parser.deeper = (.matched value, inner) ∧ later = inner.ascend := by
  unfold nested descend at h
  by_cases hdepth : parser.options.maxDepth ≤ parser.depth
  · simp [hdepth] at h
  · simp only [hdepth, if_false, Prod.mk.injEq] at h
    exact ⟨Nat.not_le.mp hdepth, _, Prod.ext h.1 rfl, h.2.symm⟩

theorem settle_matched {checkpoint : Checkpoint} {result : Reply α × Parser}
    (h : settle checkpoint result = (.matched value, later)) : result = (.matched value, later) := by
  obtain ⟨reply, parser⟩ := result
  cases reply with
  | matched value => exact h
  | _ =>
    simp only [settle] at h
    split at h <;> cases h

theorem attempt_matched {body : Parser → Reply α × Parser}
    (h : parser.attempt body = (.matched value, later)) :
    parser.depth < parser.options.maxDepth ∧
      ∃ inner, body parser.deeper = (.matched value, inner) ∧ later = inner.ascend :=
  nested_matched (settle_matched h)

theorem take_lt {token : Token} (h : parser.take = (.matched token, later)) : parser.position < later.position := by
  unfold take at h
  cases hadvance : parser.cursor.advance with
  | error error => simp [hadvance] at h
  | ok next =>
    simp only [hadvance, Prod.mk.injEq] at h
    obtain ⟨-, rfl⟩ := h
    exact Nat.lt_of_lt_of_eq (Nat.lt_succ_self _) (Cursor.advance_eq hadvance).2.symm

theorem withPosition_matched {position : Nat} {result : Reply Token × Parser} {token : TokenAt}
    (h : withPosition position result = (.matched token, later)) :
    ∃ token, result = (.matched token, later) := by
  obtain ⟨reply, parser⟩ := result
  cases reply with
  | matched token =>
    simp only [withPosition, Prod.mk.injEq] at h
    exact ⟨token, Prod.ext rfl h.2⟩
  | _ => simp [withPosition, Reply.map] at h

theorem expectChoice_lt {kind : TokenKind} {token : Token}
    (h : parser.expectChoice kind = (.matched token, later)) : parser.position < later.position := by
  unfold expectChoice at h
  split at h
  · exact take_lt h
  · cases h

theorem expect_lt {kind : TokenKind} {token : Token} (h : parser.expect kind = (.matched token, later)) :
    parser.position < later.position := by
  unfold expect at h
  split at h
  · exact take_lt h
  · split at h <;> cases h

theorem perform_lt {op : Op α} (hconsumes : op.consumes = true)
    (h : parser.perform op = (.matched value, later)) : parser.position < later.position := by
  cases op with
  | take =>
    obtain ⟨token, htake⟩ := withPosition_matched h
    exact take_lt htake
  | expect kind =>
    obtain ⟨token, hexpect⟩ := withPosition_matched h
    exact expect_lt hexpect
  | expectChoice kind =>
    obtain ⟨token, hexpect⟩ := withPosition_matched h
    exact expectChoice_lt hexpect
  | _ => cases hconsumes

end Parser

structure Stage.Describes (stage last : Stage) (parser later : Parser) : Prop where
  limit : last.limit ≤ stage.limit ∨ parser.position < later.position
  moved : last.moved = true → stage.moved = true ∨ parser.position < later.position

namespace Stage.Describes

variable {stage first second third : Stage} {parser middle later : Parser}

theorem refl (stage : Stage) (parser later : Parser) : stage.Describes stage parser later :=
  ⟨.inl (Nat.le_refl _), .inl⟩

theorem trans (h : first.Describes second parser middle) (h' : second.Describes third middle later)
    (hfirst : parser.position ≤ middle.position) (hsecond : middle.position ≤ later.position) :
    first.Describes third parser later where
  limit := by
    rcases h'.limit with hle | hlt
    · rcases h.limit with hle' | hlt
      · exact .inl (Nat.le_trans hle hle')
      · exact .inr (Nat.lt_of_lt_of_le hlt hsecond)
    · exact .inr (Nat.lt_of_le_of_lt hfirst hlt)
  moved hmoved := by
    rcases h'.moved hmoved with hsecond' | hlt
    · rcases h.moved hsecond' with hfirst' | hlt
      · exact .inl hfirst'
      · exact .inr (Nat.lt_of_lt_of_le hlt hsecond)
    · exact .inr (Nat.lt_of_le_of_lt hfirst hlt)

theorem after {consumes : Bool} (h : consumes = true → parser.position < later.position) :
    stage.Describes (stage.after consumes) parser later := by
  cases consumes with
  | true => exact ⟨.inr (h rfl), fun _ => .inr (h rfl)⟩
  | false => exact ⟨.inl (Nat.le_refl _), .inl⟩

theorem next {α : Type} {op : Op α} {value : α} (h : parser.perform op = (.matched value, later)) :
    stage.Describes (op.next stage value) parser later := by
  cases op with
  | reserve start => exact ⟨.inl (Nat.le_refl _), .inl⟩
  | fill id start payload => exact ⟨.inl (Nat.le_refl _), .inl⟩
  | _ => exact .after fun hconsumes => Parser.perform_lt hconsumes h

end Stage.Describes

structure Calls (calls : ∀ {α : Type}, Production α → Parser → Reply α × Parser) (tree : Tree) (limit : Nat)
    (know : Nat → Knowledge) : Prop where
  allows : ∀ {α : Type} (production : Production α) (parser : Parser), parser.Allows (calls production parser)
  moves : ∀ {α : Type} (production : Production α) {parser later : Parser} {value : α},
    calls production parser = (.matched value, later) → production.consumes = true →
      parser.position < later.position
  grants : ∀ {α : Type} (production : Production α) {parser later : Parser} {value : α},
    calls production parser = (.matched value, later) → parser.options.maxDepth = limit →
      tree.Retains later.tree → production.Grants (know parser.depth) value

structure Foresees (tree : Tree) (limit : Nat) (know : Nat → Knowledge) : Prop where
  below : ∀ depth, depth < limit → (know (depth + 1)).Below (know depth)
  tells : ∀ {α : Type} (op : Op α) {parser later : Parser} {value : α} {stage : Stage},
    parser.perform op = (.matched value, later) → tree.Retains later.tree →
      op.Asks (know parser.depth) stage → op.Tells (know parser.depth) value

section

open AdaSyntax.Parser

variable {calls : ∀ {α : Type}, Production α → Parser → Reply α × Parser}
variable {tree : Tree} {limit : Nat} {know : Nat → Knowledge}

structure Program.Arrives (calls : ∀ {α : Type}, Production α → Parser → Reply α × Parser) (tree : Tree)
    (limit : Nat) (know : Nat → Knowledge) {α : Type} (program : Program α) : Prop where
  last : ∀ {parser later : Parser} {value : α} (stage : Stage) (done : Stage → α → Prop),
    program.run calls parser = (.matched value, later) → parser.options.maxDepth = limit →
      tree.Retains later.tree → program.Assures (know parser.depth) stage done →
        ∃ last, done last value ∧ stage.Describes last parser later

theorem Calls.run_continues (hcalls : Calls calls tree limit know) {α : Type} {program : Program α}
    {parser later : Parser} {reply : Reply α} (h : program.run calls parser = (reply, later)) :
    later.Continues parser := by
  have hallows := program.run_allows hcalls.allows parser
  rw [h] at hallows
  exact hallows.continues

namespace Program.Arrives

variable {α σ : Type}

theorem deeper {body : Program α} (hbody : body.Arrives calls tree limit know)
    (hforesees : Foresees tree limit know) {parser inner : Parser} {stage : Stage} {value : α}
    {done : Stage → α → Prop} (hrun : body.run calls parser.deeper = (.matched value, inner))
    (hlimit : parser.options.maxDepth = limit) (hdepth : parser.depth < parser.options.maxDepth)
    (htree : tree.Retains inner.tree)
    (h : ∀ inner : Knowledge, inner.Below (know parser.depth) → body.Assures inner stage done) :
    ∃ last, done last value ∧ stage.Describes last parser inner.ascend := by
  rw [hlimit] at hdepth
  obtain ⟨last, hdone, hdescribes⟩ :=
    hbody.last stage done hrun hlimit htree (h _ (hforesees.below _ hdepth))
  exact ⟨last, hdone, hdescribes.limit, hdescribes.moved⟩

theorem repeatUntil {body : σ → Program (σ ⊕ α)} {depth : Nat} {stage : Stage} {done : Stage → α → Prop}
    {keeps : σ → Prop} (hbody : ∀ state, (body state).Arrives calls tree limit know)
    (hcalls : Calls calls tree limit know)
    (hround : ∀ state, keeps state →
      (body state).Assures (know depth) { stage with moved := false } fun later result =>
        later.holes = stage.holes ∧
          match result with
          | .inl state => later.moved = true ∧ keeps state
          | .inr value => done { later with moved := stage.moved || later.moved } value)
    (fuel : Nat) {state : σ} {parser later : Parser} {value : α} (hkeeps : keeps state)
    (hrun : Parser.repeatUntil (fun state => (body state).run calls) fuel state parser =
      (.matched value, later))
    (hlimit : parser.options.maxDepth = limit) (hlevel : parser.depth = depth)
    (htree : tree.Retains later.tree) : ∃ last, done last value ∧ stage.Describes last parser later := by
  induction fuel generalizing state parser with
  | zero => cases hrun
  | succ fuel ih =>
    rw [Parser.repeatUntil] at hrun
    generalize hresult : (body state).run calls parser = result at hrun
    obtain ⟨reply, middle⟩ := result
    have hmiddle := hcalls.run_continues hresult
    have hlast : ∀ {result}, reply = .matched result → tree.Retains middle.tree → ∃ last : Stage,
        (last.holes = stage.holes ∧
          match result with
          | .inl state => last.moved = true ∧ keeps state
          | .inr value => done { last with moved := stage.moved || last.moved } value) ∧
        ({ stage with moved := false } : Stage).Describes last parser middle := by
      rintro result rfl hretains
      exact (hbody state).last _ _ hresult hlimit hretains (hlevel ▸ hround state hkeeps)
    cases reply with
    | matched result =>
      cases result with
      | inl next =>
        dsimp only at hrun
        have hrest : later.Continues middle := by
          have hallows : middle.Allows _ := repeatUntil_allows
            (fun state => (body state).run_allows hcalls.allows) fuel next
          rw [hrun] at hallows
          exact hallows.continues
        obtain ⟨-, ⟨-, -, hnext⟩, -⟩ := hlast rfl (htree.trans hrest.tree)
        obtain ⟨last, hdone, hdescribes⟩ := ih hnext hrun (hmiddle.options ▸ hlimit) (hmiddle.depth.trans hlevel)
        exact ⟨last, hdone, (Stage.Describes.refl stage parser middle).trans hdescribes hmiddle.position_le
          hrest.position_le⟩
      | inr result =>
        cases hrun
        obtain ⟨last, ⟨-, hdone⟩, hdescribes⟩ := hlast rfl htree
        refine ⟨_, hdone, hdescribes.limit, fun hmoved => ?_⟩
        rcases Bool.or_eq_true_iff.mp hmoved with hmoved | hmoved
        · exact .inl hmoved
        · exact .inr ((hdescribes.moved hmoved).resolve_left Bool.false_ne_true)
    | _ => cases hrun

theorem parseItems {item : Program NodeId} {context : Context} {code : Code} {stage : Stage}
    (hitem : item.Arrives calls tree limit know) (hcalls : Calls calls tree limit know)
    (hforesees : Foresees tree limit know) {depth : Nat}
    (h : ∀ inner : Knowledge, inner.Below (know depth) →
      item.Assures inner stage fun last node => last.holes = [] ∧ last.moved = true ∧ inner.whole node)
    (fuel : Nat) {items nodes : List NodeId} {parser later : Parser}
    (hitems : ∀ node ∈ items, (know depth).shallow node)
    (hrun : Parser.parseItems context code (item.run calls) fuel items parser = (.matched nodes, later))
    (hlimit : parser.options.maxDepth = limit) (hlevel : parser.depth = depth)
    (htree : tree.Retains later.tree) : ∀ node ∈ nodes, (know depth).shallow node := by
  induction fuel generalizing items parser with
  | zero => cases hrun
  | succ fuel ih =>
    rw [Parser.parseItems] at hrun
    split at hrun
    · cases hrun
      simpa using hitems
    · have hallows : parser.Allows (parser.forgetMismatch.attempt (item.run calls)) :=
        (attempt_allows (item.run_allows hcalls.allows)).trans ⟨.refl _, rfl, rfl, .refl _⟩
      dsimp only at hrun
      generalize hresult : parser.forgetMismatch.attempt (item.run calls) = result at hrun hallows
      obtain ⟨reply, middle⟩ := result
      have hrest : ∀ items (next : Parser), next.Continues middle →
          Parser.parseItems context code (item.run calls) fuel items next = (.matched nodes, later) →
            later.Continues middle := by
        intro items next hnext heq
        have hallows : next.Allows _ :=
          parseItems_allows (item.run_allows hcalls.allows) context code fuel items
        rw [heq] at hallows
        exact hallows.continues.trans hnext
      have hsettings : ∀ next : Parser, next.Continues middle →
          next.options.maxDepth = limit ∧ next.depth = depth := by
        intro next hnext
        have hcontinues := hnext.trans hallows.continues
        exact ⟨hcontinues.options ▸ hlimit, hcontinues.depth.trans hlevel⟩
      cases reply with
      | matched node =>
        obtain ⟨hoptions, hdepth⟩ := hsettings _ (mergeMismatch_continues middle _)
        refine ih (List.forall_mem_cons.mpr ⟨?_, hitems⟩) hrun hoptions hdepth
        obtain ⟨hlt, inner, hinner, rfl⟩ := attempt_matched hresult
        have hretains : tree.Retains inner.tree :=
          htree.trans (hrest _ _ (mergeMismatch_continues _ _) hrun).tree
        have hbelow : (know (parser.depth + 1)).Below (know depth) :=
          hlevel ▸ hforesees.below _ (hlimit ▸ hlt)
        obtain ⟨last, ⟨-, -, hwhole⟩, -⟩ := hitem.last _ _ hinner hlimit hretains (h _ hbelow)
        exact hbelow.shallow hwhole
      | mismatch =>
        obtain ⟨hoptions, hdepth⟩ := hsettings _ (middle.dropItem_continues ..)
        exact ih hitems hrun hoptions hdepth
      | fatal error => cases hrun
      | exhausted => cases hrun

end Program.Arrives

theorem Program.arrives (hcalls : Calls calls tree limit know) (hforesees : Foresees tree limit know) {α : Type}
    (program : Program α) : program.Arrives calls tree limit know := by
  induction program with
  | pure value =>
    refine ⟨fun stage done hrun _ _ h => ?_⟩
    cases hrun
    exact ⟨stage, h, .refl ..⟩
  | bind first next ihfirst ihnext =>
    refine ⟨fun {parser later value} stage done hrun hlimit htree h => ?_⟩
    replace hrun : Program.run calls (first >>= next) parser = (.matched value, later) := hrun
    rw [run_bind] at hrun
    generalize hresult : first.run calls parser = result at hrun
    obtain ⟨reply, middle⟩ := result
    have hmiddle := hcalls.run_continues hresult
    cases reply with
    | matched result =>
      have hlater := hcalls.run_continues hrun
      obtain ⟨last, hlast, hdescribes⟩ :=
        ihfirst.last stage _ hresult hlimit (htree.trans hlater.tree) h
      obtain ⟨last, hdone, hdescribes'⟩ := (ihnext result).last last done hrun (hmiddle.options ▸ hlimit)
        htree (hmiddle.depth ▸ hlast)
      exact ⟨last, hdone, hdescribes.trans hdescribes' hmiddle.position_le hlater.position_le⟩
    | _ => cases hrun
  | step op =>
    refine ⟨fun stage done hrun _ htree ⟨hasks, hdone⟩ => ?_⟩
    exact ⟨_, hdone _ (hforesees.tells op hrun htree hasks), .next hrun⟩
  | reject expected => exact ⟨fun _ _ hrun => by cases hrun⟩
  | fail => exact ⟨fun _ _ hrun => by cases hrun⟩
  | call production =>
    refine ⟨fun stage done hrun hlimit htree ⟨_, hdone⟩ => ?_⟩
    exact ⟨_, hdone _ (hcalls.grants production hrun hlimit htree), .after (hcalls.moves production hrun)⟩
  | attempt body ih =>
    refine ⟨fun {parser later value} stage done hrun hlimit htree ⟨hsome, hnone⟩ => ?_⟩
    rw [run_attempt] at hrun
    generalize hresult : parser.attempt (body.run calls) = result at hrun
    obtain ⟨reply, middle⟩ := result
    cases reply with
    | matched result =>
      obtain ⟨rfl, rfl⟩ : some result = value ∧ middle = later := by simpa using hrun
      obtain ⟨hlt, inner, hinner, rfl⟩ := attempt_matched hresult
      obtain ⟨last, ⟨-, hdone⟩, hdescribes⟩ := ih.deeper hforesees hinner hlimit hlt htree hsome
      exact ⟨_, hdone, hdescribes.limit, hdescribes.moved⟩
    | mismatch =>
      obtain ⟨rfl, rfl⟩ : none = value ∧ middle = later := by simpa using hrun
      exact ⟨_, hnone, .refl ..⟩
    | _ => cases hrun
  | nested body ih =>
    refine ⟨fun stage done hrun hlimit htree h => ?_⟩
    obtain ⟨hlt, inner, hinner, rfl⟩ := nested_matched hrun
    obtain ⟨last, ⟨-, hdone⟩, hdescribes⟩ := ih.deeper hforesees hinner hlimit hlt htree h
    exact ⟨_, hdone, hdescribes.limit, hdescribes.moved⟩
  | loop body state ih =>
    refine ⟨fun stage done hrun hlimit htree h => ?_⟩
    obtain ⟨keeps, hkeeps, hround⟩ := h
    exact Arrives.repeatUntil ih hcalls hround _ hkeeps hrun hlimit rfl htree
  | items context code item ih =>
    refine ⟨fun {parser later value} stage done hrun hlimit htree ⟨hitem, hdone⟩ => ?_⟩
    rw [run_items, parseList] at hrun
    generalize hresult : Parser.parseItems context code (item.run calls) _ [] _ = result at hrun
    obtain ⟨reply, inner⟩ := result
    obtain ⟨rfl, rfl⟩ : reply = .matched value ∧ inner.popContext = later := by simpa using hrun
    exact ⟨stage, hdone value (Arrives.parseItems ih hcalls hforesees hitem _ (by simp) hresult hlimit rfl htree),
      .refl ..⟩

end

end AdaSyntax
