import AdaSyntax.Proofs.Discipline.Budget

/-!
How deeply constructs may be nested in what is parsed. Those that are read one level deeper are bounded by the
levels that are left. The variant parts of a record are not among them: the limit does not bound these.
-/

namespace AdaSyntax

theorem Reply.eq_matched {α : Type} {reply : Reply α} {value : α} (h : reply.value? = some value) :
    reply = .matched value := by
  cases reply with
  | matched found => rw [Option.some.inj h]
  | _ => cases h

theorem Reply.result_eq {α : Type} {result : Reply α × Parser} {value : α} (h : result.1.value? = some value) :
    result = (.matched value, result.2) :=
  Prod.ext (eq_matched h) rfl

theorem Tree.Retains.get?_add {tree : Tree} {parser later : Parser} {start : Nat} {payload : Payload Nat}
    {id : NodeId} (hrun : parser.perform (.add start payload) = (.matched id, later))
    (htree : tree.Retains later.tree) (hfilled : payload.isPlaceholder = false) :
    ∃ node, tree.get? id = some node ∧ node.payload = payload.map parser.place := by
  obtain ⟨rfl, rfl⟩ : (⟨parser.tree.size⟩ : NodeId) = id ∧ (parser.addNode _ _).2 = later := by
    simpa [Parser.perform, Parser.addNode, Tree.add] using hrun
  exact ⟨_, htree.get? _ _ (parser.tree.get?_add_self _ _) (by simpa using hfilled), rfl⟩

theorem Tree.Retains.get?_fill {tree : Tree} {parser later : Parser} {start : Nat} {payload : Payload Nat}
    {id : NodeId} {value : Unit} (hrun : parser.perform (.fill id start payload) = (.matched value, later))
    (htree : tree.Retains later.tree) (hfilled : payload.isPlaceholder = false) :
    ∃ node, tree.get? id = some node ∧ node.payload = payload.map parser.place := by
  simp only [Parser.perform, Parser.fillNode] at hrun
  cases hfill : parser.tree.fill id (parser.rangeFrom (parser.place start).start) (payload.map parser.place) with
  | error error => simp [hfill] at hrun
  | ok filled =>
    obtain rfl : _ = later := by simpa [hfill] using hrun
    unfold Tree.fill at hfill
    split at hfill
    · cases hfill
    · rename_i reserved hreserved
      split at hfill
      · obtain rfl := Except.ok.inj hfill
        have hid := (Array.getElem?_eq_some_iff.mp hreserved).1
        exact ⟨_, htree.get? _ _ (Tree.get?_replace_self _ hid) (by simpa using hfilled), rfl⟩
      · cases hfill

namespace Knowledge

variable {tree : Tree} {limit depth : Nat}

def within (tree : Tree) (limit depth : Nat) : Knowledge where
  made _ := True
  whole id := tree.Within (limit - depth + 1) id
  shallow id := tree.Within (limit - depth) id
  symbol _ := True
  whole_of_shallow := Tree.Within.succ
  made_of_whole _ := trivial

theorem within_makes {payload : Payload Nat} {id : NodeId} {place : Nat → Range}
    (hadmissible : payload.Admissible (within tree limit depth))
    (hnode : ∃ node, tree.get? id = some node ∧ node.payload = payload.map place) :
    payload.Makes (within tree limit depth) id := by
  obtain ⟨node, hget, hpayload⟩ := hnode
  have hchildren : node.payload.children = payload.children := by rw [hpayload, Payload.children_map]
  have hcompound : node.payload.isCompound = payload.isCompound := by simp [hpayload]
  refine ⟨?_, fun hplain hshallow => ?_⟩
  · cases hkind : payload.isCompound with
    | true => exact .compound hget (hchildren ▸ hadmissible.compound hkind)
    | false => exact .plain hget (hcompound.trans hkind) (hchildren ▸ hadmissible.children)
  · exact .plain hget (hcompound.trans hplain) (hchildren ▸ hshallow)

theorem within_foresees (tree : Tree) (limit : Nat) : Foresees tree limit (within tree limit) where
  below depth hdepth := by
    have hlevels : limit - depth = limit - (depth + 1) + 1 := by omega
    refine ⟨fun _ => trivial, fun {id} h => ?_, fun _ => trivial⟩
    change tree.Within (limit - depth) id
    rw [hlevels]
    exact h
  tells op parser later value stage hrun htree hasks := by
    cases op with
    | add start payload => exact within_makes hasks (htree.get?_add hrun hasks.filled)
    | fill id start payload => exact within_makes hasks.2 (htree.get?_fill hrun hasks.2.filled)
    | inspect id => exact ⟨fun _ _ => trivial, fun _ _ => trivial⟩
    | resolve name | resolveMember owner name | libraryUnit name | closeRegion => exact fun _ _ => trivial
    | _ => trivial

end Knowledge

namespace Rule

variable {parser later : Parser} {node : NodeId}

theorem attempt_within {rule : Rule} (h : parser.attempt (Program.rule rule).execute = (.matched node, later)) :
    parser.depth < parser.options.maxDepth ∧
      later.tree.Within (parser.options.maxDepth - parser.depth) node := by
  obtain ⟨hdepth, inner, hinner, rfl⟩ := Parser.attempt_matched h
  refine ⟨hdepth, ?_⟩
  have hforesees := Knowledge.within_foresees inner.tree parser.options.maxDepth
  have hcalls := Grammar.call_calls (Grammar.callBudget parser.deeper) hforesees
  have hgrants := hcalls.grants (.rule rule) hinner rfl (.refl _)
  exact (hforesees.below _ hdepth).shallow (Program.whole_of_grants hgrants)

/-- The limit bounds how often compounds are nested in one another, on each path from what an attempt of a rule
has found. -/
theorem compounds_le_maxDepth (rule : Rule) (path : List NodeId)
    (hmatch : parser.attempt (Program.rule rule).execute = (.matched node, later))
    (hpath : later.tree.IsPath (node :: path)) :
    parser.depth + later.tree.compounds (node :: path) ≤ parser.options.maxDepth := by
  obtain ⟨hdepth, hwithin⟩ := attempt_within hmatch
  have hcompounds := hwithin.compounds_le hpath
  omega

def parenthesized : Cursor where
  tokens := #[.ofText .leftParen "(" 0, .ofText .integerLiteral "1" 1, .ofText .rightParen ")" 2, .endOfFile 3]
  position := 0
  position_lt := by decide
  last_kind := by decide

theorem compounds_le_maxDepth_parenthesized :
    let parser := Parser.new parenthesized { predefined := false, maxDepth := 3 }
    let later := (parser.attempt (Program.rule .expression).execute).2
    later.tree.IsPath [⟨1⟩, ⟨0⟩] ∧ parser.depth + later.tree.compounds [⟨1⟩, ⟨0⟩] ≤ 3 :=
  ⟨by decide +kernel, compounds_le_maxDepth .expression [⟨0⟩]
    (Prod.ext (Reply.eq_matched (by decide +kernel)) rfl) (by decide +kernel)⟩

def nestedVariants : Cursor where
  tokens := #[.ofText .kwType "type" 0, .ofText .identifier "T" 5, .ofText .kwIs "is" 7,
    .ofText .kwRecord "record" 10, .ofText .kwCase "case" 17, .ofText .identifier "D" 22,
    .ofText .kwIs "is" 24, .ofText .kwWhen "when" 27, .ofText .kwOthers "others" 32,
    .ofText .arrow "=>" 39, .ofText .kwCase "case" 42, .ofText .identifier "D" 47,
    .ofText .kwIs "is" 49, .ofText .kwWhen "when" 52, .ofText .kwOthers "others" 57,
    .ofText .arrow "=>" 64, .ofText .kwCase "case" 67, .ofText .identifier "D" 72,
    .ofText .kwIs "is" 74, .ofText .kwWhen "when" 77, .ofText .kwOthers "others" 82,
    .ofText .arrow "=>" 89, .ofText .kwNull "null" 92, .ofText .semicolon ";" 96,
    .ofText .kwEnd "end" 98, .ofText .kwCase "case" 102, .ofText .semicolon ";" 106,
    .ofText .kwEnd "end" 108, .ofText .kwCase "case" 112, .ofText .semicolon ";" 116,
    .ofText .kwEnd "end" 118, .ofText .kwCase "case" 122, .ofText .semicolon ";" 126,
    .ofText .kwEnd "end" 128, .ofText .kwRecord "record" 132, .ofText .semicolon ";" 138,
    .endOfFile 139]
  position := 0
  position_lt := by decide
  last_kind := by decide

/-- Compounds, and variant parts, which hold one another as well. -/
def isRecursive (payload : Payload Range) : Bool :=
  match payload with
  | .type (.variantPart ..) => true
  | payload => payload.isCompound

/-- The lists of components in variants are read on the same level, so variant parts go beyond the limit. -/
theorem nestedVariants_exceed :
    let parser := Parser.new nestedVariants { predefined := false, maxDepth := 2 }
    let result := parser.attempt (Program.rule .typeDeclaration).execute
    let path : List NodeId := [⟨0⟩, ⟨13⟩, ⟨12⟩, ⟨11⟩, ⟨10⟩, ⟨9⟩, ⟨8⟩, ⟨7⟩, ⟨6⟩]
    result.1.value? = path.head? ∧ result.2.tree.IsPath path ∧
      parser.options.maxDepth < path.countP fun id => isRecursive (result.2.tree.payload id) := by
  decide +kernel

end Rule

end AdaSyntax
