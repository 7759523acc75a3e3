import AdaSyntax.Proofs.Scope.Places
import AdaSyntax.Proofs.Scope.Stack

/-!
The two views of a published region. From inside, a name stands for what the region bound it to last; from outside, for
what it was bound to when the private part began.
-/

namespace AdaSyntax

namespace SymbolTable

variable {base table marked later now : SymbolTable} {marked? : Option SymbolTable} {owner : SymbolId} {name : Name}
  {made : TableChange}

/-- Every change is allowed in the table that it is made in. -/
def Allows (allowed : SymbolTable → TableChange → Prop) (table : SymbolTable) : List TableChange → Prop
  | [] => True
  | made :: rest => allowed table made ∧ (table.change made).Allows allowed rest

/-- The change leaves a region open above those of `base`, and publishes nothing for `owner`. -/
def Fills (base : SymbolTable) (owner : SymbolId) (table : SymbolTable) (made : TableChange) : Prop :=
  made.Legal table ∧ made.mayPublishFor owner = false ∧ base.depth < (table.change made).depth

/-- The table in front of the last mark of a private part, of those that are made while `depth` regions are open. -/
def lastMarked? (table : SymbolTable) (depth : Nat) : List TableChange → Option SymbolTable
  | [] => none
  | made :: rest => ((table.change made).lastMarked? depth rest).or
      (if made.isPrivateMark && table.depth = depth then some table else none)

def SplitAt (table : SymbolTable) (region : Region) : Option SymbolTable → Prop
  | none => region.privateStart = none
  | some marked => marked.WellFormed ∧ marked.symbols.toList <+: table.symbols.toList ∧
      marked.innermost.order <+: region.order ∧ region.privateStart = some marked.innermost.order.length

structure Filling (base : SymbolTable) (owner : SymbolId) (marked? : Option SymbolTable) (table : SymbolTable) :
    Prop where
  wellFormed : table.WellFormed
  published : table.published? owner = none
  regions : ∃ inner region, table.regions = inner ++ region :: base.regions ∧ table.SplitAt region marked?

theorem SplitAt.grown {region region' : Region} (h : table.SplitAt region marked?) (hextends : region'.Extends region)
    (hgrown : table.symbols.toList <+: later.symbols.toList) : later.SplitAt region' marked? := by
  cases marked? with
  | none => exact hextends.privateStart.trans h
  | some marked =>
    obtain ⟨hwell, hsymbols, horder, hstart⟩ := h
    exact ⟨hwell, hsymbols.trans hgrown, horder.trans hextends.order, hextends.privateStart.trans hstart⟩

theorem change_above {inner : List Region} {region : Region}
    (hregions : table.regions = inner ++ region :: base.regions) (hmark : made.isPrivateMark = false)
    (hopen : base.depth < (table.change made).depth) :
    ∃ inner' region', (table.change made).regions = inner' ++ region' :: base.regions ∧ region'.Extends region := by
  rcases table.change_regions hmark with hopened | hclosed | ⟨hextends, hkept⟩
  · refine ⟨(table.change made).innermost :: inner, region, ?_, .refl _⟩
    rw [SymbolTable.regions, hopened, hregions, List.cons_append]
  · cases inner with
    | nil =>
      obtain ⟨-, henclosing⟩ := List.cons.inj hregions
      have hlength := congrArg List.length (hclosed.trans henclosing)
      simp only [SymbolTable.regions, List.length_cons] at hlength
      simp only [depth] at hopen
      omega
    | cons first rest =>
      obtain ⟨-, henclosing⟩ := List.cons.inj hregions
      exact ⟨rest, region, hclosed.trans henclosing, .refl _⟩
  · cases inner with
    | nil =>
      obtain ⟨hinnermost, henclosing⟩ := List.cons.inj hregions
      refine ⟨[], (table.change made).innermost, ?_, hinnermost ▸ hextends⟩
      rw [SymbolTable.regions, hkept, henclosing, List.nil_append]
    | cons first rest =>
      obtain ⟨-, henclosing⟩ := List.cons.inj hregions
      refine ⟨(table.change made).innermost :: rest, region, ?_, .refl _⟩
      rw [SymbolTable.regions, hkept, henclosing]
      rfl

theorem depth_above {inner : List Region} {region : Region}
    (hregions : table.regions = inner ++ region :: base.regions) : table.depth = inner.length + 1 + base.depth := by
  have hlength := congrArg List.length hregions
  simp only [SymbolTable.regions, List.length_cons, List.length_append] at hlength
  simp only [depth]
  omega

namespace Filling

theorem openRegion (h : base.WellFormed) (hnone : base.published? owner = none) (kind : RegionKind)
    (scope : Option SymbolId) : Filling base owner none (base.openRegion kind scope) where
  wellFormed := h.openRegion kind scope
  published := hnone
  regions := ⟨[], { id := ⟨base.nextRegion⟩, kind, owner := scope }, rfl, rfl⟩

theorem change (h : Filling base owner marked? table) (hfills : base.Fills owner table made) :
    Filling base owner ((if made.isPrivateMark && table.depth = base.depth + 1 then some table else none).or marked?)
      (table.change made) where
  wellFormed := h.wellFormed.change hfills.1
  published := (table.published?_change hfills.2.1).trans h.published
  regions := by
    obtain ⟨inner, region, hregions, hsplit⟩ := h.regions
    have hdepth := depth_above hregions
    by_cases hmark : made.isPrivateMark = true
    · cases made with
      | markPrivate =>
        -- Only in the region itself does the mark move the split; regions inside have private parts of their own.
        cases inner with
        | nil =>
          obtain ⟨hinnermost, henclosing⟩ := List.cons.inj hregions
          refine ⟨[], table.markPrivate.innermost, congrArg (_ :: ·) henclosing, ?_⟩
          have hhere : table.depth = base.depth + 1 := by
            rw [hdepth, List.length_nil]
            omega
          simp only [TableChange.isPrivateMark, hhere, decide_true, Bool.and_self, if_true, Option.some_or]
          exact ⟨h.wellFormed, List.prefix_rfl, List.prefix_rfl, rfl⟩
        | cons first rest =>
          obtain ⟨-, henclosing⟩ := List.cons.inj hregions
          refine ⟨table.markPrivate.innermost :: rest, region, congrArg (_ :: ·) henclosing, ?_⟩
          have hinside : table.depth ≠ base.depth + 1 := by
            rw [hdepth, List.length_cons]
            omega
          simp only [decide_eq_false hinside, Bool.and_false, Bool.false_eq_true, if_false, Option.none_or]
          exact hsplit.grown (.refl _) List.prefix_rfl
      | _ => cases hmark
    · have hmark := Bool.eq_false_iff.mpr hmark
      obtain ⟨inner', region', hregions', hextends⟩ := change_above hregions hmark hfills.2.2
      refine ⟨inner', region', hregions', ?_⟩
      simp only [hmark, Bool.false_and, Bool.false_eq_true, if_false, Option.none_or]
      exact hsplit.grown hextends (change_revertsTo h.wellFormed.proper made).symbols

theorem changes {made : List TableChange} (h : Filling base owner marked? table)
    (hfills : table.Allows (base.Fills owner) made) :
    Filling base owner ((table.lastMarked? (base.depth + 1) made).or marked?) (table.changes made) := by
  induction made generalizing table marked? with
  | nil => exact h
  | cons first rest ih =>
    -- A later mark wins over the one that this change may be.
    have hrest := ih (h.change hfills.1) hfills.2
    rw [← Option.or_assoc] at hrest
    exact hrest

end Filling

theorem SplitAt.visible (h : table.SplitAt table.innermost marked?) :
    table.innermost.members.visible = (marked?.getD table).innermost.order := by
  cases marked? with
  | none =>
    have hstart : table.innermost.privateStart = none := h
    rw [Region.members, Region.visibleCount, hstart, Option.getD_none, List.take_length]
    rfl
  | some marked =>
    obtain ⟨-, -, horder, hstart⟩ := h
    rw [Region.members, Region.visibleCount, hstart, Option.getD_some]
    exact (List.prefix_iff_eq_take.mp horder).symm

theorem SplitAt.wellFormed (h : table.SplitAt table.innermost marked?) (hwell : table.WellFormed) :
    (marked?.getD table).WellFormed ∧ (marked?.getD table).symbols.toList <+: table.symbols.toList := by
  cases marked? with
  | none => exact ⟨hwell, List.prefix_rfl⟩
  | some marked => exact ⟨h.1, h.2.1⟩

theorem SplitAt.visiblePart (h : table.SplitAt table.innermost marked?) (hwell : table.WellFormed) (name : Name) :
    table.visiblePart name = (marked?.getD table).innermost.bindings.get name := by
  obtain ⟨hmarked, hgrown⟩ := h.wellFormed hwell
  rw [SymbolTable.visiblePart, h.visible, hmarked.innermost.get_eq, called_eq_of_has hgrown hmarked.innermost.declared]

structure Shows (inside outside : SymbolTable) (owner : SymbolId) (now : SymbolTable) : Prop where
  inside : ∀ name, now.lookupPublished owner name true = (inside.innermost.bindings.get name).getLast?
  outside : ∀ name, now.lookupPublished owner name false = (outside.innermost.bindings.get name).getLast?

theorem Publishes.lookupPublished {visible hidden : List SymbolId} (h : table.Publishes owner name visible hidden) :
    table.lookupPublished owner name true = (visible ++ hidden).getLast? ∧
      table.lookupPublished owner name false = visible.getLast? := by
  obtain ⟨contents, hcontents, rfl, rfl⟩ := h
  rw [SymbolTable.lookupPublished, SymbolTable.lookupPublished, hcontents]
  exact ⟨contents.get?_hidden name, rfl⟩

theorem Filling.shows (h : Filling base owner marked? table) (hsplit : table.SplitAt table.innermost marked?)
    (hpublished : now.published? owner =
      ((table.change .closeRegion).publish owner table.innermost.members).published? owner) :
    Shows table (marked?.getD table) owner now := by
  have hpublishes : ∀ name, now.Publishes owner name (table.visiblePart name) (table.privatePart name) := fun name =>
    (publishes_specification h.published name).of_published? hpublished
  refine ⟨fun name => ?_, fun name => ?_⟩
  · rw [(hpublishes name).lookupPublished.1, parts_eq h.wellFormed.innermost]
  · rw [(hpublishes name).lookupPublished.2, hsplit.visiblePart h.wellFormed]

theorem WellFormed.resolution_innermost (h : table.WellFormed)
    (hgrown : table.symbols.toList <+: now.symbols.toList) (name : Name) :
    now.resolution (table.innermost.bindings.get name).getLast? = table.resolveLocal name := by
  refine resolution_eq_of_has hgrown fun id hid => ?_
  have hmem := List.mem_of_getLast? hid
  rw [h.innermost.get_eq, mem_called] at hmem
  exact h.innermost.declared id hmem.1

theorem resolveMember_of_unbound
    (h : ∀ region ∈ table.regions, region.owner = some owner → region.bindings.get name = []) :
    table.resolveMember owner name =
      table.resolution (table.lookupPublished owner name (table.regions.any (·.owner = some owner))) := by
  have hnone : (table.regions.filter (·.owner = some owner)).findSome?
      (fun region => (region.bindings.get name).getLast?) = none := by
    refine List.findSome?_eq_none_iff.mpr fun region hregion => ?_
    obtain ⟨hregion, howner⟩ := List.mem_filter.mp hregion
    rw [h region hregion (of_decide_eq_true howner)]
    rfl
  have hinside : (!(table.regions.filter (·.owner = some owner)).isEmpty) =
      table.regions.any (·.owner = some owner) := by
    rw [Bool.eq_iff_iff]
    simp
  simp only [resolveMember, hnone, hinside]

theorem resolve_of_places {before after : List Place} {place : Place}
    (hplaces : table.places = before ++ place :: after) (hbefore : ∀ place ∈ before, table.lookupAt name place = none) :
    table.resolve name = table.resolution ((table.lookupAt name place).or (after.findSome? (table.lookupAt name))) := by
  rw [resolve_eq, hplaces, List.findSome?_append, List.findSome?_eq_none_iff.mpr hbefore, Option.none_or,
    List.findSome?_cons]
  cases table.lookupAt name place <;> rfl

theorem places_importBody (table : SymbolTable) (kind : RegionKind) (scope : Option SymbolId) (owner : SymbolId) :
    ∃ after, ((table.openRegion kind scope).addImport owner .body).places =
      [.region ((table.openRegion kind scope).addImport owner .body).innermost false] ++
        .imported ⟨owner, .body⟩ :: after :=
  ⟨_, rfl⟩

theorem places_importUse (table : SymbolTable) (kind : RegionKind) (scope : Option SymbolId) (owner : SymbolId) :
    ∃ after, ((table.openRegion kind scope).addImport owner .use).places =
      directPlaces kind.isTypeInterior false ((table.openRegion kind scope).addImport owner .use).regions ++
        .imported ⟨owner, .use⟩ :: after :=
  ⟨_, rfl⟩

/-- A region that is closed and published shows itself to those inside, and to all others as it was at the last mark
of its private part: by expanded names, and where the search for a name comes to an import. -/
theorem published_views (hreachable : table.Reachable) (hnone : table.published? owner = none) (kind : RegionKind)
    {made : List TableChange} (hfills : (table.openRegion kind (some owner)).Allows (table.Fills owner) made)
    (hdepth : ((table.openRegion kind (some owner)).changes made).depth = table.depth + 1) :
    let opened := table.openRegion kind (some owner)
    let ending := opened.changes made
    let marked := (opened.lastMarked? opened.depth made).getD ending
    ∃ later, ending.closeRegion = some (ending.innermost.close, later) ∧
      ∀ now : SymbolTable, later.symbols.toList <+: now.symbols.toList →
        now.published? owner = (later.publish owner ending.innermost.close.toMembers).published? owner → ∀ name,
          ((∀ region ∈ now.regions, region.owner = some owner → region.bindings.get name = []) →
            now.resolveMember owner name =
              if now.regions.any (·.owner = some owner) then ending.resolveLocal name else marked.resolveLocal name) ∧
          ∀ before kind after, now.places = before ++ .imported ⟨owner, kind⟩ :: after →
            (∀ place ∈ before, now.lookupAt name place = none) →
              let shown := (if kind = .body then ending else marked).resolveLocal name
              now.resolve name =
                if shown.symbol.isSome then shown else now.resolution (after.findSome? (now.lookupAt name)) := by
  intro opened ending marked
  have hfilling : Filling table owner (opened.lastMarked? opened.depth made) ending := by
    have hchanges := (Filling.openRegion hreachable.wellFormed hnone kind (some owner)).changes hfills
    rwa [Option.or_none] at hchanges
  -- The region itself is the innermost one again.
  have hsplit : ending.SplitAt ending.innermost (opened.lastMarked? opened.depth made) := by
    obtain ⟨inner, region, hregions, hsplit⟩ := hfilling.regions
    have hlength := (depth_above hregions).symm.trans hdepth
    have hinner : inner = [] := List.eq_nil_of_length_eq_zero (by omega)
    rw [hinner] at hregions
    obtain ⟨hinnermost, -⟩ := List.cons.inj hregions
    exact hinnermost ▸ hsplit
  have hopen : 1 < ending.depth := hdepth ▸ Nat.succ_lt_succ (Nat.succ_pos _)
  obtain ⟨later, hclose⟩ := closeRegion_of_depth hopen
  refine ⟨later, hclose, fun now hgrown hpublished name => ?_⟩
  have hlater : ending.change .closeRegion = later := by simp only [SymbolTable.change, hclose]
  have hshows : Shows ending marked owner now := hfilling.shows hsplit (hlater ▸ hpublished)
  obtain ⟨hwell, hmarked⟩ := hsplit.wellFormed hfilling.wellFormed
  have hending : ending.symbols.toList <+: now.symbols.toList := by
    rw [← hlater, closeRegion_symbols] at hgrown
    exact hgrown
  have hinside := hfilling.wellFormed.resolution_innermost hending name
  have houtside := hwell.resolution_innermost (hmarked.trans hending) name
  refine ⟨fun hunbound => ?_, fun before kind after hplaces hbefore => ?_⟩
  · rw [resolveMember_of_unbound hunbound]
    cases now.regions.any (·.owner = some owner) with
    | true => rw [hshows.inside, hinside, if_pos rfl]
    | false => rw [hshows.outside, houtside, if_neg Bool.false_ne_true]
  · obtain ⟨hfound, hshown⟩ : now.lookupPublished owner name (kind = .body) =
          ((if kind = .body then ending else marked).innermost.bindings.get name).getLast? ∧
        now.resolution ((if kind = .body then ending else marked).innermost.bindings.get name).getLast? =
          (if kind = .body then ending else marked).resolveLocal name := by
      cases kind with
      | use => exact ⟨hshows.outside name, houtside⟩
      | body => exact ⟨hshows.inside name, hinside⟩
    rw [resolve_of_places hplaces hbefore, lookupAt, hfound, ← hshown]
    cases ((if kind = .body then ending else marked).innermost.bindings.get name).getLast? <;> rfl

/-- The private part completes a type and adds an object, behind a region with a private part of its own. The body sees
the full type and the object; a use clause gives the private type, and no object. -/
theorem published_views_privateType :
    let declaring : List TableCommand := [.change (.declare { name := ⟨"P"⟩, kind := .package })]
    let table := (MarkedTable.start.run declaring).table
    let opened := table.openRegion .package (some ⟨0⟩)
    let made : List TableChange :=
      [.declare { name := ⟨"T"⟩, kind := .privateType }, .openRegion .package (some ⟨1⟩), .markPrivate,
        .declare { name := ⟨"X"⟩, kind := .object }, .closeRegion, .markPrivate,
        .declare { name := ⟨"T"⟩, kind := .type }, .declare { name := ⟨"X"⟩, kind := .object }]
    let ending := opened.changes made
    let published := (ending.change .closeRegion).publish ⟨0⟩ ending.innermost.close.toMembers
    let body := (published.openRegion .packageBody (some ⟨0⟩)).addImport ⟨0⟩ .body
    let user := (published.openRegion .block none).addImport ⟨0⟩ .use
    table.Reachable ∧ table.published? ⟨0⟩ = none ∧ opened.Allows (table.Fills ⟨0⟩) made ∧
      ending.depth = table.depth + 1 ∧
      (body.resolve ⟨"T"⟩ = ⟨some ⟨3⟩, .type⟩ ∧ body.resolveMember ⟨0⟩ ⟨"X"⟩ = ⟨some ⟨4⟩, .object⟩) ∧
      user.resolve ⟨"T"⟩ = ⟨some ⟨1⟩, .privateType⟩ ∧ user.resolveMember ⟨0⟩ ⟨"X"⟩ = .unresolved := by
  intro declaring table opened made ending published body user
  have hreachable : table.Reachable := ⟨declaring, ⟨trivial, trivial⟩, rfl⟩
  have hfills : opened.Allows (table.Fills ⟨0⟩) made := by
    simp only [made, Allows, Fills, TableChange.Legal, true_and]
    decide
  obtain ⟨later, hclose, hviews⟩ := published_views hreachable rfl .package hfills (by decide)
  have hlater : ending.change .closeRegion = later := by
    simp only [SymbolTable.change]
    rw [hclose]
  subst hlater
  have hbehind : ∀ (table : SymbolTable) members kind scope importKind,
      let later := ((table.publish ⟨0⟩ members).openRegion kind scope).addImport ⟨0⟩ importKind
      table.symbols.toList <+: later.symbols.toList ∧
        later.published? ⟨0⟩ = (table.publish ⟨0⟩ members).published? ⟨0⟩ := fun _ _ _ _ _ => ⟨List.prefix_rfl, rfl⟩
  have hbody := hviews body (hbehind _ _ _ _ _).1 (hbehind _ _ _ _ _).2
  have huser := hviews user (hbehind _ _ _ _ _).1 (hbehind _ _ _ _ _).2
  obtain ⟨afterBody, hplaces⟩ := places_importBody published .packageBody (some ⟨0⟩) ⟨0⟩
  obtain ⟨afterUse, hplaces'⟩ := places_importUse published .block none ⟨0⟩
  have htype := (hbody ⟨"T"⟩).2 _ .body _ hplaces (by decide)
  have htype' := (huser ⟨"T"⟩).2 _ .use _ hplaces' (by decide)
  refine ⟨hreachable, rfl, hfills, by decide, ⟨?_, ?_⟩, ?_, ?_⟩
  · exact (htype.trans (if_pos (by decide))).trans (by decide)
  · exact ((hbody ⟨"X"⟩).1 (by decide)).trans (by decide)
  · exact (htype'.trans (if_pos (by decide))).trans (by decide)
  · exact ((huser ⟨"X"⟩).1 (by decide)).trans (by decide)

end SymbolTable

end AdaSyntax
