import AdaSyntax.Proofs.Scope.Publication

namespace AdaSyntax

theorem Contents.get?_hidden (contents : Contents) (name : Name) :
    contents.get? name true = (contents.visible.get name ++ contents.hidden.get name).getLast? := by
  unfold Contents.get?
  cases hhidden : (contents.hidden.get name).getLast? with
  | none => simp [List.getLast?_eq_none_iff.mp hhidden]
  | some id => simp [List.getLast?_append, hhidden]

namespace SymbolTable

variable {table : SymbolTable} {owner : SymbolId} {name : Name} {ids : List SymbolId}

theorem get_addBindings (table : SymbolTable) (bindings : Bindings) (ids : List SymbolId) (name : Name) :
    (table.addBindings bindings ids).get name = bindings.get name ++ table.called name ids := by
  induction ids generalizing bindings with
  | nil => simp [addBindings, called]
  | cons id rest ih =>
    simp only [addBindings, List.foldl_cons] at ih ⊢
    have hcalled : table.called name (id :: rest) = table.called name [id] ++ table.called name rest :=
      table.called_append [id] rest
    rw [ih, hcalled, ← List.append_assoc]
    congr 1
    cases hsymbol : table.symbol? id with
    | none => simp [called, hsymbol]
    | some symbol =>
      rw [called_singleton hsymbol]
      by_cases hname : symbol.name = name
      · simp [hname]
      · simp [hname, Bindings.get_add_of_ne _ _ (Ne.symm hname)]

def Publishes (table : SymbolTable) (owner : SymbolId) (name : Name) (visible hidden : List SymbolId) : Prop :=
  ∃ contents, table.published? owner = some contents ∧ contents.visible.get name = visible ∧
    contents.hidden.get name = hidden

theorem published?_publish (table : SymbolTable) (owner : SymbolId) (members : Members) :
    (table.publish owner members).published? owner = some {
      visible := table.addBindings ((table.published? owner).getD {}).visible members.visible
      hidden := table.addBindings ((table.published? owner).getD {}).hidden members.hidden } :=
  lookup_setContents_self ..

theorem publish_publishes (h : table.published? owner = none) (members : Members) (name : Name) :
    (table.publish owner members).Publishes owner name (table.called name members.visible)
      (table.called name members.hidden) := by
  refine ⟨_, table.published?_publish owner members, ?_, ?_⟩
  · rw [get_addBindings, h]
    rfl
  · rw [get_addBindings, h]
    rfl

theorem Publishes.publish {visible hidden : List SymbolId} (h : table.Publishes owner name visible hidden)
    (members : Members) :
    (table.publish owner members).Publishes owner name (visible ++ table.called name members.visible)
      (hidden ++ table.called name members.hidden) := by
  obtain ⟨contents, hcontents, hvisible, hhidden⟩ := h
  refine ⟨_, table.published?_publish owner members, ?_, ?_⟩
  · rw [get_addBindings, hcontents, Option.getD_some, hvisible]
  · rw [get_addBindings, hcontents, Option.getD_some, hhidden]

theorem Publishes.of_published? {later : SymbolTable} {visible hidden : List SymbolId}
    (h : table.Publishes owner name visible hidden) (hsame : later.published? owner = table.published? owner) :
    later.Publishes owner name visible hidden := by
  obtain ⟨contents, hcontents, hparts⟩ := h
  exact ⟨contents, hsame.trans hcontents, hparts⟩

theorem called_congr {later : SymbolTable} (h : later.symbols = table.symbols) (name : Name) (ids : List SymbolId) :
    later.called name ids = table.called name ids := by
  unfold called symbol?
  rw [h]

theorem publications_publish (table : SymbolTable) (owner : SymbolId) (members : Members) :
    (table.publish owner members).publications owner = table.publications owner + 1 := by
  obtain ⟨contents, heq⟩ := table.publish_eq owner members
  rw [heq, publications_putContents, if_pos rfl]

theorem publications_bind (table : SymbolTable) (id owner : SymbolId) :
    (table.bind id).2.publications owner = table.publications owner := by
  rcases table.bind_eq id with heq | ⟨symbol, -, heq⟩ <;> rw [heq]
  exact publications_push rfl rfl

theorem bind_contents (table : SymbolTable) (id : SymbolId) : (table.bind id).2.contents = table.contents := by
  rcases table.bind_eq id with heq | ⟨symbol, -, heq⟩
  · rw [heq]
  · rw [heq]
    rfl

/-- What the region of a package binds a name to in the visible part. -/
def visiblePart (table : SymbolTable) (name : Name) : List SymbolId :=
  table.called name table.innermost.members.visible

/-- What it binds the name to in the private part. -/
def privatePart (table : SymbolTable) (name : Name) : List SymbolId :=
  table.called name table.innermost.members.hidden

/-- What the region around it binds the name to, but for the unit that is declared there. -/
def formalPart (table : SymbolTable) (unit : SymbolId) (name : Name) : List SymbolId :=
  table.called name ((table.enclosing.headD default).order.filter (· ≠ unit))

structure Completed (ending after : SymbolTable) (unit : SymbolId) (formals : Name → List SymbolId) : Prop where
  has : ending.Has unit
  symbols : after.symbols = ending.symbols
  publishes : ∀ name, after.Publishes unit name (ending.visiblePart name ++ formals name) (ending.privatePart name)
  final : (ending.kindOf unit).publications ≤ after.publications unit

section

variable {ending later : SymbolTable} {unit : SymbolId}

theorem publishes_specification (h : ending.published? unit = none) (name : Name) :
    ((ending.change .closeRegion).publish unit ending.innermost.members).Publishes unit name (ending.visiblePart name)
      (ending.privatePart name) := by
  have hclosed : (ending.change .closeRegion).published? unit = none :=
    (congrArg (·.lookup unit) ending.closeRegion_contents).trans h
  have hpublishes := publish_publishes hclosed ending.innermost.members name
  rwa [called_congr ending.closeRegion_symbols, called_congr ending.closeRegion_symbols] at hpublishes

theorem Completed.package (h : ending.Unpublished unit .package) :
    Completed ending ((ending.change .closeRegion).publish unit ending.innermost.members) unit fun _ => [] where
  has := h.has
  symbols := ending.closeRegion_symbols
  publishes name := by
    rw [List.append_nil]
    exact publishes_specification h.published name
  final := by
    rw [h.kind, publications_publish]
    exact Nat.succ_le_succ (Nat.zero_le _)

theorem Completed.generic (h : ending.Unpublished unit .genericPackage) {region : Region} {rest : List Region}
    (henclosing : ending.enclosing = region :: rest) (hprivate : region.privateStart = none) :
    let published := (ending.change .closeRegion).publish unit ending.innermost.members
    let completed := (published.change .closeRegion).publish unit (published.innermost.members.withoutVisible unit)
    Completed ending (completed.bind unit).2 unit (ending.formalPart unit) := by
  intro published completed
  have hregion : published.innermost = region := by
    simp [published, SymbolTable.change, SymbolTable.closeRegion, SymbolTable.publish, henclosing]
  have hpublished : published.symbols = ending.symbols := ending.closeRegion_symbols
  have hclosed : (published.change .closeRegion).symbols = ending.symbols :=
    published.closeRegion_symbols.trans hpublished
  have hsymbols : (completed.bind unit).2.symbols = ending.symbols := (completed.bind_symbols unit).trans hclosed
  have hvisible : (published.innermost.members.withoutVisible unit).visible = region.order.filter (· ≠ unit) := by
    simp [hregion, Members.withoutVisible, Region.members, Region.visibleCount, hprivate]
  have hhidden : (published.innermost.members.withoutVisible unit).hidden = [] := by
    simp [hregion, Members.withoutVisible, Region.members, Region.visibleCount, hprivate]
  refine ⟨h.has, hsymbols, fun name => ?_, ?_⟩
  · have hfirst : (published.change .closeRegion).Publishes unit name (ending.visiblePart name)
        (ending.privatePart name) :=
      (publishes_specification h.published name).of_published? (congrArg (·.lookup unit) published.closeRegion_contents)
    have hsecond := hfirst.publish (published.innermost.members.withoutVisible unit)
    rw [hvisible, hhidden, called_congr hclosed] at hsecond
    have hformals : ending.formalPart unit name = ending.called name (region.order.filter (· ≠ unit)) := by
      rw [formalPart, henclosing, List.headD_cons]
    rw [hformals]
    have hprivatePart : ending.privatePart name ++ (published.change .closeRegion).called name [] =
        ending.privatePart name := List.append_nil _
    rw [hprivatePart] at hsecond
    exact hsecond.of_published? (congrArg (·.lookup unit) (completed.bind_contents unit))
  · rw [h.kind, publications_bind, publications_publish, closeRegion_publications, publications_publish]
    exact Nat.le_add_left 2 _

end

theorem resolve_of_lookupDirect {id : SymbolId}
    (h : table.lookupDirect name table.innermost.kind.isTypeInterior false table.regions = some id) :
    table.resolve name = table.resolution (some id) := by
  simp only [resolve, h]

theorem resolve_innermost (h : table.innermost.bindings.get name ≠ []) :
    table.resolve name = table.resolution (table.innermost.bindings.get name).getLast? := by
  have hlast := List.getLast?_eq_some_getLast h
  rw [hlast]
  apply resolve_of_lookupDirect
  simp [regions, lookupDirect, lookupIn, hlast]

theorem lookupImports_body_of_use {region : Region} (h : ∀ used ∈ region.imports, used.kind = .use) :
    table.lookupImports region name .body = none := by
  have hnone : region.imports.filter (·.kind = .body) = [] := by
    refine List.filter_eq_nil_iff.mpr fun used hused => ?_
    simp [h used hused]
  rw [lookupImports, hnone]
  rfl

theorem resolve_imported {id : SymbolId} (hinner : table.innermost.bindings.get name = [])
    (h : table.lookupImports table.innermost name .body = some id) : table.resolve name = table.resolution (some id) := by
  apply resolve_of_lookupDirect
  simp [regions, lookupDirect, lookupIn, hinner, h]

theorem resolve_enclosing {id : SymbolId} {region : Region} {rest : List Region}
    (hinner : table.innermost.bindings.get name = []) (hkind : table.innermost.kind.isTypeInterior = false)
    (himports : table.lookupImports table.innermost name .body = none) (henclosing : table.enclosing = region :: rest)
    (h : (region.bindings.get name).getLast? = some id) : table.resolve name = table.resolution (some id) := by
  apply resolve_of_lookupDirect
  simp [regions, henclosing, hkind, lookupDirect, lookupIn, hinner, himports, h]

theorem resolve_body {visible hidden : List SymbolId} (h : table.Publishes owner name visible hidden)
    (hany : visible ++ hidden ≠ []) (scope : Option SymbolId) :
    ((table.openRegion .packageBody scope).addImport owner .body).resolve name =
      table.resolution (visible ++ hidden).getLast? := by
  obtain ⟨contents, hcontents, rfl, rfl⟩ := h
  have hlast := List.getLast?_eq_some_getLast hany
  let body := (table.openRegion .packageBody scope).addImport owner .body
  have hlocal : body.lookupIn body.innermost name false = none := rfl
  have himport : body.lookupImports body.innermost name .body = table.lookupPublished owner name true := by
    have himports : body.innermost.imports.filter (·.kind = .body) = [⟨owner, .body⟩] := rfl
    rw [lookupImports, himports, List.findSome?_singleton]
    rfl
  have hpublished : table.lookupPublished owner name true =
      some ((contents.visible.get name ++ contents.hidden.get name).getLast hany) := by
    rw [lookupPublished, hcontents, Option.bind_some, Contents.get?_hidden, hlast]
  rw [hlast]
  refine (resolve_of_lookupDirect ?_).trans rfl
  change body.lookupDirect name _ false (body.innermost :: body.enclosing) = _
  rw [lookupDirect, hlocal, himport, hpublished]

section

variable {ending after now : SymbolTable} {unit : SymbolId} {formals : Name → List SymbolId}

theorem resolution_eq_of_has {later : SymbolTable} (hgrown : table.symbols.toList <+: later.symbols.toList)
    {found : Option SymbolId} (h : ∀ id ∈ found, table.Has id) : later.resolution found = table.resolution found := by
  cases found with
  | none => rfl
  | some id => simp only [resolution, kindOf_eq_of_has hgrown (h id rfl)]

theorem parts_eq (h : ending.innermost.WellFormed ending) (name : Name) :
    ending.visiblePart name ++ ending.privatePart name = ending.innermost.bindings.get name := by
  rw [h.get_eq, visiblePart, privatePart, ← called_append, Region.members, List.take_append_drop]

theorem Completed.resolve_body (h : Completed ending after unit formals) (hnow : now.Orderly)
    (hlater : now.RevertsTo after) (hdeclared : ∀ id ∈ ending.visiblePart name ++ formals name ++ ending.privatePart name,
      ending.Has id) (hany : ending.visiblePart name ++ formals name ++ ending.privatePart name ≠ [])
    (scope : Option SymbolId) :
    ((now.openRegion .packageBody scope).addImport unit .body).resolve name =
      ending.resolution (ending.visiblePart name ++ formals name ++ ending.privatePart name).getLast? := by
  have hgrown : ending.symbols.toList <+: now.symbols.toList := h.symbols ▸ hlater.symbols
  have hfinal : (now.kindOf unit).publications ≤ after.publications unit :=
    kindOf_eq_of_has hgrown h.has ▸ h.final
  have hpublishes : now.Publishes unit name _ _ := (h.publishes name).of_published? (hnow.published?_eq hlater hfinal)
  rw [SymbolTable.resolve_body hpublishes hany]
  exact resolution_eq_of_has hgrown fun id hid => hdeclared id (List.mem_of_getLast? hid)

theorem eq_singleton_of_isChain {α : Type} {follows : α → α → Prop} {items : List α} {item : α}
    (h : items.IsChain follows) (hitem : item ∈ items) (hbefore : ∀ other, ¬follows other item)
    (hbehind : ∀ other, ¬follows item other) : items = [item] := by
  induction items with
  | nil => cases hitem
  | cons first rest ih =>
    cases rest with
    | nil => rw [List.mem_singleton.mp hitem]
    | cons second rest =>
      obtain ⟨hfollows, hrest⟩ := List.isChain_cons_cons.mp h
      rcases List.mem_cons.mp hitem with rfl | hitem
      · exact absurd hfollows (hbehind second)
      · obtain ⟨rfl, -⟩ := List.cons.inj (ih hrest hitem)
        exact absurd hfollows (hbefore first)

theorem formalPart_eq {region : Region} {rest : List Region} (henclosing : ending.enclosing = region :: rest)
    (hregion : region.WellFormed ending) (hkind : ending.kindOf unit = .genericPackage)
    (hany : ending.formalPart unit name ≠ []) : region.bindings.get name = ending.formalPart unit name := by
  have hformals : ending.formalPart unit name = (region.bindings.get name).filter (· ≠ unit) := by
    rw [formalPart, henclosing, List.headD_cons, hregion.get_eq, called, called, List.filter_filter,
      List.filter_filter]
    exact List.filter_congr fun id _ => Bool.and_comm ..
  have hunit : unit ∉ region.bindings.get name := by
    intro hmem
    have hbefore : ∀ other, ¬ending.Follows other unit := by simp [Follows, hkind, SymbolKind.isOverloadable, SymbolKind.completes]
    have hbehind : ∀ other, ¬ending.Follows unit other := by simp [Follows, hkind, SymbolKind.isOverloadable, SymbolKind.completes]
    have hsingle := eq_singleton_of_isChain (hregion.isChain_get name) hmem hbefore hbehind
    rw [hformals, hsingle] at hany
    simp at hany
  rw [hformals]
  refine (List.filter_eq_self.mpr fun id hid => ?_).symm
  have hne : id ≠ unit := fun heq => hunit (heq ▸ hid)
  simpa using hne

theorem resolve_specification (hending : ending.Orderly) (hkind : ending.innermost.kind = .package)
    (hformals : formals name ≠ [] → ∃ region rest, ending.enclosing = region :: rest ∧
      region.bindings.get name = formals name)
    (hany : ending.visiblePart name ++ formals name ++ ending.privatePart name ≠ [])
    (hclear : ending.visiblePart name ≠ [] → formals name ≠ [] → ending.privatePart name ≠ []) :
    ending.resolve name =
      ending.resolution (ending.visiblePart name ++ formals name ++ ending.privatePart name).getLast? := by
  have hparts := parts_eq hending.wellFormed.innermost name
  by_cases hinner : ending.innermost.bindings.get name = []
  · -- What only the formals bind is found in their region, which is the next one.
    rw [hinner, List.append_eq_nil_iff] at hparts
    obtain ⟨hvisible, hprivate⟩ := hparts
    rw [hvisible, hprivate, List.nil_append, List.append_nil] at hany ⊢
    obtain ⟨region, rest, henclosing, hget⟩ := hformals hany
    rw [← hget] at hany ⊢
    have himports := hending.imports ending.innermost List.mem_cons_self (hkind ▸ rfl)
    rw [List.getLast?_eq_some_getLast hany]
    exact resolve_enclosing hinner (hkind ▸ rfl) (lookupImports_body_of_use himports) henclosing
      (List.getLast?_eq_some_getLast hany)
  · -- The package's own region comes first; the private part is last on both ways.
    rw [resolve_innermost hinner, ← hparts]
    congr 1
    rw [← hparts] at hinner
    by_cases hprivate : ending.privatePart name = []
    · have hvisible : ending.visiblePart name ≠ [] := by simpa [hprivate] using hinner
      have hnone : formals name = [] := by_contra fun hsome => hclear hvisible hsome hprivate
      rw [hnone, List.append_nil]
    · rw [List.getLast?_append_of_ne_nil _ hprivate, List.getLast?_append_of_ne_nil _ hprivate]

theorem Completed.resolve_eq (h : Completed ending after unit formals) (hending : ending.Orderly)
    (hkind : ending.innermost.kind = .package) (hnow : now.Orderly) (hlater : now.RevertsTo after)
    (hformals : formals name ≠ [] → ∃ region rest, ending.enclosing = region :: rest ∧
      region.bindings.get name = formals name)
    (hany : ending.visiblePart name ++ formals name ++ ending.privatePart name ≠ [])
    (hclear : ending.visiblePart name ≠ [] → formals name ≠ [] → ending.privatePart name ≠ []) (scope : Option SymbolId) :
    ((now.openRegion .packageBody scope).addImport unit .body).resolve name = ending.resolve name := by
  have hdeclared : ∀ id ∈ ending.visiblePart name ++ formals name ++ ending.privatePart name, ending.Has id := by
    have hregion : ∀ region ∈ ending.regions, ∀ id ∈ region.bindings.get name, ending.Has id := by
      intro region hregion id hid
      have hwell := hending.wellFormed.regions region hregion
      rw [hwell.get_eq, mem_called] at hid
      exact hwell.declared id hid.1
    have hinner := hregion ending.innermost List.mem_cons_self
    rw [← parts_eq hending.wellFormed.innermost] at hinner
    intro id hid
    simp only [List.mem_append, or_assoc] at hid hinner
    rcases hid with hid | hid | hid
    · exact hinner id (.inl hid)
    · obtain ⟨region, rest, henclosing, hget⟩ := hformals (List.ne_nil_of_mem hid)
      have hmem : region ∈ ending.regions := by simp [SymbolTable.regions, henclosing]
      exact hregion region hmem id (hget ▸ hid)
    · exact hinner id (.inr hid)
  rw [h.resolve_body hnow hlater hdeclared hany, resolve_specification hending hkind hformals hany hclear]

end

end SymbolTable

end AdaSyntax
