import AdaSyntax.Proofs.Scope.Places
import AdaSyntax.Proofs.Scope.Stack

/-!
Resolution from inside of a type declaration. Behind the declaration the search passes over labels, and over the
objects of subprograms, blocks and loops. So a name stands for what it would stand for if none of these had been bound
there.
-/

namespace AdaSyntax

namespace Bindings

/-- Without the bindings that are not kept. A name that keeps none is dropped. -/
def keep (keeps : SymbolId → Bool) : Bindings → Bindings
  | [] => []
  | (key, ids) :: rest =>
    if ids.filter keeps = [] then keep keeps rest else (key, ids.filter keeps) :: keep keeps rest

variable {keeps : SymbolId → Bool} {bindings : Bindings} {name : Name}

theorem names_keep_sublist : (bindings.keep keeps).names.Sublist bindings.names := by
  induction bindings with
  | nil => exact .slnil
  | cons entry rest ih =>
    unfold keep
    split
    · exact ih.cons entry.1
    · exact ih.cons_cons entry.1

theorem proper_keep : (bindings.keep keeps).Proper := by
  induction bindings with
  | nil => exact proper_nil
  | cons entry rest ih =>
    unfold keep
    split
    · exact ih
    · rename_i hkept
      exact List.forall_mem_cons.mpr ⟨hkept, ih⟩

theorem get_keep (h : bindings.names.Nodup) : (bindings.keep keeps).get name = (bindings.get name).filter keeps := by
  induction bindings with
  | nil => rfl
  | cons entry rest ih =>
    obtain ⟨key, ids⟩ := entry
    obtain ⟨hkey, hrest⟩ := List.nodup_cons.mp h
    by_cases hname : name = key
    · subst hname
      have hnone : name ∉ (keep keeps rest).names := fun hmem => hkey (names_keep_sublist.subset hmem)
      unfold keep
      split
      · rename_i hkept
        rw [get_of_not_mem hnone]
        simpa [get] using hkept.symm
      · simp [get]
    · have hne : (name == key) = false := beq_eq_false_iff_ne.mpr hname
      have hget : ∀ ids rest, get ((key, ids) :: rest) name = get rest name := by
        intro ids rest
        simp only [get, List.lookup_cons, hne]
      unfold keep
      split
      · rw [hget, ih hrest]
      · rw [hget, hget, ih hrest]

end Bindings

/-- Labels of all regions, and the objects of subprograms, blocks and loops. -/
def SymbolKind.HiddenIn (kind : SymbolKind) (region : RegionKind) : Prop :=
  kind = .label ∨ kind.isObject ∧ (region = .subprogram ∨ region = .block ∨ region = .loop)

instance (kind : SymbolKind) (region : RegionKind) : Decidable (kind.HiddenIn region) :=
  inferInstanceAs (Decidable (_ ∨ _))

namespace SymbolTable

variable {table : SymbolTable} {region : Region} {name : Name} {id : SymbolId}

theorem hides_iff : table.hides region id = true ↔ (table.kindOf id).HiddenIn region.kind := by
  have hregion : region.kind.hidesObjects = true ↔
      region.kind = .subprogram ∨ region.kind = .block ∨ region.kind = .loop := by
    cases region.kind <;> simp [RegionKind.hidesObjects]
  simp only [hides, Bool.or_eq_true, decide_eq_true_eq, Bool.and_eq_true, hregion, SymbolKind.HiddenIn]

/-- The region without the bindings that are hidden from inside of a type. -/
def exposed (table : SymbolTable) (region : Region) : Region :=
  { region with
    bindings := region.bindings.keep (!table.hides region ·)
    order := region.order.filter (!table.hides region ·)
    privateStart := region.privateStart.map fun count =>
      ((region.order.take count).filter (!table.hides region ·)).length }

theorem Follows.hides_eq {earlier later : SymbolId} (h : table.Follows earlier later) (region : Region) :
    table.hides region later = table.hides region earlier := by
  unfold hides
  rcases h with ⟨hearlier, hlater⟩ | hcompletes
  -- What is overloadable is never hidden; and it takes an object to complete an object.
  · have hoverloadable : ∀ kind : SymbolKind, kind.isOverloadable = true → kind ≠ .label ∧ kind.isObject = false := by
      intro kind hkind
      cases kind with
      | procedure | function | enumerationLiteral => exact ⟨nofun, rfl⟩
      | _ => cases hkind
    simp [hoverloadable _ hearlier, hoverloadable _ hlater]
  · revert hcompletes
    cases table.kindOf earlier <;> cases table.kindOf later <;> first | exact fun _ => rfl | nofun

theorem hides_all_or_none {ids : List SymbolId} (h : ids.IsChain table.Follows) (region : Region) :
    (∀ id ∈ ids, table.hides region id = true) ∨ ∀ id ∈ ids, table.hides region id = false := by
  induction h with
  | nil => exact .inl nofun
  | singleton id => cases hhides : table.hides region id <;> simp [hhides]
  | @cons_cons first second rest hfollows _ ih =>
    have heq := hfollows.hides_eq region
    rcases ih with hall | hnone
    · exact .inl (List.forall_mem_cons.mpr ⟨heq ▸ hall second List.mem_cons_self, hall⟩)
    · exact .inr (List.forall_mem_cons.mpr ⟨heq ▸ hnone second List.mem_cons_self, hnone⟩)

theorem get_exposed (h : region.WellFormed table) (name : Name) :
    (table.exposed region).bindings.get name = (region.bindings.get name).filter (!table.hides region ·) :=
  Bindings.get_keep h.keys

theorem exposed_wellFormed (h : region.WellFormed table) : (table.exposed region).WellFormed table := by
  refine .of_get (Bindings.names_keep_sublist.nodup h.keys) Bindings.proper_keep (fun name => ?_) (fun id hid => ?_)
    (fun count hcount => ?_) fun name => ?_
  · rw [get_exposed h, h.get_eq, called, called, exposed, List.filter_comm]
  · exact h.declared id (List.mem_filter.mp hid).1
  · obtain ⟨start, -, rfl⟩ := Option.map_eq_some_iff.mp hcount
    exact ((List.take_sublist start region.order).filter _).length_le
  -- What is left of a name's bindings is all of them or nothing, so each still follows the one before.
  · rw [get_exposed h]
    rcases hides_all_or_none (h.isChain_get name) region with hall | hnone
    · rw [List.filter_eq_nil_iff.mpr fun id hid => by simp [hall id hid]]
      exact .nil
    · rw [List.filter_eq_self.mpr fun id hid => by simp [hnone id hid]]
      exact h.isChain_get name

theorem lookupIn_exposed (h : region.WellFormed table) (name : Name) :
    table.lookupIn region name true = table.lookupIn (table.exposed region) name false := by
  unfold lookupIn
  simp only [if_true, Bool.false_eq_true, if_false]
  rw [get_exposed h, ← List.head?_reverse, ← List.filter_reverse, List.head?_filter]

theorem lookupIn_restricted (table : SymbolTable) (region : Region) (name : Name) :
    table.lookupIn region name true = table.lookupIn region name false ∨
      ∃ id ∈ region.bindings.get name, table.hides region id = true ∧ table.lookupIn region name false = some id := by
  unfold lookupIn
  simp only [if_true, Bool.false_eq_true, if_false]
  cases hlast : (region.bindings.get name).getLast? with
  | none =>
    rw [List.getLast?_eq_none_iff.mp hlast]
    exact .inl rfl
  | some id =>
    cases hhides : table.hides region id with
    | true => exact .inr ⟨id, List.mem_of_getLast? hlast, hhides, rfl⟩
    | false =>
      obtain ⟨before, hget⟩ := List.getLast?_eq_some_iff.mp hlast
      refine .inl ?_
      simp [hget, hhides]

theorem findSome?_exposed {interior : Bool} {regions : List Region} (h : ∀ region ∈ regions, region.WellFormed table)
    (name : Name) : (directPlaces interior true regions).findSome? (table.lookupAt name) =
      (directPlaces false false (regions.map table.exposed)).findSome? (table.lookupAt name) := by
  induction regions with
  | nil => rfl
  | cons region rest ih =>
    obtain ⟨hregion, hrest⟩ := List.forall_mem_cons.mp h
    have himports : (table.exposed region).importPlaces .body = region.importPlaces .body := rfl
    simp only [List.map_cons, directPlaces, Bool.true_or, Bool.false_or, Bool.false_and, List.findSome?_append,
      List.findSome?_cons, lookupAt, lookupIn_exposed hregion, himports, ih hrest]

theorem findSome?_restricted (table : SymbolTable) (name : Name) (interior : Bool) (regions : List Region) :
    (directPlaces interior true regions).findSome? (table.lookupAt name) =
        (directPlaces false false regions).findSome? (table.lookupAt name) ∨
      ∃ region ∈ regions, ∃ id ∈ region.bindings.get name, table.hides region id = true ∧
        (directPlaces false false regions).findSome? (table.lookupAt name) = some id := by
  induction regions with
  | nil => exact .inl rfl
  | cons region rest ih =>
    simp only [directPlaces, Bool.true_or, Bool.false_or, Bool.false_and, List.cons_append, List.findSome?_cons,
      lookupAt, List.findSome?_append]
    -- The first region that has the name decides. If what it has is hidden, that is what the other search finds.
    rcases table.lookupIn_restricted region name with heq | ⟨id, hid, hhides, hfound⟩
    · rw [heq]
      cases table.lookupIn region name false with
      | some id => exact .inl rfl
      | none =>
        cases (region.importPlaces .body).findSome? (table.lookupAt name) with
        | some id => exact .inl rfl
        | none =>
          refine ih.imp id ?_
          rintro ⟨other, hother, hfound⟩
          exact ⟨other, List.mem_cons_of_mem _ hother, hfound⟩
    · rw [hfound]
      exact .inr ⟨region, List.mem_cons_self, id, hid, hhides, rfl⟩

/-- The regions outside of the innermost type declaration, without what is hidden from inside of it. -/
def exposeOutside (table : SymbolTable) : List Region → List Region
  | [] => []
  | region :: rest =>
    if region.kind = .typeDeclaration then region :: rest.map table.exposed else region :: table.exposeOutside rest

/-- The table without what is hidden from its innermost region, which is part of a type declaration. -/
def withoutHidden (table : SymbolTable) : SymbolTable := { table with enclosing := table.exposeOutside table.enclosing }

variable {inside outside : List Region} {declaration : Region}

theorem exposeOutside_append (hinside : ∀ region ∈ inside, region.kind ≠ .typeDeclaration)
    (hdeclaration : declaration.kind = .typeDeclaration) :
    table.exposeOutside (inside ++ declaration :: outside) = inside ++ declaration :: outside.map table.exposed := by
  induction inside with
  | nil => simp [exposeOutside, hdeclaration]
  | cons region rest ih =>
    obtain ⟨hregion, hrest⟩ := List.forall_mem_cons.mp hinside
    simp only [List.cons_append, exposeOutside, if_neg hregion, ih hrest]

theorem exists_typeDeclaration {regions : List Region} (h : ∃ region ∈ regions, region.kind = .typeDeclaration) :
    ∃ inside declaration outside, regions = inside ++ declaration :: outside ∧
      (∀ region ∈ inside, region.kind ≠ .typeDeclaration) ∧ declaration.kind = .typeDeclaration := by
  induction regions with
  | nil => simp at h
  | cons region rest ih =>
    by_cases hregion : region.kind = .typeDeclaration
    · exact ⟨[], region, rest, rfl, nofun, hregion⟩
    · have hrest : ∃ region ∈ rest, region.kind = .typeDeclaration := by simpa [hregion] using h
      obtain ⟨inside, declaration, outside, rfl, hinside, hdeclaration⟩ := ih hrest
      exact ⟨region :: inside, declaration, outside, rfl, List.forall_mem_cons.mpr ⟨hregion, hinside⟩, hdeclaration⟩

theorem directPlaces_append (first second : List Region) :
    directPlaces false false (first ++ second) = directPlaces false false first ++ directPlaces false false second := by
  induction first with
  | nil => rfl
  | cons region rest ih =>
    simp only [List.cons_append, directPlaces, Bool.false_or, Bool.false_and, ih, List.append_assoc]

theorem directPlaces_interior (hinside : ∀ region ∈ inside, region.kind ≠ .typeDeclaration)
    (hdeclaration : declaration.kind = .typeDeclaration) :
    directPlaces true false (inside ++ declaration :: outside) =
      directPlaces false false (inside ++ [declaration]) ++ directPlaces true true outside := by
  induction inside with
  | nil => simp [directPlaces, hdeclaration]
  | cons region rest ih =>
    obtain ⟨hregion, hrest⟩ := List.forall_mem_cons.mp hinside
    simp only [List.cons_append, directPlaces, decide_eq_false hregion, Bool.and_false, Bool.false_or, ih hrest,
      List.append_assoc]

theorem resolve_openRegion (table : SymbolTable) {kind : RegionKind} (hkind : kind.isTypeInterior = false)
    (owner : Option SymbolId) (name : Name) : (table.openRegion kind owner).resolve name = table.resolution
      ((directPlaces false false table.regions ++ table.regions.flatMap (·.importPlaces .use)).findSome?
        (table.lookupAt name)) := by
  have hplaces : (table.openRegion kind owner).places =
      .region { id := ⟨table.nextRegion⟩, kind, owner } false ::
        (directPlaces false false table.regions ++ table.regions.flatMap (·.importPlaces .use)) := by
    have hregions : (table.openRegion kind owner).regions =
        { id := ⟨table.nextRegion⟩, kind, owner } :: table.regions := rfl
    have hinterior : (table.openRegion kind owner).innermost.kind.isTypeInterior = false := hkind
    simp only [places, hregions, hinterior, directPlaces, Bool.false_and, Bool.or_false, List.flatMap_cons,
      Region.importPlaces, List.filter_nil, List.map_nil, List.nil_append, List.cons_append]
  have hlookup : (table.openRegion kind owner).lookupAt name = table.lookupAt name := by
    funext place
    cases place <;> rfl
  rw [resolve_eq, hplaces, hlookup, List.findSome?_cons]
  rfl

theorem directPlaces_declaration (inside : List Region) (declaration : Region) (outside : List Region) :
    directPlaces false false (inside ++ declaration :: outside) =
      directPlaces false false (inside ++ [declaration]) ++ directPlaces false false outside := by
  rw [← directPlaces_append, List.append_assoc, List.singleton_append]

section

variable (hinterior : table.innermost.kind.isTypeInterior = true)
  (hregions : table.regions = inside ++ declaration :: outside)
  (hinside : ∀ region ∈ inside, region.kind ≠ .typeDeclaration) (hdeclaration : declaration.kind = .typeDeclaration)
include hinterior hregions hinside hdeclaration

theorem withoutHidden_regions :
    table.withoutHidden.regions = inside ++ declaration :: outside.map table.exposed := by
  have hinnermost : table.innermost.kind ≠ .typeDeclaration := by
    intro heq
    rw [heq] at hinterior
    cases hinterior
  have heq : table.withoutHidden.regions = table.exposeOutside table.regions := by
    simp only [withoutHidden, SymbolTable.regions, exposeOutside, if_neg hinnermost]
  rw [heq, hregions, exposeOutside_append hinside hdeclaration]

theorem WellFormed.withoutHidden (h : table.WellFormed) : table.withoutHidden.WellFormed := by
  have hexposed := withoutHidden_regions hinterior hregions hinside hdeclaration
  obtain ⟨bottom, hbottom, hlibrary⟩ := h.bottom
  have hincreasing := h.increasing
  have hcounted := h.counted
  have hwell := h.regions
  rw [hregions] at hbottom hincreasing hcounted hwell
  simp only [List.forall_mem_append, List.forall_mem_cons] at hcounted hwell
  exact {
    bottom := by
      rw [hexposed]
      cases hlast : outside.getLast? with
      | none =>
        rw [List.getLast?_eq_none_iff.mp hlast] at hbottom ⊢
        exact ⟨bottom, hbottom, hlibrary⟩
      | some last =>
        have heq : last = bottom := by simpa [List.getLast?_append, List.getLast?_cons, hlast] using hbottom
        refine ⟨table.exposed last, ?_, heq ▸ hlibrary⟩
        simp [List.getLast?_append, List.getLast?_cons, hlast]
    increasing := by
      rw [hexposed]
      simpa [List.pairwise_append, List.pairwise_map, exposed] using hincreasing
    counted := by
      rw [hexposed]
      simp only [List.forall_mem_append, List.forall_mem_cons, List.forall_mem_map]
      exact hcounted
    regions := by
      rw [hexposed]
      simp only [List.forall_mem_append, List.forall_mem_cons, List.forall_mem_map]
      exact ⟨fun region hregion => (hwell.1 region hregion).mono List.prefix_rfl, hwell.2.1.mono List.prefix_rfl,
        fun region hregion => (exposed_wellFormed (hwell.2.2 region hregion)).mono List.prefix_rfl⟩
    published := h.published_mono List.prefix_rfl rfl }

theorem resolve_typeInterior (name : Name) : table.resolve name = table.resolution
    ((directPlaces false false (inside ++ [declaration]) ++ directPlaces true true outside ++
      table.regions.flatMap (·.importPlaces .use)).findSome? (table.lookupAt name)) := by
  rw [resolve_eq, places, hinterior, hregions, directPlaces_interior hinside hdeclaration]

theorem resolve_openRegion_withoutHidden (houtside : ∀ region ∈ outside, region.WellFormed table) {kind : RegionKind}
    (hkind : kind.isTypeInterior = false) (owner : Option SymbolId) (name : Name) :
    (table.withoutHidden.openRegion kind owner).resolve name = table.resolve name := by
  have hexposed := withoutHidden_regions hinterior hregions hinside hdeclaration
  have huse : table.withoutHidden.regions.flatMap (·.importPlaces .use) =
      table.regions.flatMap (·.importPlaces .use) := by
    rw [hexposed, hregions, List.flatMap_append, List.flatMap_append, List.flatMap_cons, List.flatMap_cons,
      List.flatMap_map]
    rfl
  have hlookup : table.withoutHidden.lookupAt name = table.lookupAt name := by
    funext place
    cases place <;> rfl
  rw [resolve_openRegion _ hkind, huse, hlookup, hexposed, directPlaces_declaration,
    resolve_typeInterior hinterior hregions hinside hdeclaration, List.findSome?_append, List.findSome?_append,
    List.findSome?_append, List.findSome?_append, findSome?_exposed houtside]
  rfl

theorem resolve_openRegion_cases {kind : RegionKind} (hkind : kind.isTypeInterior = false) (owner : Option SymbolId)
    (name : Name) : table.resolve name = (table.openRegion kind owner).resolve name ∨
      ∃ region ∈ outside, ∃ id ∈ region.bindings.get name, (table.kindOf id).HiddenIn region.kind ∧
        (table.openRegion kind owner).resolve name = ⟨some id, table.kindOf id⟩ := by
  rw [resolve_openRegion _ hkind, resolve_typeInterior hinterior hregions hinside hdeclaration, hregions,
    directPlaces_declaration inside declaration outside]
  simp only [List.findSome?_append]
  cases (directPlaces false false (inside ++ [declaration])).findSome? (table.lookupAt name) with
  | some id => exact .inl rfl
  | none =>
    rcases table.findSome?_restricted name true outside with heq | ⟨region, hregion, id, hid, hhides, hfound⟩
    · rw [heq]
      exact .inl rfl
    · rw [hfound]
      exact .inr ⟨region, hregion, id, hid, hides_iff.mp hhides, rfl⟩

end

/-- From inside of a type declaration, every name stands for what it stands for in the table without the hidden
bindings, which are those of labels and of objects in subprograms, blocks and loops outside of the declaration. Only
where such a binding would come first does the search find something else than from elsewhere. -/
theorem resolve_withoutHidden (hreachable : table.Reachable) (hinterior : table.innermost.kind.isTypeInterior = true)
    (htype : ∃ region ∈ table.enclosing, region.kind = .typeDeclaration) :
    ∃ inside declaration outside,
      table.regions = inside ++ declaration :: outside ∧
        (∀ region ∈ inside, region.kind ≠ .typeDeclaration) ∧ declaration.kind = .typeDeclaration ∧
      table.withoutHidden = { table with enclosing := table.withoutHidden.enclosing } ∧
        table.withoutHidden.regions = inside ++ declaration :: outside.map table.exposed ∧
        table.withoutHidden.WellFormed ∧
      (∀ region ∈ outside, (table.exposed region).imports = region.imports ∧ ∀ name,
        (table.exposed region).bindings.get name =
          (region.bindings.get name).filter fun id => ¬(table.kindOf id).HiddenIn region.kind) ∧
      ∀ kind owner, kind.isTypeInterior = false → ∀ name,
        (table.withoutHidden.openRegion kind owner).resolve name = table.resolve name ∧
          (table.resolve name = (table.openRegion kind owner).resolve name ∨
            ∃ region ∈ outside, ∃ id ∈ region.bindings.get name, (table.kindOf id).HiddenIn region.kind ∧
              (table.openRegion kind owner).resolve name = ⟨some id, table.kindOf id⟩) := by
  have hwell := hreachable.wellFormed
  have hsome : ∃ region ∈ table.regions, region.kind = .typeDeclaration := by
    obtain ⟨region, hregion, hkind⟩ := htype
    exact ⟨region, List.mem_cons_of_mem _ hregion, hkind⟩
  obtain ⟨inside, declaration, outside, hregions, hinside, hdeclaration⟩ := exists_typeDeclaration hsome
  have houtside : ∀ region ∈ outside, region.WellFormed table := fun region hregion =>
    hwell.regions region (hregions ▸ List.mem_append_right _ (List.mem_cons_of_mem _ hregion))
  refine ⟨inside, declaration, outside, hregions, hinside, hdeclaration, rfl,
    withoutHidden_regions hinterior hregions hinside hdeclaration,
    hwell.withoutHidden hinterior hregions hinside hdeclaration, fun region hregion => ⟨rfl, fun name => ?_⟩,
    fun kind owner hkind name => ⟨?_, ?_⟩⟩
  · rw [get_exposed (houtside region hregion)]
    refine List.filter_congr fun id _ => ?_
    rw [Bool.eq_iff_iff, decide_eq_true_eq, ← hides_iff, Bool.not_eq_true', Bool.not_eq_true]
  · exact resolve_openRegion_withoutHidden hinterior hregions hinside hdeclaration houtside hkind owner name
  · exact resolve_openRegion_cases hinterior hregions hinside hdeclaration hkind owner name

/-- A local object hides the one of a package that a use clause names, but not from the components of a record; there
the label of a block is not seen either. -/
theorem resolve_withoutHidden_record :
    let commands : List TableCommand :=
      [.change (.declare { name := ⟨"P"⟩, kind := .package }), .change (.openRegion .package (some ⟨0⟩)),
        .change (.declare { name := ⟨"X"⟩, kind := .object }), .change .closeRegion,
        .change (.publish ⟨0⟩ { visible := [⟨1⟩] }), .change (.openRegion .subprogram none),
        .change (.addImport ⟨0⟩ .use), .change (.declare { name := ⟨"X"⟩, kind := .object }),
        .change (.declare { name := ⟨"B"⟩, kind := .label }), .change (.openRegion .typeDeclaration none),
        .change (.openRegion .record none)]
    let table := (MarkedTable.start.run commands).table
    let exposed := table.withoutHidden.openRegion .block none
    table.Reachable ∧ table.innermost.kind.isTypeInterior = true ∧
      (∃ region ∈ table.enclosing, region.kind = .typeDeclaration) ∧
      (table.openRegion .block none).resolve ⟨"X"⟩ = ⟨some ⟨2⟩, .object⟩ ∧
        exposed.resolve ⟨"X"⟩ = table.resolve ⟨"X"⟩ ∧ table.resolve ⟨"X"⟩ = ⟨some ⟨1⟩, .object⟩ ∧
      (table.openRegion .block none).resolve ⟨"B"⟩ = ⟨some ⟨3⟩, .label⟩ ∧
        exposed.resolve ⟨"B"⟩ = table.resolve ⟨"B"⟩ ∧ table.resolve ⟨"B"⟩ = .unresolved := by
  intro commands table exposed
  have hlegal : MarkedTable.start.Legal commands := by
    simp only [commands, MarkedTable.Legal, TableCommand.Legal, TableChange.Legal, Has]
    decide
  have hreachable : table.Reachable := ⟨commands, hlegal, rfl⟩
  have htype : ∃ region ∈ table.enclosing, region.kind = .typeDeclaration := ⟨_, List.mem_cons_self, rfl⟩
  obtain ⟨inside, declaration, outside, -, -, -, -, -, -, -, hresolve⟩ := resolve_withoutHidden hreachable rfl htype
  exact ⟨hreachable, rfl, htype, by decide, (hresolve .block none rfl ⟨"X"⟩).1, by decide, by decide,
    (hresolve .block none rfl ⟨"B"⟩).1, by decide⟩

end SymbolTable

end AdaSyntax
