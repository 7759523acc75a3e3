import AdaSyntax.Proofs.Scope.WellFormed
import Mathlib.Data.List.Find

namespace AdaSyntax

theorem findSome?_congr {α β : Type} {f g : α → Option β} {items : List α} (h : ∀ item ∈ items, f item = g item) :
    items.findSome? f = items.findSome? g := by
  induction items with
  | nil => rfl
  | cons item rest ih =>
    obtain ⟨hitem, hrest⟩ := List.forall_mem_cons.mp h
    simp only [List.findSome?_cons, hitem, ih hrest]

inductive Place where
  /-- The bindings of an open region. A restricted search passes over those that are hidden from inside a type. -/
  | region (region : Region) (restricted : Bool)
  /-- What an imported package has published. -/
  | imported (used : Import)

def Region.importPlaces (region : Region) (kind : ImportKind) : List Place :=
  (region.imports.filter (·.kind = kind)).map .imported

/-- The places where a name may be directly visible. -/
def directPlaces (interior restricted : Bool) : List Region → List Place
  | [] => []
  | region :: rest =>
    .region region restricted :: region.importPlaces .body ++
      directPlaces interior (restricted || (interior && region.kind = .typeDeclaration)) rest

namespace SymbolTable

def places (table : SymbolTable) : List Place :=
  directPlaces table.innermost.kind.isTypeInterior false table.regions ++ table.regions.flatMap (·.importPlaces .use)

def lookupAt (table : SymbolTable) (name : Name) : Place → Option SymbolId
  | .region region restricted => table.lookupIn region name restricted
  | .imported used => table.lookupPublished used.package name (used.kind = .body)

variable {table later : SymbolTable} {name : Name}

theorem findSome?_importPlaces (table : SymbolTable) (name : Name) (region : Region) (kind : ImportKind) :
    (region.importPlaces kind).findSome? (table.lookupAt name) = table.lookupImports region name kind := by
  rw [Region.importPlaces, List.findSome?_map, lookupImports]
  refine findSome?_congr fun used hused => ?_
  have hkind : used.kind = kind := by simpa using (List.mem_filter.mp hused).2
  simp [lookupAt, hkind]

theorem findSome?_directPlaces (table : SymbolTable) (name : Name) (interior restricted : Bool)
    (regions : List Region) :
    (directPlaces interior restricted regions).findSome? (table.lookupAt name) =
      table.lookupDirect name interior restricted regions := by
  induction regions generalizing restricted with
  | nil => rfl
  | cons region rest ih =>
    rw [directPlaces, List.findSome?_append, List.findSome?_cons, findSome?_importPlaces, ih, lookupDirect, lookupAt]
    cases table.lookupIn region name restricted with
    | some id => rfl
    | none => cases table.lookupImports region name .body <;> rfl

theorem findSome?_usePlaces (table : SymbolTable) (name : Name) (regions : List Region) :
    (regions.flatMap (·.importPlaces .use)).findSome? (table.lookupAt name) =
      regions.findSome? (table.lookupImports · name .use) := by
  induction regions with
  | nil => rfl
  | cons region rest ih =>
    rw [List.flatMap_cons, List.findSome?_append, findSome?_importPlaces, ih, List.findSome?_cons]
    cases table.lookupImports region name .use <;> rfl

theorem resolve_eq (table : SymbolTable) (name : Name) :
    table.resolve name = table.resolution (table.places.findSome? (table.lookupAt name)) := by
  rw [places, List.findSome?_append, findSome?_directPlaces, findSome?_usePlaces, resolve]
  cases table.lookupDirect name table.innermost.kind.isTypeInterior false table.regions <;> rfl

theorem mem_directPlaces {place : Place} {interior restricted : Bool} {regions : List Region}
    (h : place ∈ directPlaces interior restricted regions) :
    ∃ region ∈ regions, (∃ restricted, place = .region region restricted) ∨
      ∃ used ∈ region.imports, used.kind = .body ∧ place = .imported used := by
  induction regions generalizing restricted with
  | nil => cases h
  | cons region rest ih =>
    rw [directPlaces, List.mem_append, List.mem_cons] at h
    rcases h with (h | h) | h
    · exact ⟨region, List.mem_cons_self, .inl ⟨restricted, h⟩⟩
    · obtain ⟨used, hused, rfl⟩ := List.mem_map.mp h
      obtain ⟨hused, hkind⟩ := List.mem_filter.mp hused
      exact ⟨region, List.mem_cons_self, .inr ⟨used, hused, of_decide_eq_true hkind, rfl⟩⟩
    · obtain ⟨other, hother, hplace⟩ := ih h
      exact ⟨other, List.mem_cons_of_mem _ hother, hplace⟩

theorem mem_places {place : Place} (h : place ∈ table.places) :
    ∃ region ∈ table.regions, (∃ restricted, place = .region region restricted) ∨
      ∃ used ∈ region.imports, place = .imported used := by
  rcases List.mem_append.mp h with h | h
  · obtain ⟨region, hregion, hplace⟩ := mem_directPlaces h
    exact ⟨region, hregion, hplace.imp id fun ⟨used, hused, _, hplace⟩ => ⟨used, hused, hplace⟩⟩
  · obtain ⟨region, hregion, h⟩ := List.mem_flatMap.mp h
    obtain ⟨used, hused, rfl⟩ := List.mem_map.mp h
    exact ⟨region, hregion, .inr ⟨used, (List.mem_filter.mp hused).1, rfl⟩⟩

def outerPlaces (table : SymbolTable) : List Place :=
  table.innermost.importPlaces .body ++
    directPlaces table.innermost.kind.isTypeInterior
      (table.innermost.kind.isTypeInterior && table.innermost.kind = .typeDeclaration) table.enclosing ++
    table.regions.flatMap (·.importPlaces .use)

theorem places_eq (table : SymbolTable) : table.places = .region table.innermost false :: table.outerPlaces := by
  rw [places, SymbolTable.regions, directPlaces, outerPlaces, Bool.false_or, List.cons_append, List.cons_append,
    SymbolTable.regions]

theorem resolve_or (table : SymbolTable) (name : Name) :
    table.resolve name = table.resolution ((table.innermost.bindings.get name).getLast?.or
      (table.outerPlaces.findSome? (table.lookupAt name))) := by
  rw [resolve_eq, places_eq, List.findSome?_cons, lookupAt, lookupIn]
  cases (table.innermost.bindings.get name).getLast? <;> rfl

theorem Names.kindOf_eq {id : SymbolId} (h : table.Names id name)
    (hgrown : table.symbols.toList <+: later.symbols.toList) : later.kindOf id = table.kindOf id :=
  kindOf_eq_of_has hgrown h.has

theorem resolution_grown {found : Option SymbolId} (h : table.Denotes name (table.resolution found))
    (hgrown : table.symbols.toList <+: later.symbols.toList) : later.resolution found = table.resolution found := by
  cases found with
  | none => rfl
  | some id =>
    obtain ⟨symbol, hsymbol, hname, -⟩ := h
    have hnames : table.Names id name := ⟨symbol, hsymbol, hname⟩
    rw [resolution, resolution, hnames.kindOf_eq hgrown]

theorem lookupPublished_congr {owner : SymbolId} (h : later.published? owner = table.published? owner) (name : Name)
    (withHidden : Bool) :
    later.lookupPublished owner name withHidden = table.lookupPublished owner name withHidden := by
  rw [lookupPublished, h, lookupPublished]

theorem Filed.lookupIn_grown (h : table.Filed) (hgrown : table.symbols.toList <+: later.symbols.toList)
    {region : Region} (hregion : region ∈ table.regions) (restricted : Bool) :
    later.lookupIn region name restricted = table.lookupIn region name restricted := by
  unfold SymbolTable.lookupIn
  split
  · refine List.find?_congr fun id hid => ?_
    have hnames := (h.regions region hregion).bindings.get (List.mem_reverse.mp hid)
    rw [hides, hides, hnames.kindOf_eq hgrown]
  · rfl

theorem Filed.lookupAt_grown (h : table.Filed) (hgrown : table.symbols.toList <+: later.symbols.toList)
    (hpublished : ∀ owner, later.published? owner = table.published? owner) (name : Name) :
    ∀ place ∈ table.places, later.lookupAt name place = table.lookupAt name place := by
  intro place hplace
  obtain ⟨region, hregion, ⟨restricted, rfl⟩ | ⟨used, -, rfl⟩⟩ := mem_places hplace
  · exact h.lookupIn_grown hgrown hregion restricted
  · exact lookupPublished_congr (hpublished used.package) name _

theorem Filed.resolve_grown (h : table.Filed) (hgrown : table.symbols.toList <+: later.symbols.toList)
    (hregions : later.regions = table.regions) (hpublished : ∀ owner, later.published? owner = table.published? owner)
    (name : Name) : later.resolve name = table.resolve name := by
  have hdenotes := h.denotes_resolve name
  have hplaces : later.places = table.places := by
    have hinnermost : later.innermost = table.innermost := (List.cons.inj hregions).1
    rw [places, hregions, hinnermost, places]
  rw [resolve_eq] at hdenotes
  rw [resolve_eq, resolve_eq, hplaces, findSome?_congr (h.lookupAt_grown hgrown hpublished name)]
  exact resolution_grown hdenotes hgrown

theorem Filed.resolveMember_grown (h : table.Filed) (hgrown : table.symbols.toList <+: later.symbols.toList)
    (hregions : later.regions = table.regions) (hpublished : ∀ owner, later.published? owner = table.published? owner)
    (owner : SymbolId) (name : Name) : later.resolveMember owner name = table.resolveMember owner name := by
  have hdenotes := h.denotes_resolveMember owner name
  unfold SymbolTable.resolveMember at hdenotes ⊢
  simp only [hregions, lookupPublished_congr (hpublished owner)] at hdenotes ⊢
  split at hdenotes <;> exact resolution_grown hdenotes hgrown

end SymbolTable

end AdaSyntax
