import AdaSyntax.Proofs.Scope.Change
import AdaSyntax.Scope.Lookup

namespace AdaSyntax

theorem SymbolTable.symbol?_of_isPrefix {earlier later : SymbolTable} {id : SymbolId} {symbol : Symbol}
    (h : earlier.symbols.toList <+: later.symbols.toList) (hsymbol : earlier.symbol? id = some symbol) :
    later.symbol? id = some symbol := by
  obtain ⟨added, hadded⟩ := h
  have hlt : id.index < earlier.symbols.size := (Array.getElem?_eq_some_iff.mp hsymbol).1
  rw [symbol?, ← Array.getElem?_toList, ← hadded, List.getElem?_append_left (by simpa using hlt),
    Array.getElem?_toList]
  exact hsymbol

def SymbolTable.Names (table : SymbolTable) (id : SymbolId) (name : Name) : Prop :=
  ∃ symbol, table.symbol? id = some symbol ∧ symbol.name = name

theorem SymbolTable.Names.mono {earlier later : SymbolTable} {id : SymbolId} {name : Name}
    (hgrown : earlier.symbols.toList <+: later.symbols.toList) (h : earlier.Names id name) :
    later.Names id name :=
  have ⟨symbol, hsymbol, hname⟩ := h
  ⟨symbol, symbol?_of_isPrefix hgrown hsymbol, hname⟩

namespace Bindings

/-- Every id is filed under the name of its entity. -/
def Filed (table : SymbolTable) (bindings : Bindings) : Prop :=
  ∀ entry ∈ bindings, ∀ id ∈ entry.2, table.Names id entry.1

variable {table later : SymbolTable} {bindings : Bindings} {name : Name} {id : SymbolId}

theorem mem_of_mem_get (h : id ∈ bindings.get name) : ∃ ids, (name, ids) ∈ bindings ∧ id ∈ ids := by
  unfold get at h
  cases hlookup : bindings.lookup name with
  | none => simp [hlookup] at h
  | some ids =>
    rw [hlookup, Option.getD_some] at h
    obtain ⟨before, after, heq, -⟩ := List.lookup_eq_some_iff.mp hlookup
    exact ⟨ids, by simp [heq], h⟩

namespace Filed

theorem nil : Filed table [] := by simp [Filed]

theorem get (h : bindings.Filed table) (hid : id ∈ bindings.get name) : table.Names id name := by
  obtain ⟨ids, hentry, hid⟩ := mem_of_mem_get hid
  exact h _ hentry id hid

theorem mono (h : bindings.Filed table) (hgrown : table.symbols.toList <+: later.symbols.toList) :
    bindings.Filed later :=
  fun entry hentry id hid => (h entry hentry id hid).mono hgrown

theorem add (h : bindings.Filed table) (hid : table.Names id name) :
    (bindings.add name id).Filed table := by
  induction bindings with
  | nil => simpa [Filed] using hid
  | cons entry rest ih =>
    obtain ⟨key, ids⟩ := entry
    obtain ⟨hids, hrest⟩ := List.forall_mem_cons.mp h
    by_cases hkey : key = name
    · subst hkey
      simp only [add_cons, if_true]
      refine List.forall_mem_cons.mpr ⟨fun other hother => ?_, hrest⟩
      rcases List.mem_append.mp hother with hother | hother
      · exact hids other hother
      · exact List.mem_singleton.mp hother ▸ hid
    · simp only [add_cons, hkey, if_false]
      exact List.forall_mem_cons.mpr ⟨hids, ih hrest⟩

theorem addAll (h : bindings.Filed table) (ids : List SymbolId) :
    (table.addBindings bindings ids).Filed table := by
  unfold SymbolTable.addBindings
  induction ids generalizing bindings with
  | nil => exact h
  | cons id ids ih =>
    rw [List.foldl_cons]
    split
    · rename_i symbol hsymbol
      exact ih (h.add ⟨symbol, hsymbol, rfl⟩)
    · exact ih h

end Filed

end Bindings

/-- The order of a region lists what is bound in it. -/
structure Region.Filed (table : SymbolTable) (region : Region) : Prop where
  bindings : region.bindings.Filed table
  order : ∀ id ∈ region.order, ∃ symbol, table.symbol? id = some symbol ∧
    id ∈ region.bindings.get symbol.name

structure Contents.Filed (table : SymbolTable) (contents : Contents) : Prop where
  visible : contents.visible.Filed table
  hidden : contents.hidden.Filed table

/-- The open regions and the published contents hold declared entities only, each under its name. -/
structure SymbolTable.Filed (table : SymbolTable) : Prop where
  regions : ∀ region ∈ table.regions, region.Filed table
  contents : ∀ entry ∈ table.contents, entry.2.Filed table

namespace Region.Filed

variable {table later : SymbolTable} {region : Region}

theorem mono (h : region.Filed table) (hgrown : table.symbols.toList <+: later.symbols.toList) :
    region.Filed later where
  bindings := h.bindings.mono hgrown
  order := fun id hid =>
    have ⟨symbol, hsymbol, hget⟩ := h.order id hid
    ⟨symbol, SymbolTable.symbol?_of_isPrefix hgrown hsymbol, hget⟩

theorem of_nil (hbindings : region.bindings = []) (horder : region.order = []) : region.Filed table where
  bindings := hbindings ▸ .nil
  order := by simp [horder]

theorem bind {id : SymbolId} {symbol : Symbol} (h : region.Filed table)
    (hsymbol : table.symbol? id = some symbol) : (region.bind symbol.name id).Filed table where
  bindings := h.bindings.add ⟨symbol, hsymbol, rfl⟩
  order := by
    intro other hother
    rcases List.mem_append.mp hother with hother | hother
    · obtain ⟨found, hfound, hget⟩ := h.order other hother
      exact ⟨found, hfound, (Bindings.get_prefix_add ..).subset hget⟩
    · rw [List.mem_singleton.mp hother]
      exact ⟨symbol, hsymbol, by simp [Region.bind]⟩

end Region.Filed

namespace SymbolTable

theorem mem_setContents {owner : SymbolId} {merged : Contents} {contents : List (SymbolId × Contents)}
    {entry : SymbolId × Contents} (h : entry ∈ setContents owner merged contents) :
    entry.2 = merged ∨ entry ∈ contents := by
  induction contents with
  | nil => exact .inl (congrArg Prod.snd (List.mem_singleton.mp h))
  | cons first rest ih =>
    obtain ⟨key, old⟩ := first
    unfold setContents at h
    split at h
    · rcases List.mem_cons.mp h with rfl | h
      · exact .inl rfl
      · exact .inr (List.mem_cons_of_mem _ h)
    · rcases List.mem_cons.mp h with rfl | h
      · exact .inr List.mem_cons_self
      · exact (ih h).imp id (List.mem_cons_of_mem _)

theorem mem_of_published? {table : SymbolTable} {owner : SymbolId} {contents : Contents}
    (h : table.published? owner = some contents) : (owner, contents) ∈ table.contents := by
  obtain ⟨before, after, heq, -⟩ := List.lookup_eq_some_iff.mp h
  simp [heq]

namespace Filed

variable {table later : SymbolTable} {name : Name} {id : SymbolId}

theorem published (h : table.Filed) {owner : SymbolId} {contents : Contents}
    (hcontents : table.published? owner = some contents) : contents.Filed table :=
  h.contents _ (mem_of_published? hcontents)

theorem contents_getD (h : table.Filed) (owner : SymbolId) :
    ((table.published? owner).getD {}).Filed table := by
  cases hcontents : table.published? owner with
  | none => exact ⟨.nil, .nil⟩
  | some contents => exact h.published hcontents

theorem of_regions (h : table.Filed) (hgrown : table.symbols.toList <+: later.symbols.toList)
    (hregions : ∀ region ∈ later.regions, region.Filed table) (hcontents : later.contents = table.contents) :
    later.Filed where
  regions region hregion := (hregions region hregion).mono hgrown
  contents entry hentry :=
    have hfiled := h.contents entry (hcontents ▸ hentry)
    ⟨hfiled.visible.mono hgrown, hfiled.hidden.mono hgrown⟩

theorem of_innermost (h : table.Filed) {region : Region} (hregion : region.Filed table) :
    ∀ other ∈ region :: table.enclosing, other.Filed table :=
  List.forall_mem_cons.mpr ⟨hregion, fun other hother => h.regions other (List.mem_cons_of_mem _ hother)⟩

theorem innermost (h : table.Filed) : table.innermost.Filed table := h.regions _ List.mem_cons_self

theorem empty : SymbolTable.empty.Filed where
  regions _ hregion := List.mem_singleton.mp hregion ▸ .of_nil rfl rfl
  contents := nofun

theorem reserve (h : table.Filed) (declaration : Declaration) : (table.reserve declaration).2.Filed :=
  h.of_regions (table.reserve_revertsTo declaration).symbols h.regions rfl

theorem bind (h : table.Filed) (id : SymbolId) : (table.bind id).2.Filed := by
  rcases table.bind_eq id with heq | ⟨symbol, hsymbol, heq⟩ <;> rw [heq]
  · exact h
  · exact h.of_regions List.prefix_rfl (h.of_innermost (h.innermost.bind hsymbol)) rfl

theorem declare (h : table.Filed) (declaration : Declaration) :
    (table.declare declaration).2.2.Filed :=
  (h.reserve declaration).bind _

theorem openRegion (h : table.Filed) (kind : RegionKind) (owner : Option SymbolId) :
    (table.openRegion kind owner).Filed :=
  h.of_regions List.prefix_rfl (List.forall_mem_cons.mpr ⟨.of_nil rfl rfl, h.regions⟩) rfl

theorem closeRegion (h : table.Filed) : (table.change .closeRegion).Filed := by
  cases henclosing : table.enclosing with
  | nil => simpa only [SymbolTable.change, SymbolTable.closeRegion, henclosing] using h
  | cons region rest =>
    simp only [SymbolTable.change, SymbolTable.closeRegion, henclosing]
    refine h.of_regions List.prefix_rfl (fun other hother => h.regions other ?_) rfl
    exact List.mem_cons_of_mem _ (henclosing ▸ hother)

theorem markPrivate (h : table.Filed) : table.markPrivate.Filed :=
  h.of_regions List.prefix_rfl (h.of_innermost ⟨h.innermost.bindings, h.innermost.order⟩) rfl

theorem addImport (h : table.Filed) (package : SymbolId) (kind : ImportKind) :
    (table.addImport package kind).Filed :=
  h.of_regions List.prefix_rfl (h.of_innermost ⟨h.innermost.bindings, h.innermost.order⟩) rfl

theorem putContents (h : table.Filed) {contents : Contents} (hcontents : contents.Filed table)
    (owner : SymbolId) : (table.putContents owner contents).Filed where
  regions region hregion := (h.regions region hregion).mono List.prefix_rfl
  contents := by
    intro entry hentry
    rcases mem_setContents hentry with heq | hentry
    · rw [heq]
      exact ⟨hcontents.visible.mono List.prefix_rfl, hcontents.hidden.mono List.prefix_rfl⟩
    · have hfiled := h.contents entry hentry
      exact ⟨hfiled.visible.mono List.prefix_rfl, hfiled.hidden.mono List.prefix_rfl⟩

theorem publish (h : table.Filed) (owner : SymbolId) (members : Members) :
    (table.publish owner members).Filed :=
  have hold := h.contents_getD owner
  h.putContents ⟨hold.visible.addAll members.visible, hold.hidden.addAll members.hidden⟩ owner

theorem publishAlias (h : table.Filed) (synonym target : SymbolId) :
    (table.publishAlias synonym target).Filed := by
  unfold SymbolTable.publishAlias
  split
  · exact h
  · rename_i contents hcontents
    exact h.putContents (h.published hcontents) synonym

theorem addPredefined (h : table.Filed) : table.addPredefined.2.Filed :=
  addPredefined_induction h (fun _ declaration h => h.declare declaration)
    fun _ declaration h => (h.declare declaration).publish _ _

theorem change (h : table.Filed) (change : TableChange) : (table.change change).Filed := by
  cases change with
  | populate => exact h.addPredefined
  | declare declaration => exact h.declare declaration
  | reserve declaration => exact h.reserve declaration
  | bind id => exact h.bind id
  | openRegion kind owner => exact h.openRegion kind owner
  | closeRegion => exact h.closeRegion
  | markPrivate => exact h.markPrivate
  | addImport package kind => exact h.addImport package kind
  | publish owner members => exact h.publish owner members
  | publishCurrent owner => exact h.publish owner _
  | publishAlias synonym target => exact h.publishAlias synonym target

theorem lt_size (h : table.Filed) (hid : id ∈ table.innermost.bindings.get name) : id.index < table.symbols.size := by
  obtain ⟨symbol, hsymbol, -⟩ := h.innermost.bindings.get hid
  exact (Array.getElem?_eq_some_iff.mp hsymbol).1

theorem lookupIn (h : table.Filed) {region : Region} (hregion : region ∈ table.regions) {restricted : Bool}
    (hid : table.lookupIn region name restricted = some id) : table.Names id name := by
  refine (h.regions region hregion).bindings.get ?_
  unfold SymbolTable.lookupIn at hid
  split at hid
  · exact List.mem_reverse.mp (List.mem_of_find?_eq_some hid)
  · exact List.mem_of_getLast? hid

theorem lookupPublished (h : table.Filed) {owner : SymbolId} {withHidden : Bool}
    (hid : table.lookupPublished owner name withHidden = some id) : table.Names id name := by
  obtain ⟨contents, hcontents, hget⟩ := Option.bind_eq_some_iff.mp hid
  have hfiled := h.published hcontents
  unfold Contents.get? at hget
  split at hget
  · rename_i hlast
    obtain rfl := Option.some.inj hget
    exact hfiled.hidden.get (List.mem_of_getLast? hlast)
  · exact hfiled.visible.get (List.mem_of_getLast? hget)

theorem lookupImports (h : table.Filed) {region : Region} {kind : ImportKind}
    (hid : table.lookupImports region name kind = some id) : table.Names id name := by
  obtain ⟨package, -, hpackage⟩ := List.exists_of_findSome?_eq_some hid
  exact h.lookupPublished hpackage

theorem lookupDirect (h : table.Filed) {interior restricted : Bool} {regions : List Region}
    (hregions : ∀ region ∈ regions, region ∈ table.regions)
    (hid : table.lookupDirect name interior restricted regions = some id) : table.Names id name := by
  induction regions generalizing restricted with
  | nil => cases hid
  | cons region rest ih =>
    obtain ⟨hregion, hrest⟩ := List.forall_mem_cons.mp hregions
    unfold SymbolTable.lookupDirect at hid
    split at hid
    · rename_i hfound
      exact h.lookupIn hregion (hfound.trans hid)
    · split at hid
      · rename_i hfound
        exact h.lookupImports (hfound.trans hid)
      · exact ih hrest hid

end Filed

@[simp] theorem symbol?_reserve (table : SymbolTable) (declaration : Declaration) :
    (table.reserve declaration).2.symbol? ⟨table.symbols.size⟩ =
      some { declaration with region := table.innermost.id, depth := table.depth } := by
  simp [reserve, symbol?]

theorem bind_cases {table : SymbolTable} {id : SymbolId} {symbol : Symbol} (hsymbol : table.symbol? id = some symbol)
    (hlast : (table.innermost.bindings.get symbol.name).getLast? ≠ some id) :
    ((table.bind id).2 = table.putBinding symbol.name id ∧ ∀ existing, (table.bind id).1 ≠ .duplicate existing) ∨
      ∃ existing, table.bind id = (.duplicate existing, table) ∧
        (table.innermost.bindings.get symbol.name).head? = some existing := by
  unfold bind
  simp only [hsymbol, if_neg hlast]
  split
  · rename_i existing hduplicate
    refine .inr ⟨existing, rfl, ?_⟩
    revert hduplicate
    cases table.innermost.bindings.get symbol.name with
    | nil => nofun
    | cons first rest =>
      simp only [classifyBinding]
      split
      · nofun
      · split
        · nofun
        · rintro ⟨⟩
          rfl
  · rename_i hduplicate
    exact .inl ⟨rfl, fun existing heq => hduplicate existing heq⟩

def Denotes (table : SymbolTable) (name : Name) (resolution : Resolution) : Prop :=
  match resolution.symbol with
  | some id => ∃ symbol, table.symbol? id = some symbol ∧ symbol.name = name ∧ symbol.kind = resolution.kind
  | none => resolution.kind = .unresolved

variable {table : SymbolTable} {name : Name}

theorem denotes_resolution {found : Option SymbolId} (h : ∀ id, found = some id → table.Names id name) :
    table.Denotes name (table.resolution found) := by
  cases found with
  | none => exact rfl
  | some id =>
    obtain ⟨symbol, hsymbol, hname⟩ := h id rfl
    exact ⟨symbol, hsymbol, hname, by simp [resolution, kindOf, hsymbol]⟩

theorem Filed.denotes_resolve (h : table.Filed) (name : Name) : table.Denotes name (table.resolve name) := by
  unfold resolve
  split
  · rename_i id hid
    refine denotes_resolution fun other hother => ?_
    obtain rfl := Option.some.inj hother
    exact h.lookupDirect (fun _ hregion => hregion) hid
  · refine denotes_resolution fun id hid => ?_
    obtain ⟨region, -, hregion⟩ := List.exists_of_findSome?_eq_some hid
    exact h.lookupImports hregion

theorem Filed.denotes_resolveMember (h : table.Filed) (owner : SymbolId) (name : Name) :
    table.Denotes name (table.resolveMember owner name) := by
  simp only [resolveMember]
  split
  · rename_i id hid
    refine denotes_resolution fun other hother => ?_
    obtain rfl := Option.some.inj hother
    obtain ⟨region, hregion, hlast⟩ := List.exists_of_findSome?_eq_some hid
    exact (h.regions region (List.mem_filter.mp hregion).1).bindings.get (List.mem_of_getLast? hlast)
  · exact denotes_resolution fun id hid => h.lookupPublished hid

end SymbolTable

end AdaSyntax
