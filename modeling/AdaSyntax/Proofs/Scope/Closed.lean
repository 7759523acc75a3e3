import AdaSyntax.Proofs.Scope.Filed

namespace AdaSyntax

def SymbolTable.Has (table : SymbolTable) (id : SymbolId) : Prop := id.index < table.symbols.size

/-- Owner and imports of a region are declared entities. -/
structure Region.Closed (table : SymbolTable) (region : Region) : Prop where
  owner : ∀ id ∈ region.owner, table.Has id
  imports : ∀ used ∈ region.imports, table.Has used.package

/-- All ids in the table belong to declared entities. -/
structure SymbolTable.Closed (table : SymbolTable) : Prop where
  filed : table.Filed
  regions : ∀ region ∈ table.regions, region.Closed table
  published : ∀ entry ∈ table.contents, table.Has entry.1

def TableChange.symbols : TableChange → List SymbolId
  | bind id => [id]
  | openRegion _ owner => owner.toList
  | addImport package _ => [package]
  | publish owner members => owner :: members.all
  | publishCurrent owner => [owner]
  | publishAlias synonym target => [synonym, target]
  | _ => []

namespace SymbolTable

variable {table later : SymbolTable} {id : SymbolId} {name : Name}

theorem Has.mono (h : table.Has id) (hgrown : table.symbols.toList <+: later.symbols.toList) : later.Has id :=
  Nat.lt_of_lt_of_le h (by simpa using hgrown.length_le)

theorem has_of_symbol? {symbol : Symbol} (h : table.symbol? id = some symbol) : table.Has id :=
  (Array.getElem?_eq_some_iff.mp h).1

theorem Names.has (h : table.Names id name) : table.Has id :=
  have ⟨_, hsymbol, _⟩ := h
  has_of_symbol? hsymbol

theorem Denotes.has {resolution : Resolution} (h : table.Denotes name resolution) :
    ∀ id ∈ resolution.symbol, table.Has id := by
  intro id hid
  rw [Denotes, Option.mem_def.mp hid] at h
  obtain ⟨symbol, hsymbol, -⟩ := h
  exact has_of_symbol? hsymbol

theorem has_declare (table : SymbolTable) (declaration : Declaration) :
    (table.declare declaration).2.2.Has (table.declare declaration).1 := by
  have hid : (table.declare declaration).1 = ⟨table.symbols.size⟩ := rfl
  rw [Has, declare_symbols, hid, Array.size_push]
  exact Nat.lt_succ_self _

end SymbolTable

theorem Region.Closed.mono {table later : SymbolTable} {region : Region} (h : region.Closed table)
    (hgrown : table.symbols.toList <+: later.symbols.toList) : region.Closed later :=
  ⟨fun id hid => (h.owner id hid).mono hgrown, fun used hused => (h.imports used hused).mono hgrown⟩

namespace SymbolTable.Closed

variable {table later : SymbolTable}

theorem members (h : table.Closed) {region : Region} (hregion : region ∈ table.regions) :
    ∀ id ∈ region.members.all, table.Has id := by
  intro id hid
  simp only [Members.all, Region.members, List.take_append_drop] at hid
  obtain ⟨symbol, hsymbol, -⟩ := (h.filed.regions region hregion).order id hid
  exact has_of_symbol? hsymbol

theorem of_regions (h : table.Closed) (hfiled : later.Filed) (hgrown : table.symbols.toList <+: later.symbols.toList)
    (hregions : ∀ region ∈ later.regions, region.Closed table) (hcontents : later.contents = table.contents) :
    later.Closed where
  filed := hfiled
  regions region hregion := (hregions region hregion).mono hgrown
  published entry hentry := (h.published entry (hcontents ▸ hentry)).mono hgrown

theorem of_counter (h : table.Closed) (next : Nat) : ({ table with nextRegion := next } : SymbolTable).Closed :=
  h.of_regions (h.filed.of_regions List.prefix_rfl h.filed.regions rfl) List.prefix_rfl h.regions rfl

theorem of_innermost (h : table.Closed) {region : Region} (hregion : region.Closed table) :
    ∀ other ∈ region :: table.enclosing, other.Closed table :=
  List.forall_mem_cons.mpr ⟨hregion, fun other hother => h.regions other (List.mem_cons_of_mem _ hother)⟩

theorem innermost (h : table.Closed) : table.innermost.Closed table := h.regions _ List.mem_cons_self

theorem empty : SymbolTable.empty.Closed where
  filed := .empty
  regions region hregion := by
    obtain rfl := List.mem_singleton.mp hregion
    exact ⟨nofun, nofun⟩
  published := nofun

theorem reserve (h : table.Closed) (declaration : Declaration) : (table.reserve declaration).2.Closed :=
  h.of_regions (h.filed.reserve declaration) (table.reserve_revertsTo declaration).symbols h.regions rfl

theorem bind (h : table.Closed) (id : SymbolId) : (table.bind id).2.Closed := by
  have hfiled := h.filed.bind id
  rcases table.bind_eq id with heq | ⟨symbol, -, heq⟩ <;> rw [heq] at hfiled ⊢
  · exact h
  · exact h.of_regions hfiled List.prefix_rfl (h.of_innermost ⟨h.innermost.owner, h.innermost.imports⟩) rfl

theorem declare (h : table.Closed) (declaration : Declaration) : (table.declare declaration).2.2.Closed :=
  (h.reserve declaration).bind _

theorem openRegion (h : table.Closed) (kind : RegionKind) {owner : Option SymbolId}
    (howner : ∀ id ∈ owner, table.Has id) : (table.openRegion kind owner).Closed :=
  h.of_regions (h.filed.openRegion kind owner) List.prefix_rfl
    (List.forall_mem_cons.mpr ⟨⟨howner, nofun⟩, h.regions⟩) rfl

theorem closeRegion (h : table.Closed) : (table.change .closeRegion).Closed := by
  have hfiled := h.filed.closeRegion
  cases henclosing : table.enclosing with
  | nil => simpa only [SymbolTable.change, SymbolTable.closeRegion, henclosing] using h
  | cons region rest =>
    simp only [SymbolTable.change, SymbolTable.closeRegion, henclosing] at hfiled ⊢
    refine h.of_regions hfiled List.prefix_rfl (fun other hother => h.regions other ?_) rfl
    exact List.mem_cons_of_mem _ (henclosing ▸ hother)

theorem markPrivate (h : table.Closed) : table.markPrivate.Closed :=
  h.of_regions h.filed.markPrivate List.prefix_rfl (h.of_innermost ⟨h.innermost.owner, h.innermost.imports⟩) rfl

theorem addImport (h : table.Closed) {package : SymbolId} (hpackage : table.Has package) (kind : ImportKind) :
    (table.addImport package kind).Closed := by
  refine h.of_regions (h.filed.addImport package kind) List.prefix_rfl
    (h.of_innermost ⟨h.innermost.owner, fun used hused => ?_⟩) rfl
  rcases List.mem_append.mp hused with hused | hused
  · exact h.innermost.imports used hused
  · exact List.mem_singleton.mp hused ▸ hpackage

theorem putContents (h : table.Closed) {owner : SymbolId} {contents : Contents} (howner : table.Has owner)
    (hfiled : (table.putContents owner contents).Filed) : (table.putContents owner contents).Closed where
  filed := hfiled
  regions region hregion := (h.regions region hregion).mono List.prefix_rfl
  published entry hentry := by
    have hkeys : ∀ entries : List (SymbolId × Contents), (∀ entry ∈ entries, table.Has entry.1) →
        ∀ entry ∈ setContents owner contents entries, table.Has entry.1 := by
      intro entries hentries
      induction entries with
      | nil => simpa using howner
      | cons first rest ih =>
        obtain ⟨key, old⟩ := first
        obtain ⟨hkey, hrest⟩ := List.forall_mem_cons.mp hentries
        unfold setContents
        split
        · exact List.forall_mem_cons.mpr ⟨hkey, hrest⟩
        · exact List.forall_mem_cons.mpr ⟨hkey, ih hrest⟩
    exact hkeys _ h.published entry hentry

theorem publish (h : table.Closed) {owner : SymbolId} (howner : table.Has owner) (members : Members) :
    (table.publish owner members).Closed := by
  have hfiled := h.filed.publish owner members
  obtain ⟨contents, heq⟩ := table.publish_eq owner members
  rw [heq] at hfiled ⊢
  exact h.putContents howner hfiled

theorem publishAlias (h : table.Closed) {synonym : SymbolId} (hsynonym : table.Has synonym) (target : SymbolId) :
    (table.publishAlias synonym target).Closed := by
  have hfiled := h.filed.publishAlias synonym target
  rcases table.publishAlias_eq synonym target with heq | ⟨contents, heq⟩ <;> rw [heq] at hfiled ⊢
  · exact h
  · exact h.putContents hsynonym hfiled

theorem addPredefined (h : table.Closed) : table.addPredefined.2.Closed :=
  addPredefined_induction h (fun _ declaration h => h.declare declaration)
    fun table declaration h => (h.declare declaration).publish (has_declare table declaration) _

theorem change (h : table.Closed) {change : TableChange} (hsymbols : ∀ id ∈ change.symbols, table.Has id) :
    (table.change change).Closed := by
  cases change with
  | populate => exact h.addPredefined
  | declare declaration => exact h.declare declaration
  | reserve declaration => exact h.reserve declaration
  | bind id => exact h.bind id
  | openRegion kind owner => exact h.openRegion kind fun id hid => hsymbols id (Option.mem_toList.mpr hid)
  | closeRegion => exact h.closeRegion
  | markPrivate => exact h.markPrivate
  | addImport package kind => exact h.addImport (hsymbols package List.mem_cons_self) kind
  | publish owner members => exact h.publish (hsymbols owner List.mem_cons_self) members
  | publishCurrent owner => exact h.publish (hsymbols owner List.mem_cons_self) _
  | publishAlias synonym target => exact h.publishAlias (hsymbols synonym List.mem_cons_self) target

theorem predefined : SymbolTable.predefined.Closed := empty.addPredefined

end SymbolTable.Closed

end AdaSyntax
