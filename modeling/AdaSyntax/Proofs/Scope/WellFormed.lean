import AdaSyntax.Proofs.Scope.Closed
import AdaSyntax.Proofs.Scope.Rollback
import Mathlib.Data.List.Chain

/-!
The symbol table as a representation: names, orders of binding, private parts and published contents are
kept apart, and this is how they belong together. Every change that binds and publishes declared entities
keeps it so, and so does every rollback.
-/

namespace AdaSyntax

namespace SymbolTable

/-- Those of the ids that belong to an entity of this name, in their order. -/
def called (table : SymbolTable) (name : Name) (ids : List SymbolId) : List SymbolId :=
  ids.filter fun id => (table.symbol? id).map (·.name) = some name

def Follows (table : SymbolTable) (earlier later : SymbolId) : Prop :=
  ((table.kindOf earlier).isOverloadable ∧ (table.kindOf later).isOverloadable) ∨
    (table.kindOf later).completes (table.kindOf earlier)

variable {table later : SymbolTable} {id : SymbolId} {name : Name} {ids : List SymbolId}

@[simp] theorem mem_called : id ∈ table.called name ids ↔ id ∈ ids ∧ table.Names id name := by
  simp [called, Names, Option.map_eq_some_iff]

theorem called_append (first second : List SymbolId) :
    table.called name (first ++ second) = table.called name first ++ table.called name second :=
  List.filter_append ..

theorem called_singleton {symbol : Symbol} (hsymbol : table.symbol? id = some symbol) :
    table.called name [id] = if symbol.name = name then [id] else [] := by
  simp [called, hsymbol, List.filter_cons]

theorem symbol?_eq_of_has (hgrown : table.symbols.toList <+: later.symbols.toList) (h : table.Has id) :
    later.symbol? id = table.symbol? id := by
  obtain ⟨symbol, hsymbol⟩ : ∃ symbol, table.symbol? id = some symbol :=
    ⟨_, Array.getElem?_eq_getElem h⟩
  rw [hsymbol, symbol?_of_isPrefix hgrown hsymbol]

theorem kindOf_eq_of_has (hgrown : table.symbols.toList <+: later.symbols.toList) (h : table.Has id) :
    later.kindOf id = table.kindOf id := by
  simp only [kindOf, symbol?_eq_of_has hgrown h]

theorem called_eq_of_has (hgrown : table.symbols.toList <+: later.symbols.toList)
    (h : ∀ id ∈ ids, table.Has id) : later.called name ids = table.called name ids :=
  List.filter_congr fun id hid => by rw [symbol?_eq_of_has hgrown (h id hid)]

theorem Follows.mono {earlier : SymbolId} (hgrown : table.symbols.toList <+: later.symbols.toList)
    (hearlier : table.Has earlier) (hid : table.Has id) (h : table.Follows earlier id) :
    later.Follows earlier id := by
  simpa only [Follows, kindOf_eq_of_has hgrown hearlier, kindOf_eq_of_has hgrown hid] using h

theorem bind_follows (table : SymbolTable) (id : SymbolId) :
    (table.bind id).2 = table ∨ ∃ symbol, table.symbol? id = some symbol ∧
      (table.bind id).2 = table.putBinding symbol.name id ∧
      ∀ last ∈ (table.innermost.bindings.get symbol.name).getLast?, table.Follows last id := by
  unfold bind
  split
  · exact .inl rfl
  rename_i symbol hsymbol
  dsimp only
  split
  · exact .inl rfl
  split
  · exact .inl rfl
  rename_i hduplicate
  refine .inr ⟨symbol, hsymbol, rfl, fun last hlast => ?_⟩
  have hkind : table.kindOf id = symbol.kind := by simp [kindOf, hsymbol]
  generalize table.innermost.bindings.get symbol.name = ids at hlast hduplicate
  cases ids with
  | nil => cases hlast
  | cons first rest =>
    rw [Option.mem_def, List.getLast?_cons, ← List.getLastD_eq_getLast?, Option.some_inj] at hlast
    simp only [classifyBinding, hlast] at hduplicate
    rw [Follows, hkind]
    by_cases hoverload : symbol.kind.isOverloadable ∧ (table.kindOf last).isOverloadable
    · exact .inl hoverload.symm
    by_cases hcompletes : symbol.kind.completes (table.kindOf last)
    · exact .inr hcompletes
    · exact absurd (by simp_all) (hduplicate first)

end SymbolTable

namespace Bindings

variable {bindings : Bindings} {name : Name} {id : SymbolId}

def names (bindings : Bindings) : List Name := bindings.map (·.1)

theorem mem_names_add {other : Name} :
    other ∈ (bindings.add name id).names ↔ other ∈ bindings.names ∨ other = name := by
  induction bindings with
  | nil => simp [add, names]
  | cons entry rest ih =>
    obtain ⟨key, ids⟩ := entry
    simp only [names, List.map_cons, List.mem_cons] at ih ⊢
    by_cases hkey : key = name
    · subst hkey
      simp only [add, if_true, List.map_cons, List.mem_cons]
      tauto
    · simp only [add, hkey, if_false, List.map_cons, List.mem_cons, ih]
      tauto

theorem nodup_names_add (h : bindings.names.Nodup) : (bindings.add name id).names.Nodup := by
  induction bindings with
  | nil => simp [add, names]
  | cons entry rest ih =>
    obtain ⟨key, ids⟩ := entry
    obtain ⟨hkey, hrest⟩ := List.nodup_cons.mp h
    by_cases heq : key = name
    · simpa only [add, heq, if_true, names, List.map_cons] using h
    · simp only [add, heq, if_false]
      refine List.nodup_cons.mpr ⟨fun hmem => ?_, ih hrest⟩
      rcases mem_names_add.mp hmem with hmem | hmem
      · exact hkey hmem
      · exact heq hmem

theorem get_of_mem (h : bindings.names.Nodup) {entry : Name × List SymbolId} (hentry : entry ∈ bindings) :
    bindings.get entry.1 = entry.2 := by
  induction bindings with
  | nil => cases hentry
  | cons first rest ih =>
    obtain ⟨hfirst, hrest⟩ := List.nodup_cons.mp h
    obtain ⟨key, ids⟩ := first
    rcases List.mem_cons.mp hentry with rfl | hentry
    · simp [get]
    · have hne : entry.1 ≠ key := fun heq => hfirst (List.mem_map.mpr ⟨entry, hentry, heq⟩)
      simpa only [get, List.lookup_cons, beq_eq_false_iff_ne.mpr hne] using ih hrest hentry

theorem get_of_not_mem (h : name ∉ bindings.names) : bindings.get name = [] := by
  have hnone : bindings.lookup name = none := by
    refine List.lookup_eq_none_iff.mpr fun entry hentry => bne_iff_ne.mpr fun heq => ?_
    exact h (List.mem_map.mpr ⟨entry, hentry, heq.symm⟩)
  simp [get, hnone]

theorem mem_names_iff (h : bindings.names.Nodup) (hproper : bindings.Proper) :
    name ∈ bindings.names ↔ bindings.get name ≠ [] := by
  refine ⟨fun hname => ?_, fun hget => by_contra fun hname => hget (get_of_not_mem hname)⟩
  obtain ⟨entry, hentry, rfl⟩ := List.mem_map.mp hname
  rw [get_of_mem h hentry]
  exact hproper entry hentry

end Bindings

/-- The parts of a region belong together, and its ids to declared entities. -/
structure Region.WellFormed (table : SymbolTable) (region : Region) : Prop where
  keys : region.bindings.names.Nodup
  names : ∀ name, name ∈ region.bindings.names ↔ ∃ id ∈ region.order, table.Names id name
  entries : ∀ entry ∈ region.bindings, entry.2 ≠ [] ∧ entry.2 = table.called entry.1 region.order
  declared : ∀ id ∈ region.order, table.Has id
  privateStart : ∀ count ∈ region.privateStart, count ≤ region.order.length
  follows : ∀ entry ∈ region.bindings, entry.2.IsChain table.Follows

namespace Region.WellFormed

variable {table later : SymbolTable} {region : Region} {name : Name} {id : SymbolId}

theorem of_get (keys : region.bindings.names.Nodup) (proper : region.bindings.Proper)
    (get : ∀ name, region.bindings.get name = table.called name region.order)
    (declared : ∀ id ∈ region.order, table.Has id)
    (privateStart : ∀ count ∈ region.privateStart, count ≤ region.order.length)
    (follows : ∀ name, (region.bindings.get name).IsChain table.Follows) : region.WellFormed table where
  keys := keys
  names name := by
    simp only [Bindings.mem_names_iff keys proper, get, ne_eq, List.eq_nil_iff_forall_not_mem, not_forall,
      not_not, SymbolTable.mem_called]
  entries entry hentry := ⟨proper entry hentry, (Bindings.get_of_mem keys hentry).symm.trans (get _)⟩
  declared := declared
  privateStart := privateStart
  follows entry hentry := Bindings.get_of_mem keys hentry ▸ follows entry.1

theorem proper (h : region.WellFormed table) : region.bindings.Proper :=
  fun entry hentry => (h.entries entry hentry).1

theorem get_eq (h : region.WellFormed table) (name : Name) :
    region.bindings.get name = table.called name region.order := by
  by_cases hname : name ∈ region.bindings.names
  · obtain ⟨entry, hentry, rfl⟩ := List.mem_map.mp hname
    rw [Bindings.get_of_mem h.keys hentry]
    exact (h.entries entry hentry).2
  · rw [Bindings.get_of_not_mem hname]
    refine (List.eq_nil_iff_forall_not_mem.mpr fun id hid => hname ?_).symm
    exact (h.names name).mpr ⟨id, SymbolTable.mem_called.mp hid⟩

theorem isChain_get (h : region.WellFormed table) (name : Name) :
    (region.bindings.get name).IsChain table.Follows := by
  by_cases hname : name ∈ region.bindings.names
  · obtain ⟨entry, hentry, rfl⟩ := List.mem_map.mp hname
    rw [Bindings.get_of_mem h.keys hentry]
    exact h.follows entry hentry
  · rw [Bindings.get_of_not_mem hname]
    exact .nil

theorem fresh (id : RegionId) (kind : RegionKind) (owner : Option SymbolId) :
    Region.WellFormed table { id, kind, owner } :=
  of_get .nil (by simp [Bindings.Proper]) (fun _ => rfl) nofun nofun (fun _ => .nil)

theorem mono (h : region.WellFormed table) (hgrown : table.symbols.toList <+: later.symbols.toList) :
    region.WellFormed later := by
  refine of_get h.keys h.proper (fun name => ?_) (fun id hid => (h.declared id hid).mono hgrown)
    h.privateStart fun name => ?_
  · rw [h.get_eq, SymbolTable.called_eq_of_has hgrown h.declared]
  · refine .imp_of_mem_imp (fun earlier id hearlier hid hfollows => ?_) (h.isChain_get name)
    rw [h.get_eq, SymbolTable.mem_called] at hearlier hid
    exact hfollows.mono hgrown (h.declared _ hearlier.1) (h.declared _ hid.1)

theorem bind {symbol : Symbol} (h : region.WellFormed table) (hsymbol : table.symbol? id = some symbol)
    (hlast : ∀ last ∈ (region.bindings.get symbol.name).getLast?, table.Follows last id) :
    (region.bind symbol.name id).WellFormed table := by
  have hget : ∀ name, (region.bind symbol.name id).bindings.get name =
      region.bindings.get name ++ if symbol.name = name then [id] else [] := by
    intro name
    by_cases hname : symbol.name = name
    · simp [Region.bind, ← hname]
    · simp [Region.bind, hname, Bindings.get_add_of_ne _ _ (Ne.symm hname)]
  refine of_get (Bindings.nodup_names_add h.keys) (h.proper.add _ _) (fun name => ?_) (fun other hother => ?_)
    (fun count hcount => ?_) fun name => ?_
  · rw [hget, h.get_eq, ← SymbolTable.called_singleton hsymbol, ← SymbolTable.called_append]
    rfl
  · rcases List.mem_append.mp hother with hother | hother
    · exact h.declared other hother
    · exact List.mem_singleton.mp hother ▸ SymbolTable.has_of_symbol? hsymbol
  · refine Nat.le_trans (h.privateStart count hcount) ?_
    simp [Region.bind]
  · rw [hget]
    split
    · rename_i hname
      refine (h.isChain_get name).append (.singleton id) fun last hmem other hother => ?_
      obtain rfl : id = other := by simpa using hother
      exact hlast last (hname ▸ hmem)
    · simpa using h.isChain_get name

theorem markPrivate (h : region.WellFormed table) :
    { region with privateStart := some region.order.length }.WellFormed table :=
  { h with privateStart := fun count hcount => by simp_all }

end Region.WellFormed

/-- The table is a stack of regions above the library, each region and all published contents of declared
entities. -/
structure SymbolTable.WellFormed (table : SymbolTable) : Prop where
  bottom : ∃ bottom ∈ table.regions.getLast?, bottom.kind = .library ∧ bottom.id = ⟨0⟩
  increasing : table.regions.Pairwise fun inner outer => outer.id.index < inner.id.index
  counted : ∀ region ∈ table.regions, region.id.index < table.nextRegion
  regions : ∀ region ∈ table.regions, region.WellFormed table
  published : ∀ entry ∈ table.contents, table.Has entry.1 ∧ entry.2.Filed table

/-- The change binds and publishes declared entities. -/
def TableChange.Legal (table : SymbolTable) : TableChange → Prop
  | bind id => table.Has id
  | publish owner members => table.Has owner ∧ ∀ id ∈ members.all, table.Has id
  | publishCurrent owner => table.Has owner
  | publishAlias synonym _ => table.Has synonym
  | _ => True

namespace SymbolTable.WellFormed

variable {table later : SymbolTable}

theorem proper (h : table.WellFormed) : table.Proper := fun region hregion => (h.regions region hregion).proper

theorem innermost (h : table.WellFormed) : table.innermost.WellFormed table :=
  h.regions _ List.mem_cons_self

theorem empty : SymbolTable.empty.WellFormed where
  bottom := ⟨_, rfl, rfl, rfl⟩
  increasing := List.pairwise_singleton ..
  counted region hregion := by
    obtain rfl := List.mem_singleton.mp hregion
    decide
  regions region hregion := by
    obtain rfl := List.mem_singleton.mp hregion
    exact .fresh ..
  published := nofun

theorem published_mono (h : table.WellFormed) (hgrown : table.symbols.toList <+: later.symbols.toList)
    (hcontents : later.contents = table.contents) :
    ∀ entry ∈ later.contents, later.Has entry.1 ∧ entry.2.Filed later := by
  intro entry hentry
  obtain ⟨howner, hfiled⟩ := h.published entry (hcontents ▸ hentry)
  exact ⟨howner.mono hgrown, hfiled.visible.mono hgrown, hfiled.hidden.mono hgrown⟩

theorem of_innermost (h : table.WellFormed) (hgrown : table.symbols.toList <+: later.symbols.toList)
    (hinnermost : later.innermost.WellFormed later) (hid : later.innermost.id = table.innermost.id)
    (hkind : later.innermost.kind = table.innermost.kind) (henclosing : later.enclosing = table.enclosing)
    (hcontents : later.contents = table.contents) (hnext : table.nextRegion ≤ later.nextRegion) :
    later.WellFormed where
  bottom := by
    obtain ⟨bottom, hbottom, hlibrary⟩ := h.bottom
    simp only [SymbolTable.regions, henclosing, List.getLast?_cons] at hbottom ⊢
    cases hlast : table.enclosing.getLast? with
    | none =>
      obtain rfl : table.innermost = bottom := by simpa [hlast] using hbottom
      exact ⟨_, by simp, hkind.trans hlibrary.1, hid.trans hlibrary.2⟩
    | some last => exact ⟨bottom, by simpa [hlast] using hbottom, hlibrary⟩
  increasing := by
    simpa only [SymbolTable.regions, List.pairwise_cons, hid, henclosing] using h.increasing
  counted region hregion := by
    refine Nat.lt_of_lt_of_le ?_ hnext
    rcases List.mem_cons.mp hregion with rfl | hregion
    · exact hid ▸ h.counted _ List.mem_cons_self
    · exact h.counted region (List.mem_cons_of_mem _ (henclosing ▸ hregion))
  regions region hregion := by
    rcases List.mem_cons.mp hregion with rfl | hregion
    · exact hinnermost
    · exact (h.regions region (List.mem_cons_of_mem _ (henclosing ▸ hregion))).mono hgrown
  published := h.published_mono hgrown hcontents

theorem of_counter (h : table.WellFormed) {next : Nat} (hnext : table.nextRegion ≤ next) :
    ({ table with nextRegion := next } : SymbolTable).WellFormed :=
  h.of_innermost List.prefix_rfl (h.innermost.mono List.prefix_rfl) rfl rfl rfl rfl hnext

theorem reserve (h : table.WellFormed) (declaration : Declaration) :
    (table.reserve declaration).2.WellFormed :=
  have hgrown := (table.reserve_revertsTo declaration).symbols
  h.of_innermost hgrown (h.innermost.mono hgrown) rfl rfl rfl rfl (Nat.le_refl _)

theorem bind (h : table.WellFormed) (id : SymbolId) : (table.bind id).2.WellFormed := by
  rcases table.bind_follows id with heq | ⟨symbol, hsymbol, heq, hlast⟩ <;> rw [heq]
  · exact h
  · have hregion : (table.putBinding symbol.name id).innermost.WellFormed (table.putBinding symbol.name id) :=
      (h.innermost.bind hsymbol hlast).mono List.prefix_rfl
    exact h.of_innermost List.prefix_rfl hregion rfl rfl rfl rfl (Nat.le_refl _)

theorem declare (h : table.WellFormed) (declaration : Declaration) :
    (table.declare declaration).2.2.WellFormed :=
  (h.reserve declaration).bind _

theorem openRegion (h : table.WellFormed) (kind : RegionKind) (owner : Option SymbolId) :
    (table.openRegion kind owner).WellFormed where
  bottom := by
    obtain ⟨bottom, hbottom, hlibrary⟩ := h.bottom
    exact ⟨bottom, by simpa [SymbolTable.regions, SymbolTable.openRegion, List.getLast?_cons] using hbottom,
      hlibrary⟩
  increasing := List.pairwise_cons.mpr ⟨h.counted, h.increasing⟩
  counted := List.forall_mem_cons.mpr
    ⟨Nat.lt_succ_self _, fun region hregion => Nat.lt_succ_of_lt (h.counted region hregion)⟩
  regions := List.forall_mem_cons.mpr
    ⟨.fresh .., fun region hregion => (h.regions region hregion).mono List.prefix_rfl⟩
  published := h.published_mono List.prefix_rfl rfl

theorem closeRegion (h : table.WellFormed) : (table.change .closeRegion).WellFormed := by
  cases henclosing : table.enclosing with
  | nil => simpa only [SymbolTable.change, SymbolTable.closeRegion, henclosing] using h
  | cons region rest =>
    have hregions : table.regions = table.innermost :: region :: rest := congrArg (_ :: ·) henclosing
    obtain ⟨bottom, hbottom, hlibrary⟩ := h.bottom
    obtain ⟨-, hincreasing⟩ := List.pairwise_cons.mp (hregions ▸ h.increasing)
    have hinner : ∀ other ∈ region :: rest, other ∈ table.regions :=
      fun other hother => hregions ▸ List.mem_cons_of_mem _ hother
    simp only [SymbolTable.change, SymbolTable.closeRegion, henclosing]
    exact {
      bottom := ⟨bottom, by rwa [hregions, List.getLast?_cons_cons] at hbottom, hlibrary⟩
      increasing := hincreasing
      counted := fun other hother => h.counted other (hinner other hother)
      regions := fun other hother => (h.regions other (hinner other hother)).mono List.prefix_rfl
      published := h.published_mono List.prefix_rfl rfl }

theorem markPrivate (h : table.WellFormed) : table.markPrivate.WellFormed :=
  h.of_innermost List.prefix_rfl (h.innermost.markPrivate.mono List.prefix_rfl) rfl rfl rfl rfl (Nat.le_refl _)

theorem addImport (h : table.WellFormed) (package : SymbolId) (kind : ImportKind) :
    (table.addImport package kind).WellFormed :=
  have hregion := h.innermost
  h.of_innermost List.prefix_rfl
    ⟨hregion.keys, hregion.names, hregion.entries, hregion.declared, hregion.privateStart, hregion.follows⟩
    rfl rfl rfl rfl (Nat.le_refl _)

theorem filed (h : table.WellFormed) : table.Filed where
  regions region hregion := by
    have hregion := h.regions region hregion
    refine ⟨fun entry hentry id hid => ?_, fun id hid => ?_⟩
    · rw [(hregion.entries entry hentry).2] at hid
      exact (mem_called.mp hid).2
    · obtain ⟨symbol, hsymbol⟩ : ∃ symbol, table.symbol? id = some symbol :=
        ⟨_, Array.getElem?_eq_getElem (hregion.declared id hid)⟩
      exact ⟨symbol, hsymbol, hregion.get_eq _ ▸ mem_called.mpr ⟨hid, symbol, hsymbol, rfl⟩⟩
  contents entry hentry := (h.published entry hentry).2

theorem putContents (h : table.WellFormed) {owner : SymbolId} {contents : Contents} (howner : table.Has owner)
    (hfiled : contents.Filed table) : (table.putContents owner contents).WellFormed where
  bottom := h.bottom
  increasing := h.increasing
  counted := h.counted
  regions region hregion := (h.regions region hregion).mono List.prefix_rfl
  published := by
    have hentries : ∀ entries : List (SymbolId × Contents),
        (∀ entry ∈ entries, table.Has entry.1 ∧ entry.2.Filed table) →
          ∀ entry ∈ setContents owner contents entries, table.Has entry.1 ∧ entry.2.Filed table := by
      intro entries hentries
      induction entries with
      | nil => simpa using And.intro howner hfiled
      | cons first rest ih =>
        obtain ⟨hfirst, hrest⟩ := List.forall_mem_cons.mp hentries
        unfold setContents
        split
        · exact List.forall_mem_cons.mpr ⟨⟨hfirst.1, hfiled⟩, hrest⟩
        · exact List.forall_mem_cons.mpr ⟨hfirst, ih hrest⟩
    intro entry hentry
    obtain ⟨hhas, hfiled⟩ := hentries _ h.published entry hentry
    exact ⟨hhas, hfiled.visible.mono List.prefix_rfl, hfiled.hidden.mono List.prefix_rfl⟩

theorem publish (h : table.WellFormed) {owner : SymbolId} (howner : table.Has owner) (members : Members) :
    (table.publish owner members).WellFormed :=
  have hold := h.filed.contents_getD owner
  h.putContents howner ⟨hold.visible.addAll members.visible, hold.hidden.addAll members.hidden⟩

theorem publishAlias (h : table.WellFormed) {synonym : SymbolId} (hsynonym : table.Has synonym)
    (target : SymbolId) : (table.publishAlias synonym target).WellFormed := by
  unfold SymbolTable.publishAlias
  split
  · exact h
  · rename_i contents hcontents
    exact h.putContents hsynonym (h.filed.published hcontents)

theorem addPredefined (h : table.WellFormed) : table.addPredefined.2.WellFormed :=
  addPredefined_induction h (fun _ declaration h => h.declare declaration)
    fun table declaration h => (h.declare declaration).publish (has_declare table declaration) _

theorem change (h : table.WellFormed) {change : TableChange} (hlegal : change.Legal table) :
    (table.change change).WellFormed := by
  cases change with
  | populate => exact h.addPredefined
  | declare declaration => exact h.declare declaration
  | reserve declaration => exact h.reserve declaration
  | bind id => exact h.bind id
  | openRegion kind owner => exact h.openRegion kind owner
  | closeRegion => exact h.closeRegion
  | markPrivate => exact h.markPrivate
  | addImport package kind => exact h.addImport package kind
  | publish owner members => exact h.publish hlegal.1 members
  | publishCurrent owner => exact h.publish hlegal _
  | publishAlias synonym target => exact h.publishAlias hlegal target

end SymbolTable.WellFormed

/-- Marks, rollbacks and releases are always legal. -/
def TableCommand.Legal (table : SymbolTable) : TableCommand → Prop
  | .change made => made.Legal table
  | _ => True

namespace MarkedTable

/-- All changes of the run are legal where they are made. -/
def Legal (state : MarkedTable) : List TableCommand → Prop
  | [] => True
  | command :: rest => command.Legal state.table ∧ (state.perform command).Legal rest

theorem Legal.allows {state : MarkedTable} {commands : List TableCommand} (h : state.Legal commands) :
    state.Allows (fun table made => made.Legal table) commands := by
  induction commands generalizing state with
  | nil => trivial
  | cons command rest ih =>
    refine ⟨?_, ih h.2⟩
    cases command with
    | change made => exact h.1
    | mark | rollback | release => trivial

theorem wellFormed_lasts : Lasts SymbolTable.WellFormed fun table made => made.Legal table where
  proper h := h.proper
  counter h hnext := h.of_counter hnext
  change h hlegal := h.change hlegal

def Retraces (table : SymbolTable) (marks : List ScopeMark) : Prop := Traces SymbolTable.WellFormed table marks

theorem run_retraces {state : MarkedTable} (hwell : state.table.WellFormed)
    (h : Retraces state.table state.marks) {commands : List TableCommand} (hlegal : state.Legal commands) :
    (state.run commands).table.WellFormed ∧ Retraces (state.run commands).table (state.run commands).marks :=
  wellFormed_lasts.run hwell h hlegal.allows

/-- Every table that a run comes to, of changes that bind and publish declared entities and of marks and
rollbacks, is well formed. -/
theorem run_wellFormed (commands : List TableCommand) (hlegal : start.Legal commands) :
    (start.run commands).table.WellFormed :=
  have hstart : Retraces start.table start.marks := trivial
  (run_retraces .empty hstart hlegal).1

/-- A private part, a completion and an overload are bound, a rollback crosses the end of the region they are in,
and the region is opened anew and published. -/
theorem run_wellFormed_package :
    let commands : List TableCommand :=
      [.change (.declare { name := ⟨"P"⟩, kind := .package }), .mark,
        .change (.openRegion .package (some ⟨0⟩)), .change (.declare { name := ⟨"T"⟩, kind := .privateType }),
        .change .markPrivate, .change (.declare { name := ⟨"T"⟩, kind := .type }), .mark,
        .change (.publishCurrent ⟨0⟩), .change .closeRegion, .rollback,
        .change (.reserve { name := ⟨"F"⟩, kind := .function }), .change (.bind ⟨3⟩),
        .change (.declare { name := ⟨"F"⟩, kind := .function }), .change (.publishCurrent ⟨0⟩),
        .change (.addImport ⟨0⟩ .use), .change .closeRegion, .change (.declare { name := ⟨"Q"⟩, kind := .package }),
        .change (.publishAlias ⟨5⟩ ⟨0⟩), .release, .rollback]
    start.Legal commands ∧ (start.run commands).table.WellFormed := by
  intro commands
  have hlegal : start.Legal commands := by
    simp only [commands, Legal, TableCommand.Legal, TableChange.Legal, SymbolTable.Has]
    decide
  exact ⟨hlegal, run_wellFormed commands hlegal⟩

end MarkedTable

end AdaSyntax
