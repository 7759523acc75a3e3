import AdaSyntax.Proofs.Scope.Change
import AdaSyntax.Scope.Lookup

namespace AdaSyntax

def RegionId.shift (first distance : Nat) (id : RegionId) : RegionId :=
  if id.index < first then id else ⟨id.index + distance⟩

section

variable {first distance : Nat}

theorem RegionId.shift_of_lt {id : RegionId} (h : id.index < first) : id.shift first distance = id :=
  if_pos h

theorem RegionId.shift_of_le {id : RegionId} (h : first ≤ id.index) :
    id.shift first distance = ⟨id.index + distance⟩ :=
  if_neg (Nat.not_lt.mpr h)

@[simp] theorem RegionId.shift_inj {id other : RegionId} :
    id.shift first distance = other.shift first distance ↔ id = other := by
  obtain ⟨index⟩ := id
  obtain ⟨other⟩ := other
  unfold shift
  split <;> split <;> simp only [RegionId.mk.injEq] at * <;> omega

end

section

variable (first distance : Nat)

def Symbol.renumber (symbol : Symbol) : Symbol :=
  { symbol with region := symbol.region.shift first distance }

def Region.renumber (region : Region) : Region := { region with id := region.id.shift first distance }

@[simp] def Undo.renumber : Undo → Undo
  | .opened => .opened
  | .closed region => .closed (region.renumber first distance)
  | .bound id name => .bound (id.shift first distance) name
  | .imported id => .imported (id.shift first distance)
  | .markedPrivate id previous => .markedPrivate (id.shift first distance) previous
  | .published owner previous => .published owner previous

def SymbolTable.renumber (table : SymbolTable) : SymbolTable :=
  { table with
    symbols := table.symbols.map (·.renumber first distance)
    innermost := table.innermost.renumber first distance
    enclosing := table.enclosing.map (·.renumber first distance)
    journal := table.journal.map (·.renumber first distance)
    nextRegion := (RegionId.shift first distance ⟨table.nextRegion⟩).index }

namespace SymbolTable

variable (table : SymbolTable)

@[simp] theorem regions_renumber :
    (table.renumber first distance).regions = table.regions.map (·.renumber first distance) := rfl

@[simp] theorem symbol?_renumber (id : SymbolId) :
    (table.renumber first distance).symbol? id = (table.symbol? id).map (·.renumber first distance) :=
  Array.getElem?_map

@[simp] theorem kindOf_renumber (id : SymbolId) :
    (table.renumber first distance).kindOf id = table.kindOf id := by
  unfold kindOf
  rw [symbol?_renumber]
  cases table.symbol? id <;> rfl

@[simp] theorem published?_renumber (owner : SymbolId) :
    (table.renumber first distance).published? owner = table.published? owner := rfl

@[simp] theorem resolution_renumber (found : Option SymbolId) :
    (table.renumber first distance).resolution found = table.resolution found := by
  cases found with
  | none => rfl
  | some id => simp [resolution]

@[simp] theorem lookupIn_renumber (region : Region) (name : Name) (restricted : Bool) :
    (table.renumber first distance).lookupIn (region.renumber first distance) name restricted =
      table.lookupIn region name restricted := by
  simp [lookupIn, hides, Region.renumber]

@[simp] theorem lookupImports_renumber (region : Region) (name : Name) (kind : ImportKind) :
    (table.renumber first distance).lookupImports (region.renumber first distance) name kind =
      table.lookupImports region name kind := rfl

theorem lookupDirect_renumber (name : Name) (interior restricted : Bool) (regions : List Region) :
    (table.renumber first distance).lookupDirect name interior restricted
        (regions.map (·.renumber first distance)) =
      table.lookupDirect name interior restricted regions := by
  induction regions generalizing restricted with
  | nil => rfl
  | cons region rest ih =>
    simp only [List.map_cons, lookupDirect, lookupIn_renumber, lookupImports_renumber, ih]
    rfl

@[simp] theorem resolve_renumber (name : Name) :
    (table.renumber first distance).resolve name = table.resolve name := by
  have huse : (table.regions.map (·.renumber first distance)).findSome?
      ((table.renumber first distance).lookupImports · name .use) =
        table.regions.findSome? (table.lookupImports · name .use) := by
    rw [List.findSome?_map]
    rfl
  simp only [resolve, regions_renumber, lookupDirect_renumber, huse, resolution_renumber]
  rfl

@[simp] theorem resolveMember_renumber (owner : SymbolId) (name : Name) :
    (table.renumber first distance).resolveMember owner name = table.resolveMember owner name := by
  have hinside : (table.regions.map (·.renumber first distance)).filter (·.owner = some owner) =
      (table.regions.filter (·.owner = some owner)).map (·.renumber first distance) := by
    rw [List.filter_map]
    rfl
  simp only [resolveMember, regions_renumber, hinside, List.findSome?_map, List.isEmpty_map,
    resolution_renumber]
  rfl

@[simp] theorem enclosingLoop_renumber (label : Option SymbolId) :
    (table.renumber first distance).enclosingLoop label = table.enclosingLoop label := by
  have hgo (regions : List Region) : enclosingLoop.go label (regions.map (·.renumber first distance)) =
      enclosingLoop.go label regions := by
    induction regions with
    | nil => rfl
    | cons region rest ih =>
      simp only [List.map_cons, enclosingLoop.go, ih]
      rfl
  exact hgo table.regions

@[simp] theorem library_renumber :
    (table.renumber first distance).library = table.library.renumber first distance := by
  simp only [library, SymbolTable.renumber, List.getLastD_eq_getLast?, List.getLast?_map]
  cases table.enclosing.getLast? <;> rfl

theorem reserve_renumber (declaration : Declaration) :
    (table.renumber first distance).reserve declaration =
      ((table.reserve declaration).1, (table.reserve declaration).2.renumber first distance) := by
  simp [reserve, SymbolTable.renumber, depth, Symbol.renumber, Region.renumber]

theorem classifyBinding_renumber (kind : SymbolKind) (ids : List SymbolId) :
    (table.renumber first distance).classifyBinding kind ids = table.classifyBinding kind ids := by
  cases ids <;> simp [classifyBinding]

theorem bind_renumber (id : SymbolId) :
    (table.renumber first distance).bind id =
      ((table.bind id).1, (table.bind id).2.renumber first distance) := by
  have hbindings : (table.renumber first distance).innermost.bindings = table.innermost.bindings := rfl
  unfold bind
  rw [symbol?_renumber]
  cases table.symbol? id with
  | none => rfl
  | some symbol =>
    simp only [Option.map_some, hbindings, classifyBinding_renumber]
    have hname : (symbol.renumber first distance).name = symbol.name := rfl
    have hkind : (symbol.renumber first distance).kind = symbol.kind := rfl
    rw [hname, hkind]
    split
    · rfl
    · split
      · rfl
      · simp [SymbolTable.renumber, Region.renumber, Region.bind]

theorem declare_renumber (declaration : Declaration) :
    (table.renumber first distance).declare declaration =
      ((table.declare declaration).1, (table.declare declaration).2.1,
        (table.declare declaration).2.2.renumber first distance) := by
  simp only [declare, reserve_renumber, bind_renumber]

theorem closeRegion_renumber :
    ((table.renumber first distance).closeRegion).map (fun closed => (closed.1.toMembers, closed.2)) =
      table.closeRegion.map fun closed => (closed.1.toMembers, closed.2.renumber first distance) := by
  unfold closeRegion
  cases henclosing : table.enclosing with
  | nil => simp [SymbolTable.renumber, henclosing]
  | cons region rest =>
    simp only [SymbolTable.renumber, henclosing, List.map_cons, Option.map_some, Array.map_push,
      Undo.renumber]
    rfl

theorem openRegion_renumber (h : first ≤ table.nextRegion) (kind : RegionKind) (owner : Option SymbolId) :
    (table.renumber first distance).openRegion kind owner =
      (table.openRegion kind owner).renumber first distance := by
  have hnext : first ≤ table.nextRegion + 1 := Nat.le_succ_of_le h
  simp [openRegion, SymbolTable.renumber, Region.renumber, RegionId.shift_of_le, h, hnext,
    Nat.add_right_comm]

theorem markPrivate_renumber :
    (table.renumber first distance).markPrivate = table.markPrivate.renumber first distance := by
  simp [markPrivate, SymbolTable.renumber, Region.renumber]

theorem addImport_renumber (package : SymbolId) (kind : ImportKind) :
    (table.renumber first distance).addImport package kind =
      (table.addImport package kind).renumber first distance := by
  simp [addImport, SymbolTable.renumber, Region.renumber]

theorem addBindings_renumber (bindings : Bindings) (ids : List SymbolId) :
    (table.renumber first distance).addBindings bindings ids = table.addBindings bindings ids := by
  induction ids generalizing bindings with
  | nil => rfl
  | cons id ids ih =>
    simp only [addBindings, List.foldl_cons, symbol?_renumber] at ih ⊢
    cases table.symbol? id <;> exact ih _

theorem publish_renumber (owner : SymbolId) (members : Members) :
    (table.renumber first distance).publish owner members =
      (table.publish owner members).renumber first distance := by
  simp only [publish, addBindings_renumber, published?_renumber]
  simp [SymbolTable.renumber]

theorem publishAlias_renumber (synonym target : SymbolId) :
    (table.renumber first distance).publishAlias synonym target =
      (table.publishAlias synonym target).renumber first distance := by
  simp only [publishAlias, published?_renumber]
  cases table.published? target with
  | none => rfl
  | some contents => simp [SymbolTable.renumber]

@[simp] theorem mark_renumber : (table.renumber first distance).mark = table.mark := by
  simp [mark, SymbolTable.renumber, depth]

theorem updateRegion_renumber (id : RegionId) {change : Region → Region}
    (hchange : ∀ region : Region,
      change (region.renumber first distance) = (change region).renumber first distance) :
    (table.renumber first distance).updateRegion (id.shift first distance) change =
      (table.updateRegion id change).renumber first distance := by
  have hgo (regions : List Region) :
      updateRegion.go (id.shift first distance) change (regions.map (·.renumber first distance)) =
        (updateRegion.go id change regions).map (·.renumber first distance) := by
    induction regions with
    | nil => rfl
    | cons region rest ih =>
      have hid : (region.renumber first distance).id = id.shift first distance ↔ region.id = id :=
        RegionId.shift_inj
      simp only [List.map_cons, updateRegion.go, hid, ih, hchange]
      split <;> rfl
  have hid : (table.renumber first distance).innermost.id = id.shift first distance ↔
      table.innermost.id = id := RegionId.shift_inj
  unfold updateRegion
  simp only [hid]
  split
  · simp only [SymbolTable.renumber, hchange]
  · simp only [SymbolTable.renumber, hgo]

theorem undo_renumber (change : Undo) :
    (table.renumber first distance).undo (change.renumber first distance) =
      (table.undo change).renumber first distance := by
  cases change with
  | opened =>
    obtain ⟨symbols, innermost, enclosing, contents, journal, nextRegion⟩ := table
    cases enclosing <;> rfl
  | published owner previous => cases previous <;> rfl
  | closed region => rfl
  | bound id name => exact table.updateRegion_renumber first distance id fun _ => rfl
  | imported id => exact table.updateRegion_renumber first distance id fun _ => rfl
  | markedPrivate id previous => exact table.updateRegion_renumber first distance id fun _ => rfl

theorem undoLast_renumber (count : Nat) :
    (table.renumber first distance).undoLast count = (table.undoLast count).renumber first distance := by
  induction count generalizing table with
  | zero => rfl
  | succ count ih =>
    have hback : (table.renumber first distance).journal.back? =
        table.journal.back?.map (·.renumber first distance) := by
      simp [SymbolTable.renumber]
    simp only [undoLast, hback]
    cases table.journal.back? with
    | none => rfl
    | some change =>
      have hpop : ({ table.renumber first distance with
          journal := (table.renumber first distance).journal.pop } : SymbolTable) =
            ({ table with journal := table.journal.pop } : SymbolTable).renumber first distance := by
        simp [SymbolTable.renumber]
      simp only [Option.map_some, hpop, undo_renumber, ih]

theorem rollback_renumber (mark : ScopeMark) :
    (table.renumber first distance).rollback mark = (table.rollback mark).renumber first distance := by
  have hjournal : (table.renumber first distance).journal.size = table.journal.size := by
    simp [SymbolTable.renumber]
  simp only [rollback, hjournal, undoLast_renumber]
  simp [SymbolTable.renumber]

end SymbolTable

end

theorem SymbolTable.renumber_zero (first : Nat) (table : SymbolTable) : table.renumber first 0 = table := by
  have hshift (id : RegionId) : id.shift first 0 = id := by
    unfold RegionId.shift
    split <;> rfl
  have hregion : Region.renumber first 0 = id := funext fun region => by
    rw [Region.renumber, hshift]
    rfl
  have hsymbol : Symbol.renumber first 0 = id := funext fun symbol => by
    rw [Symbol.renumber, hshift]
    rfl
  have hundo : Undo.renumber first 0 = id := funext fun change => by
    cases change <;> simp only [Undo.renumber, hshift, hregion, id]
  simp only [SymbolTable.renumber, hregion, hsymbol, hundo, hshift, Array.map_id', List.map_id', id]

namespace SymbolTable

theorem bind_nextRegion (table : SymbolTable) (id : SymbolId) :
    (table.bind id).2.nextRegion = table.nextRegion := by
  rcases table.bind_eq id with heq | ⟨symbol, -, heq⟩ <;> exact congrArg (·.nextRegion) heq

theorem declare_nextRegion (table : SymbolTable) (declaration : Declaration) :
    (table.declare declaration).2.2.nextRegion = table.nextRegion :=
  bind_nextRegion _ _

theorem addPredefined_nextRegion (table : SymbolTable) :
    table.addPredefined.2.nextRegion = table.nextRegion :=
  addPredefined_induction (motive := (·.nextRegion = table.nextRegion)) rfl
    (fun later declaration h => (later.declare_nextRegion declaration).trans h)
    fun later declaration h => (later.declare_nextRegion declaration).trans h

theorem nextRegion_le_change (table : SymbolTable) (change : TableChange) :
    table.nextRegion ≤ (table.change change).nextRegion := by
  cases change with
  | populate => simp only [SymbolTable.change, addPredefined_nextRegion, Nat.le_refl]
  | declare declaration => exact Nat.le_of_eq (table.declare_nextRegion declaration).symm
  | bind id => exact Nat.le_of_eq (table.bind_nextRegion id).symm
  | openRegion kind owner => exact Nat.le_succ _
  | closeRegion =>
    simp only [SymbolTable.change, closeRegion]
    cases table.enclosing <;> exact Nat.le_refl _
  | publishAlias synonym target =>
    simp only [SymbolTable.change, publishAlias]
    cases table.published? target <;> exact Nat.le_refl _
  | _ => exact Nat.le_refl _

end SymbolTable

def Undo.region? : Undo → Option RegionId
  | .opened | .published .. => none
  | .closed region => some region.id
  | .bound id _ | .imported id | .markedPrivate id _ => some id

namespace SymbolTable

structure Numbered (table : SymbolTable) : Prop where
  symbols : ∀ symbol ∈ table.symbols, symbol.region.index < table.nextRegion
  innermost : table.innermost.id.index < table.nextRegion
  enclosing : ∀ region ∈ table.enclosing, region.id.index < table.nextRegion
  journal : ∀ change ∈ table.journal, ∀ id ∈ change.region?, id.index < table.nextRegion

namespace Numbered

variable {table later : SymbolTable}

theorem renumber_eq (h : table.Numbered) (distance : Nat) :
    table.renumber table.nextRegion distance =
      { table with nextRegion := table.nextRegion + distance } := by
  have hregion {region : Region} (hid : region.id.index < table.nextRegion) :
      region.renumber table.nextRegion distance = region := by
    rw [Region.renumber, RegionId.shift_of_lt hid]
  have hsymbols : table.symbols.map (·.renumber table.nextRegion distance) = table.symbols := by
    refine (Array.map_congr_left fun symbol hsymbol => ?_).trans (Array.map_id _)
    rw [Symbol.renumber, RegionId.shift_of_lt (h.symbols symbol hsymbol)]
    rfl
  have henclosing : table.enclosing.map (·.renumber table.nextRegion distance) = table.enclosing := by
    refine (List.map_congr_left fun region hmem => ?_).trans (List.map_id _)
    exact hregion (h.enclosing region hmem)
  have hjournal : table.journal.map (·.renumber table.nextRegion distance) = table.journal := by
    refine (Array.map_congr_left fun change hchange => ?_).trans (Array.map_id _)
    have hid := h.journal change hchange
    cases change with
    | opened | published => rfl
    | closed region => exact congrArg Undo.closed (hregion (hid region.id rfl))
    | bound id name => exact congrArg (Undo.bound · name) (RegionId.shift_of_lt (hid id rfl))
    | imported id => exact congrArg Undo.imported (RegionId.shift_of_lt (hid id rfl))
    | markedPrivate id previous =>
      exact congrArg (Undo.markedPrivate · previous) (RegionId.shift_of_lt (hid id rfl))
  have hnext : RegionId.shift table.nextRegion distance ⟨table.nextRegion⟩ = ⟨table.nextRegion + distance⟩ :=
    RegionId.shift_of_le (Nat.le_refl table.nextRegion)
  rw [SymbolTable.renumber, hsymbols, hregion h.innermost, henclosing, hjournal, hnext]

theorem write (h : table.Numbered) (hsymbols : later.symbols = table.symbols)
    (hinnermost : later.innermost.id = table.innermost.id) (henclosing : later.enclosing = table.enclosing)
    {change : Undo} (hjournal : later.journal = table.journal.push change)
    (hchange : ∀ id ∈ change.region?, id = table.innermost.id)
    (hnext : later.nextRegion = table.nextRegion) : later.Numbered where
  symbols := by
    rw [hsymbols, hnext]
    exact h.symbols
  innermost := by
    rw [hinnermost, hnext]
    exact h.innermost
  enclosing := by
    rw [henclosing, hnext]
    exact h.enclosing
  journal := by
    rw [hjournal, hnext]
    intro written hwritten
    rcases Array.mem_push.mp hwritten with hwritten | rfl
    · exact h.journal written hwritten
    · intro id hid
      rw [hchange id hid]
      exact h.innermost

theorem reserve (h : table.Numbered) (declaration : Declaration) :
    (table.reserve declaration).2.Numbered where
  symbols := by
    intro symbol hsymbol
    rcases Array.mem_push.mp hsymbol with hsymbol | rfl
    · exact h.symbols symbol hsymbol
    · exact h.innermost
  innermost := h.innermost
  enclosing := h.enclosing
  journal := h.journal

theorem bind (h : table.Numbered) (id : SymbolId) : (table.bind id).2.Numbered := by
  rcases table.bind_eq id with heq | ⟨symbol, -, heq⟩ <;> rw [heq]
  · exact h
  · exact h.write rfl rfl rfl rfl (fun _ hid => (Option.some.inj hid).symm) rfl

theorem declare (h : table.Numbered) (declaration : Declaration) :
    (table.declare declaration).2.2.Numbered :=
  (h.reserve declaration).bind _

theorem openRegion (h : table.Numbered) (kind : RegionKind) (owner : Option SymbolId) :
    (table.openRegion kind owner).Numbered where
  symbols := fun symbol hsymbol => Nat.lt_succ_of_lt (h.symbols symbol hsymbol)
  innermost := Nat.lt_succ_self _
  enclosing := by
    intro region hregion
    rcases List.mem_cons.mp hregion with rfl | hregion
    · exact Nat.lt_succ_of_lt h.innermost
    · exact Nat.lt_succ_of_lt (h.enclosing region hregion)
  journal := by
    intro change hchange id hid
    rcases Array.mem_push.mp hchange with hchange | rfl
    · exact Nat.lt_succ_of_lt (h.journal change hchange id hid)
    · cases hid

theorem closeRegion (h : table.Numbered) {closed : ClosedRegion}
    (hclose : table.closeRegion = some (closed, later)) : later.Numbered := by
  unfold SymbolTable.closeRegion at hclose
  split at hclose
  · cases hclose
  · rename_i region rest henclosing
    cases hclose
    have houter := h.enclosing
    rw [henclosing] at houter
    refine ⟨h.symbols, houter region List.mem_cons_self,
      fun other hother => houter other (List.mem_cons_of_mem _ hother), fun change hchange id hid => ?_⟩
    rcases Array.mem_push.mp hchange with hchange | rfl
    · exact h.journal change hchange id hid
    · cases hid
      exact h.innermost

theorem publish (h : table.Numbered) (owner : SymbolId) (members : Members) :
    (table.publish owner members).Numbered :=
  h.write rfl rfl rfl rfl (fun _ hid => by cases hid) rfl

theorem addPredefined (h : table.Numbered) : table.addPredefined.2.Numbered :=
  addPredefined_induction h (fun _ declaration h => h.declare declaration)
    fun _ declaration h => (h.declare declaration).publish _ _

theorem change (h : table.Numbered) (change : TableChange) : (table.change change).Numbered := by
  cases change with
  | populate => exact h.addPredefined
  | declare declaration => exact h.declare declaration
  | reserve declaration => exact h.reserve declaration
  | bind id => exact h.bind id
  | openRegion kind owner => exact h.openRegion kind owner
  | closeRegion =>
    simp only [SymbolTable.change]
    split
    · rename_i hclose
      exact h.closeRegion hclose
    · exact h
  | markPrivate => exact h.write rfl rfl rfl rfl (fun _ hid => (Option.some.inj hid).symm) rfl
  | addImport package kind => exact h.write rfl rfl rfl rfl (fun _ hid => (Option.some.inj hid).symm) rfl
  | publish owner members => exact h.publish owner members
  | publishCurrent owner => exact h.publish owner _
  | publishAlias synonym target =>
    simp only [SymbolTable.change]
    rcases table.publishAlias_eq synonym target with heq | ⟨contents, heq⟩ <;> rw [heq]
    · exact h
    · exact h.write rfl rfl rfl rfl (fun _ hid => by cases hid) rfl

theorem updateRegion (h : table.Numbered) (id : RegionId) {change : Region → Region}
    (hchange : ∀ region, (change region).id = region.id) : (table.updateRegion id change).Numbered := by
  unfold SymbolTable.updateRegion
  split
  · exact ⟨h.symbols, by simpa [hchange] using h.innermost, h.enclosing, h.journal⟩
  · refine ⟨h.symbols, h.innermost, ?_, h.journal⟩
    have henclosing := h.enclosing
    clear h
    generalize table.enclosing = regions at henclosing ⊢
    induction regions with
    | nil => simp [updateRegion.go]
    | cons region rest ih =>
      obtain ⟨hregion, hrest⟩ := List.forall_mem_cons.mp henclosing
      simp only [updateRegion.go]
      split
      · exact List.forall_mem_cons.mpr ⟨by rwa [hchange], hrest⟩
      · exact List.forall_mem_cons.mpr ⟨hregion, ih hrest⟩

theorem undo (h : table.Numbered) {change : Undo}
    (hchange : ∀ id ∈ change.region?, id.index < table.nextRegion) : (table.undo change).Numbered := by
  cases change with
  | opened =>
    have houter := h.enclosing
    simp only [SymbolTable.undo]
    cases henclosing : table.enclosing with
    | nil => exact h
    | cons region rest =>
      rw [henclosing] at houter
      exact ⟨h.symbols, houter region List.mem_cons_self,
        fun other hother => houter other (List.mem_cons_of_mem _ hother), h.journal⟩
  | closed region =>
    exact ⟨h.symbols, hchange region.id rfl,
      List.forall_mem_cons.mpr ⟨h.innermost, h.enclosing⟩, h.journal⟩
  | bound id name => exact h.updateRegion id fun _ => rfl
  | imported id => exact h.updateRegion id fun _ => rfl
  | markedPrivate id previous => exact h.updateRegion id fun _ => rfl
  | published owner previous => cases previous <;> exact ⟨h.symbols, h.innermost, h.enclosing, h.journal⟩

theorem undoLast (h : table.Numbered) (count : Nat) : (table.undoLast count).Numbered := by
  induction count generalizing table with
  | zero => exact h
  | succ count ih =>
    simp only [SymbolTable.undoLast]
    cases hback : table.journal.back? with
    | none => exact h
    | some change =>
      have hpopped : ({ table with journal := table.journal.pop } : SymbolTable).Numbered := by
        refine ⟨h.symbols, h.innermost, h.enclosing, fun other hother => ?_⟩
        obtain ⟨index, hindex, rfl⟩ := Array.mem_iff_getElem.mp hother
        rw [Array.getElem_pop]
        exact h.journal _ (Array.getElem_mem _)
      exact ih (hpopped.undo (h.journal change (Array.mem_of_back? hback)))

theorem rollback (h : table.Numbered) (mark : ScopeMark) : (table.rollback mark).Numbered := by
  have hundone := h.undoLast (table.journal.size - mark.journal)
  refine ⟨fun symbol hsymbol => ?_, hundone.innermost, hundone.enclosing, hundone.journal⟩
  obtain ⟨index, hindex, rfl⟩ := Array.mem_iff_getElem.mp hsymbol
  simp only [SymbolTable.rollback, Array.getElem_shrink]
  exact hundone.symbols _ (Array.getElem_mem _)

theorem empty : SymbolTable.empty.Numbered where
  symbols := fun _ hsymbol => absurd hsymbol (Array.not_mem_empty _)
  innermost := Nat.zero_lt_one
  enclosing := fun _ hregion => absurd hregion List.not_mem_nil
  journal := fun _ hchange => absurd hchange (Array.not_mem_empty _)

theorem predefined : SymbolTable.predefined.Numbered := empty.addPredefined

end Numbered

end SymbolTable

end AdaSyntax
