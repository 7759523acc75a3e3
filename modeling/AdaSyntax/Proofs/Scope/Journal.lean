import AdaSyntax.Scope.Lookup
import AdaSyntax.Scope.Table

namespace AdaSyntax

namespace Bindings

@[simp] theorem add_nil (name : Name) (id : SymbolId) : add [] name id = [(name, [id])] := rfl

theorem add_cons (key : Name) (ids : List SymbolId) (rest : Bindings) (name : Name) (id : SymbolId) :
    add ((key, ids) :: rest) name id = if key = name then (key, ids ++ [id]) :: rest
      else (key, ids) :: rest.add name id := rfl

def Proper (bindings : Bindings) : Prop := ∀ entry ∈ bindings, entry.2 ≠ []

theorem proper_nil : Proper [] := by simp [Proper]

theorem Proper.tail {entry : Name × List SymbolId} {bindings : Bindings}
    (h : Proper (entry :: bindings)) : Proper bindings :=
  fun other hother => h other (List.mem_cons_of_mem _ hother)

theorem Proper.add {bindings : Bindings} (h : bindings.Proper) (name : Name) (id : SymbolId) :
    (bindings.add name id).Proper := by
  induction bindings with
  | nil => simp [Proper]
  | cons entry rest ih =>
    obtain ⟨key, ids⟩ := entry
    have hrest := ih h.tail
    have hids : ids ≠ [] := h (key, ids) List.mem_cons_self
    by_cases hkey : key = name
    · simp only [add_cons, hkey, if_true]
      intro entry hentry
      rcases List.mem_cons.mp hentry with rfl | hentry
      · simp
      · exact h.tail entry hentry
    · simp only [add_cons, hkey, if_false]
      intro entry hentry
      rcases List.mem_cons.mp hentry with rfl | hentry
      · exact hids
      · exact hrest entry hentry

theorem removeLast_add {bindings : Bindings} (h : bindings.Proper) (name : Name) (id : SymbolId) :
    (bindings.add name id).removeLast name = bindings := by
  induction bindings with
  | nil => simp [removeLast]
  | cons entry rest ih =>
    obtain ⟨key, ids⟩ := entry
    have hids : ids ≠ [] := h (key, ids) List.mem_cons_self
    by_cases hkey : key = name
    · simp [add_cons, removeLast, hkey, hids]
    · simp [add_cons, removeLast, hkey, ih h.tail]

@[simp] theorem get_add_self (bindings : Bindings) (name : Name) (id : SymbolId) :
    (bindings.add name id).get name = bindings.get name ++ [id] := by
  induction bindings with
  | nil => simp [get]
  | cons entry rest ih =>
    obtain ⟨key, ids⟩ := entry
    by_cases hkey : key = name
    · subst hkey
      simp [add_cons, get]
    · have hne : (name == key) = false := beq_eq_false_iff_ne.mpr (Ne.symm hkey)
      simpa [add_cons, get, hkey, List.lookup_cons, hne] using ih

theorem get_add_of_ne (bindings : Bindings) {name other : Name} (id : SymbolId) (h : other ≠ name) :
    (bindings.add name id).get other = bindings.get other := by
  have hfalse : (other == name) = false := beq_eq_false_iff_ne.mpr h
  induction bindings with
  | nil => simp [get, List.lookup_cons, hfalse]
  | cons entry rest ih =>
    obtain ⟨key, ids⟩ := entry
    by_cases hkey : key = name
    · subst hkey
      simp [add_cons, get, List.lookup_cons, hfalse]
    · simp only [get] at ih
      simp only [add_cons, get, hkey, if_false, List.lookup_cons]
      split
      · rfl
      · exact ih

theorem get_prefix_add (bindings : Bindings) (name other : Name) (id : SymbolId) :
    bindings.get other <+: (bindings.add name id).get other := by
  by_cases h : other = name
  · subst h
    rw [get_add_self]
    exact List.prefix_append _ _
  · simp only [get_add_of_ne bindings id h, List.prefix_rfl]

end Bindings

namespace SymbolTable

section Undo

variable (table : SymbolTable) (id : RegionId) (owner : SymbolId)

@[simp] theorem undo_closed (region : Region) : table.undo (.closed region) =
    { table with innermost := region, enclosing := table.innermost :: table.enclosing } := rfl

@[simp] theorem undo_bound (name : Name) :
    table.undo (.bound id name) = table.updateRegion id (·.unbind name) := rfl

@[simp] theorem undo_imported : table.undo (.imported id) =
    table.updateRegion id fun region => { region with imports := region.imports.dropLast } := rfl

@[simp] theorem undo_markedPrivate (previous : Option Nat) : table.undo (.markedPrivate id previous) =
    table.updateRegion id fun region => { region with privateStart := previous } := rfl

@[simp] theorem undo_published_none : table.undo (.published owner none) =
    { table with contents := table.contents.filter (·.1 ≠ owner) } := rfl

@[simp] theorem undo_published_some (contents : Contents) : table.undo (.published owner (some contents)) =
    { table with contents := setContents owner contents table.contents } := rfl

@[simp] theorem undoLast_zero : table.undoLast 0 = table := rfl

end Undo

/-- The table with other symbols and another region counter. -/
def withStores (table : SymbolTable) (symbols : Array Symbol) (nextRegion : Nat) : SymbolTable :=
  { table with symbols, nextRegion }

theorem updateRegion_withStores (table : SymbolTable) (symbols : Array Symbol) (next : Nat)
    (id : RegionId) (f : Region → Region) :
    (table.withStores symbols next).updateRegion id f =
      (table.updateRegion id f).withStores symbols next := by
  unfold updateRegion
  by_cases h : table.innermost.id = id <;> simp [withStores, h]

theorem undo_withStores (table : SymbolTable) (symbols : Array Symbol) (next : Nat) (change : Undo) :
    (table.withStores symbols next).undo change = (table.undo change).withStores symbols next := by
  cases change with
  | opened => simp only [undo, withStores]; split <;> rfl
  | closed region => rfl
  | bound region name => exact updateRegion_withStores ..
  | imported region => exact updateRegion_withStores ..
  | markedPrivate region previous => exact updateRegion_withStores ..
  | published owner previous => cases previous <;> rfl

theorem undoLast_withStores (table : SymbolTable) (symbols : Array Symbol) (next count : Nat) :
    (table.withStores symbols next).undoLast count =
      (table.undoLast count).withStores symbols next := by
  induction count generalizing table with
  | zero => rfl
  | succ count ih =>
    simp only [undoLast]
    have hjournal : (table.withStores symbols next).journal = table.journal := rfl
    rw [hjournal]
    cases hback : table.journal.back? with
    | none => rfl
    | some change =>
      simp only
      rw [← ih, ← undo_withStores]
      rfl

theorem undoLast_nextRegion (table : SymbolTable) (count : Nat) :
    (table.undoLast count).nextRegion = table.nextRegion :=
  congrArg (·.nextRegion) (table.undoLast_withStores table.symbols table.nextRegion count)

theorem rollback_nextRegion (table : SymbolTable) (mark : ScopeMark) :
    (table.rollback mark).nextRegion = table.nextRegion :=
  table.undoLast_nextRegion _

theorem undoLast_add (table : SymbolTable) (first second : Nat) :
    table.undoLast (first + second) = (table.undoLast first).undoLast second := by
  induction first generalizing table with
  | zero => simp
  | succ first ih =>
    rw [Nat.succ_add]
    simp only [undoLast]
    cases hback : table.journal.back? with
    | some change => exact ih _
    | none =>
      cases second with
      | zero => rfl
      | succ second => simp [undoLast, hback]

def Proper (table : SymbolTable) : Prop := ∀ region ∈ table.regions, region.bindings.Proper

/-- Undoing what `later` has written since gives `earlier`, symbols and region counter apart. -/
structure RevertsTo (later earlier : SymbolTable) : Prop where
  symbols : earlier.symbols.toList <+: later.symbols.toList
  nextRegion : earlier.nextRegion ≤ later.nextRegion
  journal : earlier.journal.size ≤ later.journal.size
  undone : later.undoLast (later.journal.size - earlier.journal.size) =
    earlier.withStores later.symbols later.nextRegion

namespace RevertsTo

theorem refl (table : SymbolTable) : table.RevertsTo table where
  symbols := List.prefix_rfl
  nextRegion := Nat.le_refl _
  journal := Nat.le_refl _
  undone := by rw [Nat.sub_self]; rfl

theorem of_counter {table : SymbolTable} {next : Nat} (h : table.nextRegion ≤ next) :
    { table with nextRegion := next }.RevertsTo table where
  symbols := List.prefix_rfl
  nextRegion := h
  journal := Nat.le_refl _
  undone := by rw [Nat.sub_self]; rfl

theorem trans {first second third : SymbolTable} (h : third.RevertsTo second)
    (h' : second.RevertsTo first) : third.RevertsTo first where
  symbols := h'.symbols.trans h.symbols
  nextRegion := Nat.le_trans h'.nextRegion h.nextRegion
  journal := Nat.le_trans h'.journal h.journal
  undone := by
    have hcount : third.journal.size - first.journal.size =
        (third.journal.size - second.journal.size) +
          (second.journal.size - first.journal.size) := by
      have := h.journal
      have := h'.journal
      omega
    rw [hcount, undoLast_add, h.undone, undoLast_withStores, h'.undone]
    rfl

theorem of_undo {earlier later : SymbolTable} {change : Undo}
    (hsymbols : later.symbols = earlier.symbols) (hnext : earlier.nextRegion ≤ later.nextRegion)
    (hjournal : later.journal = earlier.journal.push change)
    (hundo : { later with journal := earlier.journal }.undo change =
      earlier.withStores later.symbols later.nextRegion) : later.RevertsTo earlier where
  symbols := hsymbols ▸ List.prefix_rfl
  nextRegion := hnext
  journal := by simp [hjournal]
  undone := by
    have hcount : later.journal.size - earlier.journal.size = 1 := by simp [hjournal]
    have hpop : { later with journal := later.journal.pop } =
        { later with journal := earlier.journal } := by simp [hjournal]
    rw [hcount, ← hundo]
    simp only [undoLast, hpop]
    simp [hjournal]

theorem rollback {later earlier : SymbolTable} (h : later.RevertsTo earlier) :
    later.rollback earlier.mark = { earlier with nextRegion := later.nextRegion } := by
  have hsymbols : later.symbols.shrink earlier.symbols.size = earlier.symbols := by
    apply Array.toList_inj.mp
    obtain ⟨added, hadded⟩ := h.symbols
    simp [← hadded, ← Array.length_toList]
  simp only [SymbolTable.rollback, mark, h.undone, withStores, hsymbols]

end RevertsTo

theorem reserve_revertsTo (table : SymbolTable) (declaration : Declaration) :
    (table.reserve declaration).2.RevertsTo table where
  symbols := by simp [reserve]
  nextRegion := Nat.le_refl _
  journal := Nat.le_refl _
  undone := by simp [reserve, withStores]

theorem openRegion_revertsTo (table : SymbolTable) (kind : RegionKind) (owner : Option SymbolId) :
    (table.openRegion kind owner).RevertsTo table :=
  .of_undo rfl (Nat.le_succ _) rfl rfl

theorem closeRegion_revertsTo {table later : SymbolTable} {closed : ClosedRegion}
    (h : table.closeRegion = some (closed, later)) : later.RevertsTo table := by
  unfold closeRegion at h
  split at h
  · cases h
  · rename_i region rest henclosing
    cases h
    refine .of_undo rfl (Nat.le_refl _) rfl ?_
    simp [withStores, ← henclosing]

theorem markPrivate_revertsTo (table : SymbolTable) : table.markPrivate.RevertsTo table :=
  .of_undo rfl (Nat.le_refl _) rfl (by simp [markPrivate, updateRegion, withStores])

theorem addImport_revertsTo (table : SymbolTable) (package : SymbolId) (kind : ImportKind) :
    (table.addImport package kind).RevertsTo table :=
  .of_undo rfl (Nat.le_refl _) rfl (by simp [addImport, updateRegion, withStores])

@[simp] theorem setContents_nil (owner : SymbolId) (contents : Contents) :
    setContents owner contents [] = [(owner, contents)] := rfl

theorem setContents_cons (owner key : SymbolId) (contents old : Contents) (rest : List (SymbolId × Contents)) :
    setContents owner contents ((key, old) :: rest) =
      if key = owner then (key, contents) :: rest else (key, old) :: setContents owner contents rest := rfl

theorem setContents_of_lookup {owner : SymbolId} {contents : Contents}
    {all : List (SymbolId × Contents)} (h : all.lookup owner = some contents) :
    setContents owner contents all = all := by
  induction all with
  | nil => cases h
  | cons entry rest ih =>
    obtain ⟨key, old⟩ := entry
    by_cases hkey : key = owner
    · subst hkey
      simp_all [setContents_cons]
    · have hne : (owner == key) = false := beq_eq_false_iff_ne.mpr (Ne.symm hkey)
      simp only [List.lookup_cons, hne] at h
      simp [setContents_cons, hkey, ih h]

theorem setContents_setContents (owner : SymbolId) (first second : Contents)
    (all : List (SymbolId × Contents)) :
    setContents owner second (setContents owner first all) = setContents owner second all := by
  induction all with
  | nil => simp [setContents_cons]
  | cons entry rest ih =>
    obtain ⟨key, old⟩ := entry
    by_cases hkey : key = owner
    · simp [setContents_cons, hkey]
    · simp [setContents_cons, hkey, ih]

theorem filter_setContents {owner : SymbolId} (contents : Contents)
    {all : List (SymbolId × Contents)} (h : all.lookup owner = none) :
    (setContents owner contents all).filter (·.1 ≠ owner) = all := by
  induction all with
  | nil => simp
  | cons entry rest ih =>
    obtain ⟨key, old⟩ := entry
    by_cases hkey : key = owner
    · subst hkey
      simp at h
    · have hne : (owner == key) = false := beq_eq_false_iff_ne.mpr (Ne.symm hkey)
      simp only [List.lookup_cons, hne] at h
      simpa [setContents_cons, hkey] using ih h

theorem lookup_setContents_of_ne {owner other : SymbolId} (contents : Contents)
    (all : List (SymbolId × Contents)) (h : other ≠ owner) :
    (setContents owner contents all).lookup other = all.lookup other := by
  have hfalse : (other == owner) = false := beq_eq_false_iff_ne.mpr h
  induction all with
  | nil => simp [List.lookup_cons, hfalse]
  | cons entry rest ih =>
    obtain ⟨key, old⟩ := entry
    by_cases hkey : key = owner
    · subst hkey
      simp [setContents_cons, List.lookup_cons, hfalse]
    · simp [setContents_cons, hkey, List.lookup_cons, ih]

def putContents (table : SymbolTable) (owner : SymbolId) (contents : Contents) : SymbolTable :=
  { table with
    contents := setContents owner contents table.contents
    journal := table.journal.push (.published owner (table.published? owner)) }

theorem putContents_revertsTo (table : SymbolTable) (owner : SymbolId) (contents : Contents) :
    (table.putContents owner contents).RevertsTo table := by
  refine .of_undo rfl (Nat.le_refl _) rfl ?_
  cases hprevious : table.published? owner with
  | none =>
    have hback : (setContents owner contents table.contents).filter (·.1 ≠ owner) =
        table.contents := filter_setContents contents hprevious
    simp only [undo_published_none, putContents, withStores, hback]
  | some previous =>
    have hback : setContents owner previous (setContents owner contents table.contents) =
        table.contents := by
      rw [setContents_setContents]
      exact setContents_of_lookup hprevious
    simp only [undo_published_some, putContents, withStores, hback]

theorem publish_eq (table : SymbolTable) (owner : SymbolId) (members : Members) :
    ∃ contents, table.publish owner members = table.putContents owner contents :=
  ⟨_, rfl⟩

theorem publishAlias_eq (table : SymbolTable) (synonym target : SymbolId) :
    table.publishAlias synonym target = table ∨
      ∃ contents, table.publishAlias synonym target = table.putContents synonym contents := by
  unfold publishAlias
  split
  · exact .inl rfl
  · exact .inr ⟨_, rfl⟩

theorem publish_revertsTo (table : SymbolTable) (owner : SymbolId) (members : Members) :
    (table.publish owner members).RevertsTo table := by
  obtain ⟨contents, h⟩ := table.publish_eq owner members
  rw [h]
  exact table.putContents_revertsTo owner contents

theorem publishAlias_revertsTo (table : SymbolTable) (synonym target : SymbolId) :
    (table.publishAlias synonym target).RevertsTo table := by
  rcases table.publishAlias_eq synonym target with h | ⟨contents, h⟩ <;> rw [h]
  · exact .refl table
  · exact table.putContents_revertsTo synonym contents

def putBinding (table : SymbolTable) (name : Name) (id : SymbolId) : SymbolTable :=
  { table with
    innermost := table.innermost.bind name id
    journal := table.journal.push (.bound table.innermost.id name) }

theorem bind_eq (table : SymbolTable) (id : SymbolId) :
    (table.bind id).2 = table ∨ ∃ symbol, table.symbol? id = some symbol ∧
      (table.bind id).2 = table.putBinding symbol.name id := by
  unfold bind
  split
  · exact .inl rfl
  · rename_i symbol hsymbol
    dsimp only
    split
    · exact .inl rfl
    · split
      · exact .inl rfl
      · exact .inr ⟨symbol, hsymbol, rfl⟩

theorem putBinding_revertsTo {table : SymbolTable} (h : table.Proper) (name : Name)
    (id : SymbolId) : (table.putBinding name id).RevertsTo table := by
  have hregion : (table.innermost.bind name id).unbind name = table.innermost := by
    simp [Region.bind, Region.unbind,
      Bindings.removeLast_add (h table.innermost List.mem_cons_self)]
  have hid : (table.innermost.bind name id).id = table.innermost.id := rfl
  refine .of_undo rfl (Nat.le_refl _) rfl ?_
  simp [putBinding, updateRegion, withStores, hid, hregion]

theorem bind_revertsTo {table : SymbolTable} (h : table.Proper) (id : SymbolId) :
    (table.bind id).2.RevertsTo table := by
  rcases table.bind_eq id with heq | ⟨symbol, -, heq⟩ <;> rw [heq]
  · exact .refl table
  · exact putBinding_revertsTo h symbol.name id

theorem empty_proper : empty.Proper := by
  simp [Proper, regions, empty, Bindings.proper_nil]

theorem Proper.openRegion {table : SymbolTable} (h : table.Proper) (kind : RegionKind)
    (owner : Option SymbolId) : (table.openRegion kind owner).Proper := by
  intro region hregion
  rcases List.mem_cons.mp hregion with rfl | hregion
  · exact Bindings.proper_nil
  · exact h region hregion

theorem Proper.closeRegion {table later : SymbolTable} {closed : ClosedRegion} (h : table.Proper)
    (hclose : table.closeRegion = some (closed, later)) : later.Proper := by
  unfold SymbolTable.closeRegion at hclose
  split at hclose
  · cases hclose
  · rename_i region rest henclosing
    cases hclose
    intro other hother
    refine h other (List.mem_cons_of_mem _ ?_)
    rw [henclosing]
    exact hother

theorem Proper.of_bindings {table later : SymbolTable} (h : table.Proper)
    (henclosing : later.enclosing = table.enclosing)
    (hinnermost : later.innermost.bindings = table.innermost.bindings) : later.Proper := by
  intro region hregion
  rcases List.mem_cons.mp hregion with rfl | hregion
  · rw [hinnermost]
    exact h _ List.mem_cons_self
  · exact h region (List.mem_cons_of_mem _ (henclosing ▸ hregion))

theorem Proper.bind {table : SymbolTable} (h : table.Proper) (id : SymbolId) :
    (table.bind id).2.Proper := by
  rcases table.bind_eq id with heq | ⟨symbol, -, heq⟩ <;> rw [heq]
  · exact h
  · intro region hregion
    rcases List.mem_cons.mp hregion with rfl | hregion
    · exact (h _ List.mem_cons_self).add symbol.name id
    · exact h region (List.mem_cons_of_mem _ hregion)

theorem Proper.reserve {table : SymbolTable} (h : table.Proper) (declaration : Declaration) :
    (table.reserve declaration).2.Proper :=
  h.of_bindings rfl rfl

theorem Proper.declare {table : SymbolTable} (h : table.Proper) (declaration : Declaration) :
    (table.declare declaration).2.2.Proper :=
  (h.reserve declaration).bind _

theorem Proper.publish {table : SymbolTable} (h : table.Proper) (owner : SymbolId)
    (members : Members) : (table.publish owner members).Proper :=
  h.of_bindings rfl rfl

theorem Proper.publishAlias {table : SymbolTable} (h : table.Proper) (synonym target : SymbolId) :
    (table.publishAlias synonym target).Proper := by
  rcases table.publishAlias_eq synonym target with heq | ⟨contents, heq⟩ <;> rw [heq]
  · exact h
  · exact h.of_bindings rfl rfl

theorem declare_revertsTo {table : SymbolTable} (h : table.Proper) (declaration : Declaration) :
    (table.declare declaration).2.2.RevertsTo table :=
  (bind_revertsTo (h.reserve declaration) _).trans (table.reserve_revertsTo declaration)

theorem addPredefined_induction {motive : SymbolTable → Prop} {table : SymbolTable} (start : motive table)
    (declare : ∀ table declaration, motive table → motive (table.declare declaration).2.2)
    (publish : ∀ table declaration, motive table →
      motive ((table.declare declaration).2.2.publishCurrent (table.declare declaration).1)) :
    motive table.addPredefined.2 := by
  unfold SymbolTable.addPredefined
  generalize Predefined.declarations = declarations
  have hfold : motive (declarations.foldl (fun table entity => (table.declare entity).2.2) table) := by
    induction declarations generalizing table with
    | nil => exact start
    | cons declaration rest ih => exact ih (declare table declaration start)
  exact publish _ _ hfold

theorem Proper.addPredefined {table : SymbolTable} (h : table.Proper) : table.addPredefined.2.Proper :=
  addPredefined_induction h (fun _ declaration h => h.declare declaration)
    fun _ declaration h => (h.declare declaration).publish _ _

theorem addPredefined_revertsTo {table : SymbolTable} (h : table.Proper) : table.addPredefined.2.RevertsTo table := by
  have hboth : table.addPredefined.2.Proper ∧ table.addPredefined.2.RevertsTo table := by
    refine addPredefined_induction (motive := fun later => later.Proper ∧ later.RevertsTo table) ⟨h, .refl table⟩ ?_ ?_
    · rintro later declaration ⟨hproper, hreverts⟩
      exact ⟨hproper.declare declaration, (declare_revertsTo hproper declaration).trans hreverts⟩
    · rintro later declaration ⟨hproper, hreverts⟩
      have hdeclare := (declare_revertsTo hproper declaration).trans hreverts
      exact ⟨(hproper.declare declaration).publish _ _, (publish_revertsTo _ _ _).trans hdeclare⟩
  exact hboth.2

end SymbolTable

end AdaSyntax
