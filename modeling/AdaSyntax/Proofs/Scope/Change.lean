import AdaSyntax.Proofs.Scope.Journal

namespace AdaSyntax

/-- What can be done to a symbol table. -/
inductive TableChange where
  | populate
  | declare (declaration : Declaration)
  | reserve (declaration : Declaration)
  | bind (id : SymbolId)
  | openRegion (kind : RegionKind) (owner : Option SymbolId)
  | closeRegion
  | markPrivate
  | addImport (package : SymbolId) (kind : ImportKind)
  | publish (owner : SymbolId) (members : Members)
  | publishCurrent (owner : SymbolId)
  | publishAlias (synonym target : SymbolId)

def TableChange.declares : TableChange → Bool
  | populate | declare _ | reserve _ => true
  | _ => false

namespace SymbolTable

def change (table : SymbolTable) : TableChange → SymbolTable
  | .populate => table.addPredefined.2
  | .declare declaration => (table.declare declaration).2.2
  | .reserve declaration => (table.reserve declaration).2
  | .bind id => (table.bind id).2
  | .openRegion kind owner => table.openRegion kind owner
  | .closeRegion =>
    match table.closeRegion with
    | some (_, later) => later
    | none => table
  | .markPrivate => table.markPrivate
  | .addImport package kind => table.addImport package kind
  | .publish owner members => table.publish owner members
  | .publishCurrent owner => table.publishCurrent owner
  | .publishAlias synonym target => table.publishAlias synonym target

theorem Proper.change {table : SymbolTable} (h : table.Proper) (change : TableChange) :
    (table.change change).Proper := by
  cases change with
  | populate => exact h.addPredefined
  | declare declaration => exact h.declare declaration
  | reserve declaration => exact h.reserve declaration
  | bind id => exact h.bind id
  | openRegion kind owner => exact h.openRegion kind owner
  | closeRegion =>
    simp only [SymbolTable.change]
    split
    · rename_i hclose
      exact h.closeRegion hclose
    · exact h
  | markPrivate => exact h.of_bindings rfl rfl
  | addImport package kind => exact h.of_bindings rfl rfl
  | publish owner members => exact h.publish owner members
  | publishCurrent owner => exact h.publish owner _
  | publishAlias synonym target => exact h.publishAlias synonym target

theorem change_revertsTo {table : SymbolTable} (h : table.Proper) (change : TableChange) :
    (table.change change).RevertsTo table := by
  cases change with
  | populate => exact addPredefined_revertsTo h
  | declare declaration => exact declare_revertsTo h declaration
  | reserve declaration => exact table.reserve_revertsTo declaration
  | bind id => exact bind_revertsTo h id
  | openRegion kind owner => exact table.openRegion_revertsTo kind owner
  | closeRegion =>
    simp only [SymbolTable.change]
    split
    · rename_i hclose
      exact closeRegion_revertsTo hclose
    · exact .refl table
  | markPrivate => exact table.markPrivate_revertsTo
  | addImport package kind => exact table.addImport_revertsTo package kind
  | publish owner members => exact table.publish_revertsTo owner members
  | publishCurrent owner => exact table.publish_revertsTo owner _
  | publishAlias synonym target => exact table.publishAlias_revertsTo synonym target

theorem bind_symbols (table : SymbolTable) (id : SymbolId) : (table.bind id).2.symbols = table.symbols := by
  rcases table.bind_eq id with heq | ⟨symbol, -, heq⟩ <;> exact congrArg (·.symbols) heq

theorem declare_symbols (table : SymbolTable) (declaration : Declaration) :
    (table.declare declaration).2.2.symbols =
      table.symbols.push { declaration with region := table.innermost.id, depth := table.depth } :=
  bind_symbols _ _

theorem change_symbols (table : SymbolTable) {change : TableChange} (h : change.declares = false) :
    (table.change change).symbols = table.symbols := by
  cases change with
  | populate | declare | reserve => cases h
  | bind id => exact table.bind_symbols id
  | closeRegion =>
    simp only [SymbolTable.change, SymbolTable.closeRegion]
    cases table.enclosing <;> rfl
  | publishAlias synonym target =>
    simp only [SymbolTable.change, SymbolTable.publishAlias]
    cases table.published? target <;> rfl
  | _ => rfl

def Recoverable (table : SymbolTable) : Prop := ∀ count, (table.undoLast count).Proper

namespace Recoverable

variable {table earlier later : SymbolTable}

theorem proper (h : table.Recoverable) : table.Proper := h 0

theorem withStores (h : table.Recoverable) (symbols : Array Symbol) (next : Nat) :
    (table.withStores symbols next).Recoverable := by
  intro count
  rw [undoLast_withStores]
  exact (h count).of_bindings rfl rfl

theorem undoLast (h : table.Recoverable) (count : Nat) : (table.undoLast count).Recoverable := by
  intro further
  rw [← undoLast_add]
  exact h (count + further)

theorem rollback (h : table.Recoverable) (mark : ScopeMark) : (table.rollback mark).Recoverable :=
  (h.undoLast _).withStores _ _

theorem of_revertsTo (h : earlier.Recoverable) (hproper : later.Proper)
    (hreverts : later.RevertsTo earlier)
    (hjournal : later.journal.size ≤ earlier.journal.size + 1) : later.Recoverable := by
  intro count
  by_cases hcount : later.journal.size - earlier.journal.size ≤ count
  · obtain ⟨further, rfl⟩ := Nat.exists_eq_add_of_le hcount
    rw [undoLast_add, hreverts.undone]
    exact h.withStores _ _ further
  · have hzero : count = 0 := by omega
    rw [hzero]
    exact hproper

theorem reserve (h : table.Recoverable) (declaration : Declaration) :
    (table.reserve declaration).2.Recoverable :=
  h.of_revertsTo (h.proper.reserve declaration) (table.reserve_revertsTo declaration) (Nat.le_succ _)

theorem bind (h : table.Recoverable) (id : SymbolId) : (table.bind id).2.Recoverable := by
  refine h.of_revertsTo (h.proper.bind id) (bind_revertsTo h.proper id) ?_
  rcases table.bind_eq id with heq | ⟨symbol, -, heq⟩ <;> rw [heq]
  · exact Nat.le_succ _
  · simp [putBinding]

theorem declare (h : table.Recoverable) (declaration : Declaration) :
    (table.declare declaration).2.2.Recoverable :=
  (h.reserve declaration).bind _

theorem publish (h : table.Recoverable) (owner : SymbolId) (members : Members) :
    (table.publish owner members).Recoverable :=
  h.of_revertsTo (h.proper.publish owner members) (table.publish_revertsTo owner members)
    (by simp [SymbolTable.publish])

theorem addPredefined (h : table.Recoverable) : table.addPredefined.2.Recoverable :=
  addPredefined_induction h (fun _ declaration h => h.declare declaration)
    fun _ declaration h => (h.declare declaration).publish _ _

theorem change (h : table.Recoverable) (change : TableChange) : (table.change change).Recoverable := by
  have hproper := h.proper.change change
  have hreverts := change_revertsTo h.proper change
  cases change with
  | populate => exact h.addPredefined
  | declare declaration => exact h.declare declaration
  | bind id => exact h.bind id
  | closeRegion =>
    refine h.of_revertsTo hproper hreverts ?_
    simp only [SymbolTable.change, SymbolTable.closeRegion]
    cases table.enclosing <;> simp
  | publishAlias synonym target =>
    refine h.of_revertsTo hproper hreverts ?_
    rcases table.publishAlias_eq synonym target with heq | ⟨contents, heq⟩
    · simp [SymbolTable.change, heq]
    · simp [SymbolTable.change, heq, putContents]
  | _ => exact h.of_revertsTo hproper hreverts (by
      simp [SymbolTable.change, SymbolTable.reserve, SymbolTable.openRegion, SymbolTable.markPrivate,
        SymbolTable.addImport, SymbolTable.publishCurrent, SymbolTable.publish])

end Recoverable

theorem undo_journal (table : SymbolTable) (change : Undo) : (table.undo change).journal = table.journal := by
  have hupdate : ∀ id f, (table.updateRegion id f).journal = table.journal := by
    intro id f
    unfold updateRegion
    split <;> rfl
  cases change with
  | opened => simp only [undo]; split <;> rfl
  | closed region => rfl
  | published owner previous => cases previous <;> rfl
  | _ => exact hupdate _ _

theorem undoLast_journal_size (table : SymbolTable) (count : Nat) :
    (table.undoLast count).journal.size = table.journal.size - count := by
  induction count generalizing table with
  | zero => rfl
  | succ count ih =>
    simp only [undoLast]
    cases hback : table.journal.back? with
    | none => simp [Array.back?_eq_none_iff.mp hback]
    | some change =>
      simp only [ih, undo_journal, Array.size_pop]
      omega

theorem rollback_eq (table : SymbolTable) (mark : ScopeMark) :
    table.rollback mark =
      (table.undoLast (table.journal.size - mark.journal)).withStores
        (table.symbols.shrink mark.symbols) table.nextRegion := by
  have hundone := table.undoLast_withStores table.symbols table.nextRegion (table.journal.size - mark.journal)
  change table.undoLast _ = _ at hundone
  simp only [rollback]
  rw [hundone]
  rfl

theorem RevertsTo.rollback_of_le {later earlier : SymbolTable} (h : later.RevertsTo earlier)
    {mark : ScopeMark} (hsymbols : earlier.symbols.size ≤ mark.symbols)
    (hjournal : earlier.journal.size ≤ mark.journal) : (later.rollback mark).RevertsTo earlier := by
  have hsize := later.undoLast_journal_size (later.journal.size - mark.journal)
  have hbehind := h.journal
  -- what is taken back now, and what would be taken back then
  have hcount : later.journal.size - earlier.journal.size =
      (later.journal.size - mark.journal) +
        (later.journal.size - (later.journal.size - mark.journal) - earlier.journal.size) := by
    omega
  have hundone := h.undone
  rw [hcount, undoLast_add, ← hsize] at hundone
  rw [rollback_eq]
  generalize later.undoLast (later.journal.size - mark.journal) = undone at *
  refine ⟨?_, h.nextRegion, ?_, ?_⟩
  · have hle : earlier.symbols.toList.length ≤ mark.symbols := by simpa using hsymbols
    simpa [withStores] using List.prefix_take_iff.mpr ⟨h.symbols, hle⟩
  · show earlier.journal.size ≤ undone.journal.size
    omega
  · rw [undoLast_withStores]
    exact congrArg (·.withStores (later.symbols.shrink mark.symbols) later.nextRegion) hundone

theorem undoLast_empty (count : Nat) : empty.undoLast count = empty := by
  cases count <;> rfl

theorem empty_recoverable : empty.Recoverable := by
  intro count
  rw [undoLast_empty]
  exact empty_proper

theorem predefined_recoverable : predefined.Recoverable := empty_recoverable.addPredefined

end SymbolTable

end AdaSyntax
