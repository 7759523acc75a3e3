import AdaSyntax.Proofs.Scope.Change
import AdaSyntax.Scope.Lookup

namespace AdaSyntax

def Declaration.unplaced (declaration : Declaration) : Declaration :=
  { declaration with range := .empty 0 }

def Symbol.unplaced (symbol : Symbol) : Symbol := { symbol with range := .empty 0 }

namespace SymbolTable

def unplaced (table : SymbolTable) : SymbolTable :=
  { table with symbols := table.symbols.map Symbol.unplaced }

variable (table : SymbolTable)

@[simp] theorem symbol?_unplaced (id : SymbolId) :
    table.unplaced.symbol? id = (table.symbol? id).map Symbol.unplaced :=
  Array.getElem?_map

@[simp] theorem kindOf_unplaced (id : SymbolId) : table.unplaced.kindOf id = table.kindOf id := by
  unfold kindOf
  rw [symbol?_unplaced]
  cases table.symbol? id <;> rfl

@[simp] theorem resolution_unplaced (found : Option SymbolId) :
    table.unplaced.resolution found = table.resolution found := by
  cases found with
  | none => rfl
  | some id => simp [resolution]

@[simp] theorem lookupIn_unplaced (region : Region) (name : Name) (restricted : Bool) :
    table.unplaced.lookupIn region name restricted = table.lookupIn region name restricted := by
  simp [lookupIn, hides]

theorem lookupDirect_unplaced (name : Name) (interior restricted : Bool) (regions : List Region) :
    table.unplaced.lookupDirect name interior restricted regions =
      table.lookupDirect name interior restricted regions := by
  induction regions generalizing restricted with
  | nil => rfl
  | cons region rest ih =>
    simp only [lookupDirect, lookupIn_unplaced, ih]
    rfl

@[simp] theorem resolve_unplaced (name : Name) : table.unplaced.resolve name = table.resolve name := by
  simp only [resolve, lookupDirect_unplaced, resolution_unplaced]
  rfl

@[simp] theorem resolveMember_unplaced (owner : SymbolId) (name : Name) :
    table.unplaced.resolveMember owner name = table.resolveMember owner name := by
  simp only [resolveMember, resolution_unplaced]
  rfl

theorem classifyBinding_unplaced (kind : SymbolKind) (ids : List SymbolId) :
    table.unplaced.classifyBinding kind ids = table.classifyBinding kind ids := by
  cases ids <;> simp [classifyBinding]

theorem bind_unplaced (id : SymbolId) :
    table.unplaced.bind id = ((table.bind id).1, (table.bind id).2.unplaced) := by
  have hinnermost : table.unplaced.innermost = table.innermost := rfl
  unfold bind
  rw [symbol?_unplaced]
  cases table.symbol? id with
  | none => rfl
  | some symbol =>
    have hname : symbol.unplaced.name = symbol.name := rfl
    have hkind : symbol.unplaced.kind = symbol.kind := rfl
    simp only [Option.map_some, hinnermost, classifyBinding_unplaced, hname, hkind]
    split
    · rfl
    · split <;> rfl

theorem reserve_unplaced (declaration : Declaration) :
    table.unplaced.reserve declaration.unplaced =
      ((table.reserve declaration).1, (table.reserve declaration).2.unplaced) := by
  simp [reserve, unplaced, Symbol.unplaced, Declaration.unplaced, depth]

theorem declare_unplaced (declaration : Declaration) :
    table.unplaced.declare declaration.unplaced =
      ((table.declare declaration).1, (table.declare declaration).2.1,
        (table.declare declaration).2.2.unplaced) := by
  simp only [declare, reserve_unplaced, bind_unplaced]

theorem closeRegion_unplaced :
    table.unplaced.closeRegion = table.closeRegion.map fun closed => (closed.1, closed.2.unplaced) := by
  unfold closeRegion unplaced
  cases table.enclosing <;> rfl

theorem addBindings_unplaced (bindings : Bindings) (ids : List SymbolId) :
    table.unplaced.addBindings bindings ids = table.addBindings bindings ids := by
  induction ids generalizing bindings with
  | nil => rfl
  | cons id ids ih =>
    simp only [addBindings, List.foldl_cons, symbol?_unplaced] at ih ⊢
    cases table.symbol? id <;> exact ih _

theorem publish_unplaced (owner : SymbolId) (members : Members) :
    table.unplaced.publish owner members = (table.publish owner members).unplaced := by
  simp only [publish, addBindings_unplaced]
  rfl

theorem publishAlias_unplaced (synonym target : SymbolId) :
    table.unplaced.publishAlias synonym target = (table.publishAlias synonym target).unplaced := by
  have hpublished : table.unplaced.published? = table.published? := rfl
  simp only [publishAlias, hpublished]
  cases table.published? target <;> rfl

theorem mark_unplaced : table.unplaced.mark = table.mark := by
  simp [mark, unplaced, depth]

theorem rollback_unplaced (mark : ScopeMark) : table.unplaced.rollback mark = (table.rollback mark).unplaced := by
  have hundone (count : Nat) : table.unplaced.undoLast count =
      (table.undoLast count).withStores (table.symbols.map Symbol.unplaced) table.nextRegion :=
    table.undoLast_withStores ..
  have hjournal : table.unplaced.journal = table.journal := rfl
  have hshrink : table.unplaced.symbols.shrink mark.symbols =
      (table.symbols.shrink mark.symbols).map Symbol.unplaced := by
    apply Array.toList_inj.mp
    simp [unplaced]
  rw [rollback_eq, rollback_eq, hjournal, hundone, hshrink]
  rfl

theorem librarySymbols_unplaced : table.unplaced.librarySymbols = table.librarySymbols := by
  refine List.filter_congr fun id _ => ?_
  rw [symbol?_unplaced]
  cases table.symbol? id <;> rfl

theorem predefined_unplaced : predefined.unplaced = predefined := by
  have hsymbols : predefined.symbols.map Symbol.unplaced = predefined.symbols := by decide +kernel
  unfold unplaced
  rw [hsymbols]

end SymbolTable

end AdaSyntax
