import AdaSyntax.Scope.Region

/-!
The symbol table: all symbols, the stack of open regions, and the contents of closed regions that stay
reachable through their owners. Every change is written into a journal, so that the table can be taken
back to any earlier mark. Numbers of regions are never given out twice, not even after that.
-/

namespace AdaSyntax

inductive Undo where
  | opened
  | closed (region : Region)
  | bound (region : RegionId) (name : Name)
  | imported (region : RegionId)
  | markedPrivate (region : RegionId) (previous : Option Nat)
  | published (owner : SymbolId) (previous : Option Contents)

structure SymbolTable where
  symbols : Array Symbol
  innermost : Region
  /-- The open regions around the innermost one, from the inside out. -/
  enclosing : List Region
  contents : List (SymbolId × Contents)
  journal : Array Undo
  /-- Without an upper limit: a counter of 32 bits gives the same numbers to the first 2^32 regions. -/
  nextRegion : Nat

inductive Declared where
  | new
  | overload
  | completion (earlier : SymbolId)
  /-- The name is taken, and the region keeps its first binding. -/
  | duplicate (existing : SymbolId)
deriving DecidableEq

structure ScopeMark where
  depth : Nat
  symbols : Nat
  journal : Nat
deriving DecidableEq, Inhabited

namespace SymbolTable

def empty : SymbolTable :=
  { symbols := #[], innermost := { id := ⟨0⟩, kind := .library, owner := none }, enclosing := []
    contents := [], journal := #[], nextRegion := 1 }

def regions (table : SymbolTable) : List Region := table.innermost :: table.enclosing

def depth (table : SymbolTable) : Nat := table.enclosing.length + 1

def library (table : SymbolTable) : Region := table.enclosing.getLastD table.innermost

def symbol? (table : SymbolTable) (id : SymbolId) : Option Symbol := table.symbols[id.index]?

def kindOf (table : SymbolTable) (id : SymbolId) : SymbolKind :=
  match table.symbol? id with
  | some symbol => symbol.kind
  | none => .unresolved

def published? (table : SymbolTable) (owner : SymbolId) : Option Contents :=
  table.contents.lookup owner

/-- Adds a symbol without making it visible; the innermost region counts as declaring it. -/
def reserve (table : SymbolTable) (declaration : Declaration) : SymbolId × SymbolTable :=
  let symbol : Symbol :=
    { declaration with region := table.innermost.id, depth := table.depth }
  (⟨table.symbols.size⟩, { table with symbols := table.symbols.push symbol })

def openRegion (table : SymbolTable) (kind : RegionKind) (owner : Option SymbolId) : SymbolTable :=
  { table with
    innermost := { id := ⟨table.nextRegion⟩, kind, owner }
    enclosing := table.innermost :: table.enclosing
    journal := table.journal.push .opened
    nextRegion := table.nextRegion + 1 }

def closeRegion (table : SymbolTable) : Option (ClosedRegion × SymbolTable) :=
  match table.enclosing with
  | [] => none
  | region :: rest =>
    some (table.innermost.close,
      { table with
        innermost := region, enclosing := rest
        journal := table.journal.push (.closed table.innermost) })

def markPrivate (table : SymbolTable) : SymbolTable :=
  let region := table.innermost
  { table with
    innermost := { region with privateStart := some region.order.length }
    journal := table.journal.push (.markedPrivate region.id region.privateStart) }

def addImport (table : SymbolTable) (package : SymbolId) (kind : ImportKind) : SymbolTable :=
  let region := table.innermost
  { table with
    innermost := { region with imports := region.imports ++ [⟨package, kind⟩] }
    journal := table.journal.push (.imported region.id) }

def setContents (owner : SymbolId) (contents : Contents) :
    List (SymbolId × Contents) → List (SymbolId × Contents)
  | [] => [(owner, contents)]
  | (key, old) :: rest =>
    if key = owner then (key, contents) :: rest else (key, old) :: setContents owner contents rest

def addBindings (table : SymbolTable) (bindings : Bindings) (ids : List SymbolId) : Bindings :=
  ids.foldl
    (fun bindings id =>
      match table.symbol? id with
      | some symbol => bindings.add symbol.name id
      | none => bindings)
    bindings

/-- Keeps the members of a region reachable through `owner`, together with what it has published. -/
def publish (table : SymbolTable) (owner : SymbolId) (members : Members) : SymbolTable :=
  let previous := table.published? owner
  let contents := previous.getD {}
  let merged : Contents :=
    { visible := table.addBindings contents.visible members.visible
      hidden := table.addBindings contents.hidden members.hidden }
  { table with
    contents := setContents owner merged table.contents
    journal := table.journal.push (.published owner previous) }

def publishCurrent (table : SymbolTable) (owner : SymbolId) : SymbolTable :=
  table.publish owner table.innermost.members

/-- Gives `synonym` the contents that `target` has at this moment, if any. -/
def publishAlias (table : SymbolTable) (synonym target : SymbolId) : SymbolTable :=
  match table.published? target with
  | none => table
  | some contents =>
    { table with
      contents := setContents synonym contents table.contents
      journal := table.journal.push (.published synonym (table.published? synonym)) }

def classifyBinding (table : SymbolTable) (kind : SymbolKind) : List SymbolId → Declared
  | [] => .new
  | first :: rest =>
    let last := rest.getLastD first
    let earlier := table.kindOf last
    if kind.isOverloadable && earlier.isOverloadable then .overload
    else if kind.completes earlier then .completion last
    else .duplicate first

/-- Makes a symbol visible in the innermost region, unless its name is taken there. A symbol that is
visible already stays so. -/
def bind (table : SymbolTable) (id : SymbolId) : Declared × SymbolTable :=
  match table.symbol? id with
  | none => (.new, table)
  | some symbol =>
    let region := table.innermost
    let ids := region.bindings.get symbol.name
    if ids.getLast? = some id then (.new, table)
    else
      match table.classifyBinding symbol.kind ids with
      | .duplicate existing => (.duplicate existing, table)
      | declared =>
        (declared,
          { table with
            innermost := region.bind symbol.name id
            journal := table.journal.push (.bound region.id symbol.name) })

def declare (table : SymbolTable) (declaration : Declaration) :
    SymbolId × Declared × SymbolTable :=
  let (id, table) := table.reserve declaration
  let (declared, table) := table.bind id
  (id, declared, table)

def mark (table : SymbolTable) : ScopeMark :=
  { depth := table.depth, symbols := table.symbols.size, journal := table.journal.size }

/-- Changes the innermost of the open regions numbered `id`. -/
def updateRegion (table : SymbolTable) (id : RegionId) (f : Region → Region) : SymbolTable :=
  if table.innermost.id = id then { table with innermost := f table.innermost }
  else { table with enclosing := go table.enclosing }
where
  go : List Region → List Region
    | [] => []
    | region :: rest => if region.id = id then f region :: rest else region :: go rest

def undo (table : SymbolTable) : Undo → SymbolTable
  | .opened =>
    match table.enclosing with
    | [] => table
    | region :: rest => { table with innermost := region, enclosing := rest }
  | .closed region =>
    { table with innermost := region, enclosing := table.innermost :: table.enclosing }
  | .bound id name => table.updateRegion id (·.unbind name)
  | .imported id =>
    table.updateRegion id fun region => { region with imports := region.imports.dropLast }
  | .markedPrivate id previous =>
    table.updateRegion id fun region => { region with privateStart := previous }
  | .published owner (some contents) =>
    { table with contents := setContents owner contents table.contents }
  | .published owner none =>
    { table with contents := table.contents.filter (·.1 ≠ owner) }

def undoLast (table : SymbolTable) : Nat → SymbolTable
  | 0 => table
  | count + 1 =>
    match table.journal.back? with
    | none => table
    | some change =>
      ({ table with journal := table.journal.pop }.undo change).undoLast count

/-- Takes back everything done since the mark. The depth of the mark is for a check alone that release
builds leave out, and so is it here: a mark that is not one of this table is not found out. -/
def rollback (table : SymbolTable) (mark : ScopeMark) : SymbolTable :=
  let table := table.undoLast (table.journal.size - mark.journal)
  { table with symbols := table.symbols.shrink mark.symbols }

def librarySymbols (table : SymbolTable) : List SymbolId :=
  table.library.order.filter fun id =>
    match table.symbol? id with
    | some symbol => !symbol.isPredefined
    | none => false

def within (table : SymbolTable) (kind : RegionKind) (owner : Option SymbolId) : Bool :=
  table.regions.any fun region => region.kind = kind && (owner.isNone || region.owner = owner)

/-- Whether a loop, owned by `label` if one is given, encloses the current place in its own body. -/
def enclosingLoop (table : SymbolTable) (label : Option SymbolId) : Bool :=
  go table.regions
where
  go : List Region → Bool
    | [] => false
    | region :: rest =>
      if region.kind = .loop && (label.isNone || region.owner = label) then true
      else if region.kind.isBody then false
      else go rest

end SymbolTable

end AdaSyntax
