import AdaSyntax.Scope.Table

/-!
Resolution of names, and the predefined environment. A direct name is searched from the innermost region
outward, and then among the packages named in use clauses; the selector of an expanded name is searched in
its owner. What package STANDARD declares, and the package itself, may be there from the beginning.
-/

namespace AdaSyntax

structure Resolution where
  symbol : Option SymbolId
  kind : SymbolKind
deriving DecidableEq, Inhabited

def Resolution.unresolved : Resolution := ⟨none, .unresolved⟩

namespace SymbolTable

def resolution (table : SymbolTable) : Option SymbolId → Resolution
  | some id => ⟨some id, table.kindOf id⟩
  | none => .unresolved

/-- Labels, and objects of a subprogram, block or loop, are hidden from inside a type declaration. -/
def hides (table : SymbolTable) (region : Region) (id : SymbolId) : Bool :=
  let kind := table.kindOf id
  kind = .label || (kind.isObject && region.kind.hidesObjects)

def lookupIn (table : SymbolTable) (region : Region) (name : Name) (restricted : Bool) :
    Option SymbolId :=
  let ids := region.bindings.get name
  if restricted then ids.reverse.find? (!table.hides region ·) else ids.getLast?

def lookupPublished (table : SymbolTable) (owner : SymbolId) (name : Name) (withHidden : Bool) :
    Option SymbolId :=
  (table.published? owner).bind (·.get? name withHidden)

def lookupImports (table : SymbolTable) (region : Region) (name : Name) (kind : ImportKind) :
    Option SymbolId :=
  (region.imports.filter (·.kind = kind)).findSome?
    (table.lookupPublished ·.package name (kind = .body))

/-- Search from the inside out. Outside of the innermost type declaration the search is restricted if
`interior` says that it starts inside of one. -/
def lookupDirect (table : SymbolTable) (name : Name) (interior restricted : Bool) :
    List Region → Option SymbolId
  | [] => none
  | region :: rest =>
    match table.lookupIn region name restricted with
    | some id => some id
    | none =>
      match table.lookupImports region name .body with
      | some id => some id
      | none =>
        let restricted := restricted || (interior && region.kind = .typeDeclaration)
        table.lookupDirect name interior restricted rest

def resolve (table : SymbolTable) (name : Name) : Resolution :=
  match table.lookupDirect name table.innermost.kind.isTypeInterior false table.regions with
  | some id => table.resolution (some id)
  | none => table.resolution (table.regions.findSome? (table.lookupImports · name .use))

def resolveLocal (table : SymbolTable) (name : Name) : Resolution :=
  table.resolution (table.innermost.bindings.get name).getLast?

/-- Resolution of a selector. Inside the owner its open regions are searched first, and its private
declarations are visible. -/
def resolveMember (table : SymbolTable) (owner : SymbolId) (name : Name) : Resolution :=
  let inside := table.regions.filter (·.owner = some owner)
  match inside.findSome? fun region => (region.bindings.get name).getLast? with
  | some id => table.resolution (some id)
  | none => table.resolution (table.lookupPublished owner name !inside.isEmpty)

end SymbolTable

/-! The predefined environment -/

namespace Predefined

def types : List (String × TypeShape) :=
  [("BOOLEAN", .enumeration), ("INTEGER", .integer), ("LONG_INTEGER", .integer), ("FLOAT", .real),
    ("LONG_FLOAT", .real), ("CHARACTER", .enumeration), ("DURATION", .real),
    ("STRING", .array false)]

def subtypes : List (String × TypeShape) :=
  [("NATURAL", .integer), ("POSITIVE", .integer)]

def literals : List String := ["FALSE", "TRUE"]

def exceptions : List String :=
  ["CONSTRAINT_ERROR", "NUMERIC_ERROR", "PROGRAM_ERROR", "STORAGE_ERROR", "TASKING_ERROR"]

def operators : List String :=
  ["AND", "OR", "XOR", "=", "/=", "<", "<=", ">", ">=", "+", "-", "&", "*", "/", "MOD", "REM", "**",
    "ABS", "NOT"]

def declarations : List Declaration :=
  types.map (fun (name, shape) => { name := ⟨name⟩, kind := .type, shape := some shape }) ++
  subtypes.map (fun (name, shape) => { name := ⟨name⟩, kind := .subtype, shape := some shape }) ++
  literals.map (fun name => { name := ⟨name⟩, kind := .enumerationLiteral }) ++
  exceptions.map (fun name => { name := ⟨name⟩, kind := .exception }) ++
  operators.map fun name => { name := ⟨"\"" ++ name ++ "\""⟩, kind := .function }

end Predefined

namespace SymbolTable

def addPredefined (table : SymbolTable) : SymbolId × SymbolTable :=
  let table := Predefined.declarations.foldl (fun table entity => (table.declare entity).2.2) table
  let (standard, _, table) := table.declare { name := ⟨"STANDARD"⟩, kind := .package }
  (standard, table.publishCurrent standard)

def predefined : SymbolTable := empty.addPredefined.2

end SymbolTable

end AdaSyntax
