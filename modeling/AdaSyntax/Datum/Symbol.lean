import AdaSyntax.Datum.Diagnostic
import AdaSyntax.Name
import AdaSyntax.Scope.Lookup

/-!
Symbols, regions and what they hold, as data. A symbol's kind is written as messages name it.
-/

namespace AdaSyntax

instance : ToDatum NodeId := ⟨(·.index)⟩

instance : OfDatum NodeId := ⟨fun datum => NodeId.mk <$> ofDatum? datum⟩

instance : ToDatum SymbolId := ⟨(·.index)⟩

instance : OfDatum SymbolId := ⟨fun datum => SymbolId.mk <$> ofDatum? datum⟩

instance : ToDatum RegionId := ⟨(·.index)⟩

instance : ToDatum Name := ⟨(·.text)⟩

instance : OfDatum Name := ⟨fun datum => Name.verbatim <$> ofDatum? datum⟩

instance : ToDatum (DefiningName Range) where
  toDatum defining := .record [("name", defining.name), ("range", defining.place)]

instance : OfDatum (DefiningName Range) where
  ofDatum? datum := return ⟨← datum.field "name", ← datum.field "range"⟩

namespace TypeShape

def toDatum : TypeShape → Datum
  | enumeration => "Enumeration"
  | integer => "Integer"
  | real => "Real"
  | unknown => "Unknown"
  | array constrained => .case "Array" [("constrained", constrained)]
  | record discriminated => .case "Record" [("discriminated", discriminated)]
  | privateType discriminated => .case "Private" [("discriminated", discriminated)]
  | incomplete discriminated => .case "Incomplete" [("discriminated", discriminated)]
  | access designated => .case "Access" [("designated", designated.toDatum)]

def ofDatum? : Datum → Option TypeShape
  | .text "Enumeration" => some .enumeration
  | .text "Integer" => some .integer
  | .text "Real" => some .real
  | .text "Unknown" => some .unknown
  | .record [("Array", .record [("constrained", .flag constrained)])] => some (.array constrained)
  | .record [("Record", .record [("discriminated", .flag discriminated)])] =>
    some (.record discriminated)
  | .record [("Private", .record [("discriminated", .flag discriminated)])] =>
    some (.privateType discriminated)
  | .record [("Incomplete", .record [("discriminated", .flag discriminated)])] =>
    some (.incomplete discriminated)
  | .record [("Access", .record [("designated", designated)])] => access <$> ofDatum? designated
  | _ => none

end TypeShape

instance : ToDatum TypeShape := ⟨TypeShape.toDatum⟩

instance : OfDatum TypeShape := ⟨TypeShape.ofDatum?⟩

instance : ToDatum Resolution where
  toDatum resolution := .record [("symbol", resolution.symbol), ("kind", resolution.kind.text)]

def Symbol.numbered (symbol : Symbol) (id : SymbolId) : Datum :=
  .record [("id", id), ("name", symbol.name), ("kind", symbol.kind.text), ("node", symbol.node),
    ("range", symbol.range), ("region", symbol.region), ("depth", symbol.depth),
    ("shape", symbol.shape)]

instance : OfDatum Declaration where
  ofDatum? datum := do
    let text : String ← datum.field "name"
    let verbatim ← datum.fieldD "verbatim" false
    return {
      name := if verbatim then .verbatim text else .ofText text
      kind := ← datum.field "kind"
      node := ← datum.field "node"
      range := ← datum.fieldD "range" (.empty 0)
      shape := ← datum.field "shape" }

def Bindings.toDatum (bindings : Bindings) : Datum :=
  .list (bindings.map fun (name, ids) => .list [name, ids])

instance : ToDatum Contents where
  toDatum contents :=
    .record [("visible", contents.visible.toDatum), ("private", contents.hidden.toDatum)]

instance : ToDatum Import where
  toDatum entry := .list [entry.package, entry.kind]

instance : ToDatum Region where
  toDatum region :=
    .record [("id", region.id), ("kind", region.kind), ("owner", region.owner),
      ("entries", region.bindings.toDatum), ("order", region.order), ("imports", region.imports),
      ("private_start", region.privateStart)]

instance : ToDatum ClosedRegion where
  toDatum region :=
    .record [("id", region.id), ("kind", region.kind), ("owner", region.owner),
      ("visible", region.visible), ("private", region.hidden), ("symbols", region.all)]

instance : ToDatum Declared where
  toDatum
    | .new => "New"
    | .overload => "Overload"
    | .completion earlier => .wrap "Completion" earlier
    | .duplicate existing => .wrap "Duplicate" existing

namespace SymbolTable

def numberedSymbols (table : SymbolTable) : List (SymbolId × Symbol) :=
  table.symbols.toList.zipIdx.map fun (symbol, index) => (⟨index⟩, symbol)

def sourceSymbols (table : SymbolTable) : List (SymbolId × Symbol) :=
  table.numberedSymbols.filter (!·.2.isPredefined)

def sourceContents (table : SymbolTable) : List (SymbolId × Contents) :=
  table.sourceSymbols.filterMap fun (id, _) => (table.published? id).map fun found => (id, found)

end SymbolTable

end AdaSyntax
