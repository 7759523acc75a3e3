import AdaSyntax.Symbol.Basic

/-!
Declarative regions and what is bound in them. A name may have several bindings in one region; the
last one is visible.
-/

namespace AdaSyntax

/-- Names with their bindings, the names in order of first binding and the bindings in order. -/
abbrev Bindings := List (Name × List SymbolId)

namespace Bindings

def get (bindings : Bindings) (name : Name) : List SymbolId :=
  (bindings.lookup name).getD []

def add (bindings : Bindings) (name : Name) (id : SymbolId) : Bindings :=
  match bindings with
  | [] => [(name, [id])]
  | (key, ids) :: rest =>
    if key = name then (key, ids ++ [id]) :: rest else (key, ids) :: add rest name id

/-- Takes back the last binding of `name`; a name without bindings is dropped. -/
def removeLast (bindings : Bindings) (name : Name) : Bindings :=
  match bindings with
  | [] => []
  | (key, ids) :: rest =>
    if key = name then
      if ids.dropLast.isEmpty then rest else (key, ids.dropLast) :: rest
    else (key, ids) :: removeLast rest name

end Bindings

inductive RegionKind where
  /-- The outermost region: predefined environment and library units. -/
  | library
  /-- The context clauses of one compilation unit. -/
  | context
  | package | packageBody | subprogram | block | loop | typeDeclaration | discriminantPart | record
  | genericFormal
deriving DecidableEq, Inhabited

namespace RegionKind

/-- Regions whose objects are not seen from inside a type declared in them. -/
def hidesObjects : RegionKind → Bool
  | subprogram | block | loop => true
  | _ => false

def isTypeInterior : RegionKind → Bool
  | record | discriminantPart => true
  | _ => false

/-- Regions that an exit statement cannot leave. -/
def isBody : RegionKind → Bool
  | subprogram | package | packageBody | library => true
  | _ => false

end RegionKind

inductive ImportKind where
  /-- The visible declarations of a package named in a use clause. -/
  | use
  /-- All declarations of the specification that a body completes. -/
  | body
deriving DecidableEq, Inhabited

structure Import where
  package : SymbolId
  kind : ImportKind
deriving DecidableEq, Inhabited

structure Region where
  id : RegionId
  kind : RegionKind
  owner : Option SymbolId
  bindings : Bindings := []
  /-- All bound symbols, in order of binding. -/
  order : List SymbolId := []
  imports : List Import := []
  /-- How many symbols were bound before the private part. -/
  privateStart : Option Nat := none
deriving DecidableEq, Inhabited

structure Members where
  visible : List SymbolId := []
  hidden : List SymbolId := []
deriving DecidableEq, Inhabited

namespace Members

def all (members : Members) : List SymbolId := members.visible ++ members.hidden

def withoutVisible (members : Members) (id : SymbolId) : Members :=
  { members with visible := members.visible.filter (· ≠ id) }

end Members

structure ClosedRegion extends Members where
  id : RegionId
  kind : RegionKind
  owner : Option SymbolId
deriving DecidableEq, Inhabited

namespace Region

def visibleCount (region : Region) : Nat := region.privateStart.getD region.order.length

def members (region : Region) : Members :=
  { visible := region.order.take region.visibleCount
    hidden := region.order.drop region.visibleCount }

def close (region : Region) : ClosedRegion :=
  { region.members with id := region.id, kind := region.kind, owner := region.owner }

def bind (region : Region) (name : Name) (id : SymbolId) : Region :=
  { region with bindings := region.bindings.add name id, order := region.order ++ [id] }

def unbind (region : Region) (name : Name) : Region :=
  { region with bindings := region.bindings.removeLast name, order := region.order.dropLast }

end Region

/-- The declarations of a closed region, as they stay reachable through its owner. -/
structure Contents where
  visible : Bindings := []
  hidden : Bindings := []
deriving DecidableEq, Inhabited

namespace Contents

/-- The visible binding of `name`; the private part, where it counts, wins. -/
def get? (contents : Contents) (name : Name) (withHidden : Bool) : Option SymbolId :=
  match withHidden, (contents.hidden.get name).getLast? with
  | true, some id => some id
  | _, _ => (contents.visible.get name).getLast?

end Contents

end AdaSyntax
