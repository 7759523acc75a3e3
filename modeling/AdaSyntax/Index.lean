/-!
Numbers of nodes, symbols and regions. Each is meaningful only in the store that gave it out. They have no
upper limit; numbers of 32 bits are the same as long as no store gives out more than 2^32 of them.
-/

namespace AdaSyntax

structure NodeId where
  index : Nat
deriving DecidableEq, Inhabited

structure SymbolId where
  index : Nat
deriving DecidableEq, Inhabited

structure RegionId where
  index : Nat
deriving DecidableEq, Inhabited

end AdaSyntax
