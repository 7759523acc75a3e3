/-!
Byte ranges of a source text, closed on the left and open on the right. Offsets have no upper limit;
offsets of 32 bits are the same in every text of less than 4 GiB, and there are no tokens of a larger one.
-/

namespace AdaSyntax

structure Range where
  start : Nat
  stop : Nat
  start_le_stop : start ≤ stop := by omega
deriving DecidableEq

namespace Range

def empty (offset : Nat) : Range := { start := offset, stop := offset }

def ofLength (start length : Nat) : Range := { start, stop := start + length }

/-- From `start` to `stop`, and empty at `start` when `stop` lies before it. -/
def upTo (start stop : Nat) : Range :=
  { start, stop := max start stop, start_le_stop := Nat.le_max_left start stop }

def contains (outer inner : Range) : Bool :=
  outer.start ≤ inner.start && inner.stop ≤ outer.stop

end Range

instance : Inhabited Range := ⟨.empty 0⟩

end AdaSyntax
