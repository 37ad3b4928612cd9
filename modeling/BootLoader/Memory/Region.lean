import BootLoader.Memory.Address

/-!
Half-open ranges of physical memory. The end of a range is cut off at the last address, so no
range wraps.
-/

namespace BootLoader

structure Region where
  start : Address
  len : Nat
deriving DecidableEq, Inhabited

namespace Region

def ofNat (start len : Nat) : Region := ⟨.ofNat start, len⟩

def empty : Region := ⟨.zero, 0⟩

def isEmpty (r : Region) : Bool := r.len == 0

/-- The end as a number: the first address after the range, at most the last address there is. -/
def limit (r : Region) : Nat := min (r.start.toNat + r.len) (Address.space - 1)

def stop (r : Region) : Address := .ofNat r.limit

/-- Whether two ranges meet; an empty one meets nothing. -/
def overlaps (a b : Region) : Bool :=
  !a.isEmpty && !b.isEmpty && a.start.toNat < b.limit && b.start.toNat < a.limit

def contains (r : Region) (a : Address) : Bool :=
  r.start.toNat ≤ a.toNat && a.toNat < r.limit

def render (r : Region) : String := s!"[{r.start}, {r.stop})"

def inspect (r : Region) : String :=
  s!"MemoryRegion \x7b start: {r.start.inspect}, len: {r.len} \x7d"

instance : ToString Region := ⟨render⟩

end Region

end BootLoader
