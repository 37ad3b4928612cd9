import BootLoader.Memory.Address

/-! What can go wrong with an access to physical memory. -/

namespace BootLoader

open Text

inductive MemoryError where
  | unmapped (address : Address) (len : Nat)
  | mismatch (address : Address) (expected found : UInt8)
deriving DecidableEq

namespace MemoryError

def kind : MemoryError → String
  | unmapped .. => "Unmapped"
  | mismatch .. => "Mismatch"

def message : MemoryError → String
  | unmapped address len => s!"physical range {address} (+{Hex.marked len}) is not mapped"
  | mismatch address expected found =>
    s!"expected {Hex.markedTo 2 expected.toNat} at {address}, found {Hex.markedTo 2 found.toNat}"

end MemoryError

end BootLoader
