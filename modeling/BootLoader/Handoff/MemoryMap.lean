import BootLoader.Handoff.Error
import BootLoader.Machine.World

/-!
Getting the final memory map. First its size is asked for and a buffer is reserved, with room for
the descriptors that the reservation itself may add. Later the map is written there, and the very
next call ends the firmware's services with the key that came with it.
-/

namespace BootLoader

open Text

structure MapBuffer where
  region : Region
  descriptorSize : Nat
deriving DecidableEq

namespace MapBuffer

def capacity (b : MapBuffer) : Nat := b.region.len

/-- Descriptors to spare. -/
def margin : Nat := 20

end MapBuffer

/-- the memory map as it was when the firmware's services ended -/
structure MemoryMapInfo where
  address : Address
  capacity : Nat
  layout : MapLayout
  key : MapKey
deriving DecidableEq

/-- Whole descriptors; none if their size is zero. -/
def MemoryMapInfo.descriptorCount (m : MemoryMapInfo) : Nat :=
  m.layout.mapSize / m.layout.descriptorSize

namespace Host

variable {φ : Type} [Firmware φ]

def mapLine (level : Level) (text : String) : Line := ⟨level, "boot_handoff::memory_map", text⟩

def probeAndAllocate : Host φ FirmwareError MapBuffer := do
  match ← memoryMap .empty with
  | .filled .. => throw .probeFilled
  | .failed status => throw (.unexpectedProbe status)
  | .bufferTooSmall required descriptorSize =>
    say (mapLine .info
      s!"GetMemoryMap (probe): {required} bytes in {descriptorSize}-byte descriptors")
    let size := descriptorSize * MapBuffer.margin + required
    if Address.space ≤ size then
      throw (.allocationFailed (Address.space - 1) .badBufferSize)
    match ← allocate size with
    | .error status => throw (.allocationFailed size status)
    | .ok region =>
      say (mapLine .debug s!"Reserved {size} bytes for the memory map at {region.start.hex}")
      return ⟨region, descriptorSize⟩

def fillAndExit (buffer : MapBuffer) : Host φ FirmwareError MemoryMapInfo := do
  match ← memoryMap buffer.region with
  | .bufferTooSmall required _ => throw (.mapGrew required buffer.capacity)
  | .failed status => throw (.mapQueryFailed status)
  | .filled key layout =>
    match ← exit key with
    | .error status => throw (.exitFailed status)
    | .ok _ => return ⟨buffer.region.start, buffer.capacity, layout, key⟩

end Host

end BootLoader
