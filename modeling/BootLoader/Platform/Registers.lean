import BootLoader.BitField
import BootLoader.Memory.Address

/-! Hardware registers that the platforms know by address or by bits. -/

namespace BootLoader

namespace Pl011

def base : Address := .ofNat 0x9000000

def flags : WordLayout where
  bits := 32
  fields := [
    .flag "cts" 0,
    .flag "dsr" 1,
    .flag "dcd" 2,
    .flag "busy" 3,
    .flag "rxfe" 4,
    .flag "txff" 5,
    .flag "rxff" 6,
    .flag "txfe" 7,
    .flag "ri" 8 ]

end Pl011

namespace Ns16550

def base : Address := .ofNat 0x1FE001E0

end Ns16550

namespace DirectMapWindow

def plv0 : BitField := .flag "plv0" 0

/-- memory access type: 0 uncached, 1 cached -/
def accessType : BitField := ⟨"mat", 4, 2⟩

def virtualSegment : BitField := ⟨"vseg", 60, 4⟩

def layout : WordLayout where
  bits := 64
  fields := [
    plv0, .flag "plv1" 1, .flag "plv2" 2, .flag "plv3" 3, accessType, virtualSegment ]

/-- A window for the highest privilege. -/
def window (mat segment : Nat) : Nat :=
  1 <<< plv0.offset + mat <<< accessType.offset + segment <<< virtualSegment.offset

/-- The uncached window, for devices. -/
def uncached : Nat := window 0 8

/-- The cached window, for memory. -/
def cached : Nat := window 1 9

def segmentBits : UInt64 := 0xF000000000000000

end DirectMapWindow

end BootLoader
