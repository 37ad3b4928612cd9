import BootLoader.BitField
import BootLoader.Bytes

/-! Records of an executable image as they lie in the file, all numbers little-endian. -/

namespace BootLoader.Pe

structure FileHeader where
  machine : UInt16
  sectionCount : UInt16
  timestamp : UInt32
  symbolPointer : UInt32
  symbolCount : UInt32
  optionalSize : UInt16
  characteristics : UInt16
deriving DecidableEq

namespace FileHeader

def size : Nat := 20

def read? (bs : Bytes) (off : Nat) : Option FileHeader := do
  let d ← bs.slice? off size
  return {
    machine := ← d.u16At? 0
    sectionCount := ← d.u16At? 2
    timestamp := ← d.u32At? 4
    symbolPointer := ← d.u32At? 8
    symbolCount := ← d.u32At? 12
    optionalSize := ← d.u16At? 16
    characteristics := ← d.u16At? 18 }

end FileHeader

def fileCharacteristics : WordLayout where
  bits := 16
  fields := [
    .flag "relocs_stripped" 0,
    .flag "executable_image" 1,
    .flag "line_nums_stripped" 2,
    .flag "local_syms_stripped" 3,
    .flag "aggressive_ws_trim" 4,
    .flag "large_address_aware" 5,
    .flag "bytes_reversed_lo" 7,
    .flag "machine_32bit" 8,
    .flag "debug_stripped" 9,
    .flag "removable_run_from_swap" 10,
    .flag "net_run_from_swap" 11,
    .flag "system" 12,
    .flag "dll" 13,
    .flag "up_system_only" 14,
    .flag "bytes_reversed_hi" 15 ]

namespace SectionFlag

def execute : BitField := .flag "execute" 29

def read : BitField := .flag "read" 30

def write : BitField := .flag "write" 31

end SectionFlag

def sectionFlags : WordLayout where
  bits := 32
  fields := [
    .flag "code" 5,
    .flag "initialized_data" 6,
    .flag "uninitialized_data" 7,
    .flag "discardable" 25,
    SectionFlag.execute,
    SectionFlag.read,
    SectionFlag.write ]

/-- Three letters for reading, writing and running, a dash where the bit is clear. -/
def renderFlags (word : Nat) : String :=
  let letter (f : BitField) (c : Char) := if f.isSet word then c else '-'
  String.ofList
    [letter SectionFlag.read 'r', letter SectionFlag.write 'w', letter SectionFlag.execute 'x']

structure SectionHeader where
  name : List UInt8
  virtualSize : UInt32
  virtualAddress : UInt32
  rawSize : UInt32
  rawPointer : UInt32
  relocationPointer : UInt32
  linenumberPointer : UInt32
  relocationCount : UInt16
  linenumberCount : UInt16
  characteristics : UInt32
deriving DecidableEq

namespace SectionHeader

def size : Nat := 40

def read? (bs : Bytes) (off : Nat) : Option SectionHeader := do
  let d ← bs.slice? off size
  return {
    name := d.listFrom 0 8
    virtualSize := ← d.u32At? 8
    virtualAddress := ← d.u32At? 12
    rawSize := ← d.u32At? 16
    rawPointer := ← d.u32At? 20
    relocationPointer := ← d.u32At? 24
    linenumberPointer := ← d.u32At? 28
    relocationCount := ← d.u16At? 32
    linenumberCount := ← d.u16At? 34
    characteristics := ← d.u32At? 36 }

/-- Exclamation mark to tilde, the characters that leave a mark. -/
def isGraphic (b : UInt8) : Bool := 0x21 ≤ b && b ≤ 0x7E

/-- The name up to the first zero; what leaves no mark becomes a question mark. -/
def renderName (h : SectionHeader) : String :=
  String.ofList ((h.name.takeWhile (· != 0)).map fun b =>
    if isGraphic b then Char.ofNat b.toNat else '?')

def renderFlags (h : SectionHeader) : String := Pe.renderFlags h.characteristics.toNat

end SectionHeader

end BootLoader.Pe
