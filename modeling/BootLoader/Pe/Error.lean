import BootLoader.Memory.Error

/-! Why an executable image is not loaded. -/

namespace BootLoader.Pe

open Text

inductive PeError where
  | badDosHeader
  | badNtHeader (offset : Nat)
  | badOptionalHeader (magic : UInt16)
  | truncated (what : String) (offset : Nat)
  | addressOverflow
  | sectionOutOfRange (index stop imageLen : Nat)
  | relocationsPresent (rva size : UInt32)
  | destination (cause : MemoryError)
deriving DecidableEq

namespace PeError

def kind : PeError → String
  | badDosHeader => "BadDosHeader"
  | badNtHeader _ => "BadNtHeader"
  | badOptionalHeader _ => "BadOptionalHeader"
  | truncated .. => "Truncated"
  | addressOverflow => "AddressOverflow"
  | sectionOutOfRange .. => "SectionOutOfRange"
  | relocationsPresent .. => "RelocationsPresent"
  | destination e => "Destination." ++ e.kind

def message : PeError → String
  | badDosHeader => "missing DOS header magic \"MZ\""
  | badNtHeader offset =>
    s!"missing NT signature \"PE\\0\\0\" at offset {Hex.marked offset}"
  | badOptionalHeader magic =>
    s!"unsupported optional header magic {Hex.markedTo 4 magic.toNat}"
  | truncated what offset => s!"{what} at offset {Hex.marked offset} lies beyond the image"
  | addressOverflow => "address arithmetic overflowed"
  | sectionOutOfRange index stop imageLen =>
    s!"section {index} raw data ends at {Hex.marked stop}, " ++
      s!"beyond the {Hex.marked imageLen}-byte image"
  | relocationsPresent rva size =>
    s!"image carries base relocations (RVA {Hex.marked rva.toNat}, " ++
      s!"{Hex.marked size.toNat} bytes)"
  | destination cause => s!"cannot place section: {cause.message}"

instance : ToString PeError := ⟨message⟩

end PeError

end BootLoader.Pe
