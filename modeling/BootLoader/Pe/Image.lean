import BootLoader.Pe.Error
import BootLoader.Pe.Header

/-!
The chain of headers that leads to the section table. Offsets are plain numbers: all of them are
sums of a 32-bit and a few 16-bit fields of the file, so none comes near the end of the address
space.
-/

namespace BootLoader.Pe

inductive ImageKind where
  | pe32 | pe32Plus
deriving DecidableEq

namespace ImageKind

def inspect : ImageKind → String
  | pe32 => "Pe32"
  | pe32Plus => "Pe32Plus"

def ofMagic? (magic : UInt16) : Option ImageKind :=
  if magic = 0x10B then some pe32
  else if magic = 0x20B then some pe32Plus
  else none

def directoryCountOffset : ImageKind → Nat
  | pe32 => 92
  | pe32Plus => 108

def directoriesOffset : ImageKind → Nat
  | pe32 => 96
  | pe32Plus => 112

def imageBase? (k : ImageKind) (optional : Bytes) : Option UInt64 :=
  match k with
  | pe32 => (optional.u32At? 28).map (·.toUInt64)
  | pe32Plus => optional.u64At? 24

end ImageKind

/-- an image whose headers hold together -/
structure Image where
  bytes : Bytes
  header : FileHeader
  kind : ImageKind
  entryRva : UInt32
  /-- told, never used: nothing is moved to another base -/
  imageBase : UInt64
  /-- where the section table starts -/
  sectionTable : Nat

structure Section where
  index : Nat
  header : SectionHeader

/-- How far a section reaches from the load base, at the larger of its two sizes. -/
def Section.reach (s : Section) : Nat :=
  s.header.virtualAddress.toNat + max s.header.virtualSize.toNat s.header.rawSize.toNat

namespace Image

/-- `MZ` -/
def dosMagic : UInt16 := 0x5A4D

def signaturePointer : Nat := 0x3C

/-- `PE` and two zeroes -/
def ntSignature : UInt32 := 0x4550

def entryOffset : Nat := 16

def relocationDirectory : Nat := 5

/-- Address and size of the base relocations. An optional header that is too short for the
directory, or counts too few directories to have it, has none. -/
def relocations? (kind : ImageKind) (optional : Bytes) : Option (UInt32 × UInt32) := do
  let count ← optional.u32At? kind.directoryCountOffset
  if count.toNat ≤ relocationDirectory then none
  let at_ := kind.directoriesOffset + relocationDirectory * 8
  return (← optional.u32At? at_, ← optional.u32At? (at_ + 4))

/-- An image that would have to be relocated is refused. -/
def refuseRelocations (kind : ImageKind) (optional : Bytes) : Except PeError Unit :=
  match relocations? kind optional with
  | some (rva, size) => if size = 0 then .ok () else .error (.relocationsPresent rva size)
  | none => .ok ()

def parseOptional (bs optional : Bytes) (header : FileHeader) (off : Nat) : Except PeError Image := do
  let truncated := PeError.truncated "optional header" off
  let some magic := optional.u16At? 0 | throw truncated
  let some kind := ImageKind.ofMagic? magic | throw (.badOptionalHeader magic)
  let some entryRva := optional.u32At? entryOffset | throw truncated
  let some imageBase := kind.imageBase? optional | throw truncated
  refuseRelocations kind optional
  return {
    bytes := bs, header, kind, entryRva, imageBase
    sectionTable := off + header.optionalSize.toNat }

def parse (bs : Bytes) : Except PeError Image := do
  if bs.u16At? 0 ≠ some dosMagic then throw .badDosHeader
  let some nt := bs.u32At? signaturePointer | throw (.truncated "DOS header" 0)
  let ntAt := nt.toNat
  if bs.u32At? ntAt ≠ some ntSignature then throw (.badNtHeader ntAt)
  let headerAt := ntAt + 4
  let some header := FileHeader.read? bs headerAt | throw (.truncated "file header" headerAt)
  let optionalAt := headerAt + FileHeader.size
  let some optional := bs.slice? optionalAt header.optionalSize.toNat
    | throw (.truncated "optional header" optionalAt)
  parseOptional bs optional header optionalAt

def sectionCount (i : Image) : Nat := i.header.sectionCount.toNat

def indices (i : Image) : List Nat := List.range i.sectionCount

def sectionAt (i : Image) (index : Nat) : Except PeError Section :=
  let off := i.sectionTable + index * SectionHeader.size
  match SectionHeader.read? i.bytes off with
  | some header => .ok ⟨index, header⟩
  | none => .error (.truncated "section header" off)

/-- The records that are there. Those after one that is not there are not there either. -/
def readable (i : Image) : List Section := i.indices.filterMap fun n => (i.sectionAt n).toOption

/-- Bytes from the load base to the end of the section that reaches furthest. -/
def footprint (i : Image) : Nat := i.readable.foldl (fun n s => max n s.reach) 0

end Image

end BootLoader.Pe
