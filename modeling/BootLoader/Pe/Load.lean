import BootLoader.Memory.Mapping
import BootLoader.Pe.Image
import BootLoader.Task

/-!
Putting an image into memory, section after section in table order. The first section that cannot
be placed ends it: neither it nor any later one leaves a byte, and the earlier ones stay.
-/

namespace BootLoader.Pe

open Text

structure Loaded where
  entry : Address
  imageBase : UInt64
  base : Address
  kind : ImageKind
  sections : Nat
  bytesCopied : Nat
deriving DecidableEq

def Section.placement (image : Bytes) (base : Address) (s : Section) :
    Except PeError (Address × Bytes) := do
  let h := s.header
  let some raw := image.slice? h.rawPointer.toNat h.rawSize.toNat
    | throw (.sectionOutOfRange s.index (h.rawPointer.toNat + h.rawSize.toNat) image.size)
  let some dest := base.plus? h.virtualAddress.toNat | throw .addressOverflow
  return (dest, raw)

def loadLine (level : Level) (text : String) : Line := ⟨level, "boot_pe::loader", text⟩

def Section.describe (s : Section) (dest : Address) : Line :=
  let h := s.header
  let start := h.rawPointer.toNat
  let stop := start + h.rawSize.toNat
  loadLine .debug (s!"section {s.index} {h.renderName} [{h.renderFlags}] " ++
    s!"vsize {Hex.marked h.virtualSize.toNat} vaddr {Hex.marked h.virtualAddress.toNat} " ++
    s!"raw {Hex.marked h.rawSize.toNat} bytes [{Hex.marked start}..{Hex.marked stop}) -> {dest}")

def Image.describe (i : Image) : Line :=
  let kind := match i.kind with
    | .pe32 => "32"
    | .pe32Plus => "32+"
  loadLine .debug (s!"PE{kind} image: {i.sectionCount} sections, " ++
    s!"entry RVA {Hex.marked i.entryRva.toNat}, image base {Hex.marked i.imageBase.toNat}, " ++
    s!"machine {Hex.markedTo 4 i.header.machine.toNat}")

def Loaded.describe (l : Loaded) : Line :=
  loadLine .info
    s!"Loaded {l.sections} sections ({l.bytesCopied} bytes) at {l.base}, entry {l.entry}"

variable {μ : Type} [Mapping μ]

/-- One section into memory; how many bytes that was. -/
def placeSection (image : Bytes) (base : Address) (s : Section) : Task μ PeError Nat := do
  let (dest, raw) ← s.placement image base
  .say (s.describe dest)
  .update .destination fun m => Mapping.copy m dest raw
  return raw.size

/-- The sections at the given places of the table; `copied` bytes came before. -/
def placeAll (image : Image) (base : Address) (copied : Nat) : List Nat → Task μ PeError Nat
  | [] => return copied
  | n :: ns => do
    let s ← image.sectionAt n
    let len ← placeSection image.bytes base s
    placeAll image base (copied + len) ns

def load (bs : Bytes) (base : Address) : Task μ PeError Loaded := do
  let image ← Image.parse bs
  let some entry := base.plus? image.entryRva.toNat | .fail .addressOverflow
  .say image.describe
  let bytesCopied ← placeAll image base 0 image.indices
  let loaded : Loaded := {
    entry, imageBase := image.imageBase, base, kind := image.kind
    sections := image.sectionCount, bytesCopied }
  .say loaded.describe
  return loaded

end BootLoader.Pe
