import BootLoader.Log
import BootLoader.Acpi.Error
import BootLoader.Acpi.Header

/-!
Tables. What a table says about its own length is not trusted: it is held between the size of a
header and 16 MiB, and the bytes must be there. A wrong checksum is reported, not refused.
-/

namespace BootLoader.Acpi

open Text

structure Table where
  address : Address
  header : Header
  bytes : Bytes
deriving DecidableEq

namespace Table

def body (t : Table) : Bytes := t.bytes.drop Header.size

def checksumValid (t : Table) : Bool := t.bytes.sum == 0

def checksumText (t : Table) (what : String) : String :=
  let verdict := if t.checksumValid then "valid" else "INVALID"
  s!"{what} checksum: {Hex.markedTo 2 t.header.checksum.toNat} ({verdict})"

def describe (t : Table) (what : String) : List Line :=
  let h := t.header
  [ s!"{what} address: {t.address}",
    s!"{what} signature: {h.signature}",
    s!"{what} length: {h.length}",
    s!"{what} revision: {h.revision}",
    t.checksumText what,
    s!"{what} OEM ID: {h.oemId}",
    s!"{what} OEM Table ID: {h.oemTableId}",
    s!"{what} OEM Revision: {h.oemRevision}",
    s!"{what} Creator ID: {h.creatorId}",
    s!"{what} Creator Revision: {h.creatorRevision}" ].map (⟨.info, "boot_acpi::sdt", ·⟩)

/-- A longer table is taken for corrupt. -/
def maxLength : Nat := 16 * 1024 * 1024

/-- The table at `a`: first the header, which must carry the signature that is asked for, if one
is; then as many bytes as the header says. -/
def load {μ : Type} [Mapping μ] (m : μ) (a : Address) (expected : Option TableSignature) :
    Except WalkError Table := do
  let head ← view m a Header.size
  let some header := Header.read? head | throw (.unmapped a Header.size)
  if let some expected := expected then
    if header.signature ≠ expected then throw (.badSignature a expected header.signature)
  let len := header.length.toNat
  if len < Header.size ∨ maxLength < len then throw (.badLength a header.length)
  return ⟨a, header, ← view m a len⟩

end Table

end BootLoader.Acpi
