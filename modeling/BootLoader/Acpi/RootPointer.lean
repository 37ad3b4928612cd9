import BootLoader.Log
import BootLoader.Acpi.ConfigEntry
import BootLoader.Acpi.Error

/-!
The root pointer. Unlike a table, a root pointer with a wrong checksum is refused: the first
checksum covers the 20 bytes that every revision has, the second everything that a revision from
2 on says it has.
-/

namespace BootLoader.Acpi

structure RootPointer where
  address : Address
  revision : UInt8
  oemId : Signature 6
  rsdt : UInt32
  /-- there from revision 2 on -/
  xsdt : Option UInt64
deriving DecidableEq

namespace RootPointer

def shortSize : Nat := 20

/-- Least size from revision 2 on. -/
def longSize : Nat := 36

def maxSize : Nat := 4096

def usesXsdt (r : RootPointer) : Bool := 2 ≤ r.revision

variable {μ : Type} [Mapping μ]

def parseShort (m : μ) (a : Address) : Except WalkError RootPointer := do
  let bs ← view m a shortSize
  let truncated := WalkError.unmapped a shortSize
  let some found := Signature.read? bs 0 | throw truncated
  if found ≠ Signature.rootPointer then throw (.badRootSignature a found)
  if bs.sum ≠ 0 then throw (.badChecksum "RSDP" a)
  let some revision := bs.get? 15 | throw truncated
  let some oemId := Signature.read? bs 9 | throw truncated
  let some rsdt := bs.u32At? 16 | throw truncated
  return ⟨a, revision, oemId, rsdt, none⟩

def parseLong (m : μ) (a : Address) : Except WalkError (Option UInt64) := do
  let head ← view m a longSize
  let length := (head.u32At? 20).getD 0
  if length.toNat < longSize ∨ maxSize < length.toNat then throw (.badLength a length)
  let bs ← view m a length.toNat
  if bs.sum ≠ 0 then throw (.badChecksum "XSDP" a)
  return head.u64At? 24

def parse (m : μ) (a : Address) : Except WalkError RootPointer := do
  let root ← parseShort m a
  if root.usesXsdt then
    return { root with xsdt := ← parseLong m a }
  else return root

def locate (m : μ) (entries : List ConfigEntry) : Logged WalkError RootPointer := do
  let some entry := ConfigEntry.root? entries | throw .noRootPointer
  let version := if entry.kind = .acpi2 then 2 else 1
  .say ⟨.info, "boot_acpi::rsdp",
    s!"ACPI table found, version={version}, address: {entry.address}"⟩
  parse m entry.address

end RootPointer

end BootLoader.Acpi
