import BootLoader.Acpi.Signature

/-! The 36 bytes that every table starts with. -/

namespace BootLoader.Acpi

structure Header where
  signature : TableSignature
  /-- of the whole table, header included -/
  length : UInt32
  revision : UInt8
  checksum : UInt8
  oemId : Signature 6
  oemTableId : Signature 8
  oemRevision : UInt32
  creatorId : Signature 4
  creatorRevision : UInt32
deriving DecidableEq

namespace Header

def size : Nat := 36

def read? (bs : Bytes) : Option Header := do
  let d ← bs.slice? 0 size
  return {
    signature := ← Signature.read? d 0
    length := ← d.u32At? 4
    revision := ← d.get? 8
    checksum := ← d.get? 9
    oemId := ← Signature.read? d 10
    oemTableId := ← Signature.read? d 16
    oemRevision := ← d.u32At? 24
    creatorId := ← Signature.read? d 28
    creatorRevision := ← d.u32At? 32 }

end Header

end BootLoader.Acpi
