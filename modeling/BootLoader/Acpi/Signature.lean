import BootLoader.Bytes

/-! Names of fixed width, as firmware tables carry them. -/

namespace BootLoader.Acpi

structure Signature (n : Nat) where
  bytes : List UInt8
  width : bytes.length = n
deriving DecidableEq

/-- the four bytes that say what a table is -/
abbrev TableSignature := Signature 4

namespace Signature

def read? {n : Nat} (bs : Bytes) (off : Nat) : Option (Signature n) :=
  if off + n ≤ bs.size then some ⟨bs.listFrom off n, bs.length_listFrom off n⟩ else none

def blank (n : Nat) : Signature n := ⟨List.replicate n 0, by simp⟩

/-- Space to tilde, the characters that leave a mark or a gap. -/
def isPrintable (b : UInt8) : Bool := 0x20 ≤ b && b ≤ 0x7E

/-- What cannot be printed becomes a question mark. -/
def render {n : Nat} (s : Signature n) : String :=
  String.ofList (s.bytes.map fun b => if isPrintable b then Char.ofNat b.toNat else '?')

def inspect {n : Nat} (s : Signature n) : String := "\"" ++ s.render ++ "\""

instance {n : Nat} : ToString (Signature n) := ⟨render⟩

/-- `RSD PTR ` -/
def rootPointer : Signature 8 := ⟨[0x52, 0x53, 0x44, 0x20, 0x50, 0x54, 0x52, 0x20], rfl⟩

def rsdt : TableSignature := ⟨[0x52, 0x53, 0x44, 0x54], rfl⟩

def xsdt : TableSignature := ⟨[0x58, 0x53, 0x44, 0x54], rfl⟩

def facp : TableSignature := ⟨[0x46, 0x41, 0x43, 0x50], rfl⟩

def dsdt : TableSignature := ⟨[0x44, 0x53, 0x44, 0x54], rfl⟩

end Signature

end BootLoader.Acpi
