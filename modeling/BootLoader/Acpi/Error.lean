import BootLoader.Acpi.Signature
import BootLoader.Memory.Mapping

/-! Why a walk through the firmware's tables ends early. -/

namespace BootLoader.Acpi

open Text

inductive WalkError where
  | noRootPointer
  | unmapped (address : Address) (len : Nat)
  | badRootSignature (address : Address) (found : Signature 8)
  | badSignature (address : Address) (expected found : TableSignature)
  | badChecksum (what : String) (address : Address)
  | badLength (address : Address) (length : UInt32)
  | nullPointer (holder : TableSignature)
  | signatureNotFound (signature : TableSignature)
deriving DecidableEq

namespace WalkError

def kind : WalkError → String
  | noRootPointer => "NoRootPointer"
  | unmapped .. => "Unmapped"
  | badRootSignature .. => "BadRootSignature"
  | badSignature .. => "BadSignature"
  | badChecksum .. => "BadChecksum"
  | badLength .. => "BadLength"
  | nullPointer _ => "NullPointer"
  | signatureNotFound _ => "SignatureNotFound"

def message : WalkError → String
  | noRootPointer => "no ACPI root pointer in the firmware configuration table"
  | unmapped address len => s!"{address} (+{Hex.marked len}) is not readable"
  | badRootSignature address found =>
    s!"no \"RSD PTR \" at {address}, found {found.inspect}"
  | badSignature address expected found =>
    s!"bad signature at {address}: expected {expected.inspect}, found {found.inspect}"
  | badChecksum what address => s!"checksum mismatch in {what} at {address}"
  | badLength address length => s!"implausible length {length} at {address}"
  | nullPointer holder => s!"{holder} holds a null pointer"
  | signatureNotFound signature => s!"no table with signature {signature.inspect}"

instance : ToString WalkError := ⟨message⟩

end WalkError

/-- The `len` bytes at `a`, or the complaint that they cannot be read. -/
def view {μ : Type} [Mapping μ] (m : μ) (a : Address) (len : Nat) : Except WalkError Bytes :=
  match Mapping.read? m a len with
  | some bs => .ok bs
  | none => .error (.unmapped a len)

end BootLoader.Acpi
