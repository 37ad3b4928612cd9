import BootLoader.Bytes
import BootLoader.Memory.Region

/-! The images that the loader carries, and where they are headed. -/

namespace BootLoader

inductive PayloadRole where
  | hypervisor | kernel
deriving DecidableEq, Inhabited

def PayloadRole.name : PayloadRole → String
  | hypervisor => "hypervisor"
  | kernel => "kernel"

instance : ToString PayloadRole := ⟨PayloadRole.name⟩

inductive PayloadFormat where
  /-- copied as it is; entered at its first byte -/
  | raw
  /-- an executable image, copied section by section -/
  | pe
deriving DecidableEq, Inhabited

def PayloadFormat.inspect : PayloadFormat → String
  | raw => "Raw"
  | pe => "Pe"

inductive KernelPolicy where
  /-- go on without it -/
  | skip
  /-- give up -/
  | require
deriving DecidableEq, Inhabited

structure Payload where
  role : PayloadRole
  bytes : Bytes
  load : Address
  format : PayloadFormat
  /-- where the bytes are inside the loader -/
  home : Address
deriving Inhabited

namespace Payload

/-- Where the hypervisor's bytes are inside the loader. -/
def hypervisorHome : Address := .ofNat 0x1000000000

def kernelHome : Address := .ofNat 0x1000080000

def homeOf : PayloadRole → Address
  | .hypervisor => hypervisorHome
  | .kernel => kernelHome

/-- A payload at the place of its role. -/
def embedded (role : PayloadRole) (bytes : Bytes) (load : Address) (format : PayloadFormat) :
    Payload :=
  ⟨role, bytes, load, format, homeOf role⟩

def source (p : Payload) : Region := ⟨p.home, p.bytes.size⟩

/-- Where a plain copy of the bytes goes. -/
def destination (p : Payload) : Region := ⟨p.load, p.bytes.size⟩

def isEmpty (p : Payload) : Bool := p.bytes.isEmpty

end Payload

end BootLoader
