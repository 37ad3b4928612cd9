import BootLoader.Memory.Region

/-! Where payloads go on a platform, and what is zeroed before and after they are placed. -/

namespace BootLoader

inductive ClearPhase where
  /-- before the first byte of a payload is placed -/
  | preparation
  /-- after the last one -/
  | cleanup
deriving DecidableEq, Inhabited

def ClearPhase.inspect : ClearPhase → String
  | preparation => "Preparation"
  | cleanup => "Cleanup"

structure Layout where
  hypervisorLoad : Address
  kernelLoad : Address
  preparation : List Region
  cleanup : List Region

namespace Layout

def clears (l : Layout) : ClearPhase → List Region
  | .preparation => l.preparation
  | .cleanup => l.cleanup

def kib : Nat := 1024

def mib : Nat := 1024 * kib

/-- Memory starts at 1 GiB. -/
def aarch64 : Layout where
  hypervisorLoad := .ofNat 0x40000000
  kernelLoad := .ofNat 0x40200000
  preparation := []
  cleanup := []

/-- All addresses are in the cached window. -/
def loongArch64 : Layout where
  hypervisorLoad := .ofNat 0x9000000100010000
  kernelLoad := .ofNat 0x9000000000200000
  preparation := [
    .ofNat 0x9000000100000000 (16 * mib),
    .ofNat 0x9000000000001000 (64 * kib),
    .ofNat 0x9000000000200000 (16 * mib) ]
  cleanup := []

/-- The first 2 MiB of memory belong to the firmware below. -/
def riscV64 : Layout where
  hypervisorLoad := .ofNat 0x80200000
  kernelLoad := .ofNat 0x90000000
  preparation := []
  cleanup := []

end Layout

end BootLoader
