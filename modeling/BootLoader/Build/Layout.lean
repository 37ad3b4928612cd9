import BootLoader.Platform.Arch
import BootLoader.Platform.Payload
import BootLoader.Text.Hex

/-!
The check that payloads of the given sizes fit where a platform wants them, made before anything
is embedded. Sizes are compared as the addresses stand, without regard to windows.
-/

namespace BootLoader.Build

open Text

inductive LayoutError where
  /-- a payload would not start a page -/
  | misaligned (arch : Arch) (payload : PayloadRole) (load : Nat)
  /-- a payload would reach past the last address -/
  | overflow
  | overlap (arch : Arch) (hypervisor hypervisorEnd kernel kernelEnd : Nat)
deriving DecidableEq

def LayoutError.message : LayoutError → String
  | misaligned arch payload load =>
    s!"assertion `left == right` failed: {arch}: {payload} load address {Hex.marked load} must be " ++
      s!"4 KiB aligned\n  left: {load % 4096}\n right: 0"
  | overflow => "attempt to add with overflow"
  | overlap arch hypervisor hypervisorEnd kernel kernelEnd =>
    s!"{arch}: hypervisor [{Hex.marked hypervisor}, {Hex.marked hypervisorEnd}) overlaps " ++
      s!"kernel [{Hex.marked kernel}, {Hex.marked kernelEnd})"

def checkAligned (arch : Arch) (payload : PayloadRole) (load : Nat) : Except LayoutError Unit :=
  if load % 4096 = 0 then .ok () else .error (.misaligned arch payload load)

/-- A kernel of no bytes is no kernel, and overlaps nothing. -/
def checkLayout (arch : Arch) (hypervisorLen kernelLen : Nat) : Except LayoutError Unit := do
  let hypervisor := arch.layout.hypervisorLoad.toNat
  let kernel := arch.layout.kernelLoad.toNat
  checkAligned arch .hypervisor hypervisor
  checkAligned arch .kernel kernel
  let hypervisorEnd := hypervisor + hypervisorLen
  let kernelEnd := kernel + kernelLen
  if Address.space ≤ hypervisorEnd ∨ Address.space ≤ kernelEnd then throw .overflow
  if kernelLen ≠ 0 ∧ kernel < hypervisorEnd ∧ hypervisor < kernelEnd then
    throw (.overlap arch hypervisor hypervisorEnd kernel kernelEnd)

end BootLoader.Build
