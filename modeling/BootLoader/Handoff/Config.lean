import BootLoader.Handoff.Error
import BootLoader.Pe.Image
import BootLoader.Platform.Basic

/-!
What to boot, and the checks on where it goes. A payload may write no byte outside its footprint,
so it is enough that footprints stay clear of the loader and of each other.
-/

namespace BootLoader

structure BootConfig where
  /-- `none` where there is no platform for the machine -/
  platform : Option Platform
  hypervisor : Payload
  kernel : Option Payload
  kernelPolicy : KernelPolicy
  /-- whether to walk the firmware's tables and dump what they lead to -/
  diagnosticDump : Bool

/-- The range that placing a payload may write. An image whose headers do not hold together is
measured by its bytes; it will be refused when it is placed. -/
def Payload.footprint (p : Payload) : Region :=
  match p.format with
  | .raw => p.destination
  | .pe =>
    match Pe.Image.parse p.bytes with
    | .ok image => ⟨p.load, image.footprint⟩
    | .error _ => p.destination

namespace BootConfig

/-- Where a platform wants a payload; nowhere in particular without a platform. -/
def loadAddress (platform : Option Platform) (role : PayloadRole) : Address :=
  match platform with
  | none => .zero
  | some p =>
    match role with
    | .hypervisor => p.arch.layout.hypervisorLoad
    | .kernel => p.arch.layout.kernelLoad

/-- A plain hypervisor image at its place, and nothing else. -/
def ofHypervisor (platform : Option Platform) (bytes : Bytes) : BootConfig where
  platform := platform
  hypervisor := .embedded .hypervisor bytes (loadAddress platform .hypervisor) .raw
  kernel := none
  kernelPolicy := .skip
  diagnosticDump := true

def withKernel (c : BootConfig) (bytes : Bytes) (format : PayloadFormat) : BootConfig :=
  { c with kernel := some (.embedded .kernel bytes (loadAddress c.platform .kernel) format) }

def payloads (c : BootConfig) : List Payload := c.hypervisor :: c.kernel.toList

def kernelIsEmpty (c : BootConfig) : Bool := c.kernel.any (·.isEmpty)

def loaderConflict? (p : Platform) (loader : Region) (payloads : List Payload) :
    Option Payload :=
  payloads.find? fun payload => p.aliases payload.footprint loader

/-- Payloads must stay clear of the loader, then of each other. -/
def checkPlacement (c : BootConfig) (p : Platform) (loader : Region) :
    Except ConfigError Unit := do
  if let some payload := loaderConflict? p loader c.payloads then
    throw (.payloadOverlapsLoader payload.role payload.footprint loader)
  if let some kernel := c.kernel then
    if p.aliases c.hypervisor.footprint kernel.footprint then
      throw (.payloadsOverlap c.hypervisor.footprint kernel.footprint)

/-- The ranges that a clear must not touch: the loader and what it carries, and once the payloads
are placed, the payloads. -/
def protectedRegions (c : BootConfig) (loader : Region) (phase : ClearPhase) : List Region :=
  let placed := match phase with
    | .preparation => []
    | .cleanup => c.payloads.map (·.footprint)
  loader :: c.payloads.map (·.source) ++ placed

end BootConfig

end BootLoader
