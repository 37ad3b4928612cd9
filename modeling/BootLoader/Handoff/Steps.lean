import BootLoader.Acpi.Walk
import BootLoader.Handoff.Session
import BootLoader.Machine.Binding
import BootLoader.Machine.Hooks
import BootLoader.Pe.Load
import BootLoader.Platform.Clear

/-! What each state of a boot does. The first failure ends a state where it is; only the dump of
the firmware's tables may fail without harm. -/

namespace BootLoader.Boot

variable {φ μ : Type} [Firmware φ]

/-! ## Finding the platform -/

/-- A missing hypervisor is fatal; what a missing kernel is, the policy says. -/
def admitPayloads : Boot φ μ Unit := do
  let c := (← get).config
  if c.hypervisor.isEmpty then throw (.config (.missingPayload .hypervisor))
  if c.kernelIsEmpty then
    match c.kernelPolicy with
    | .require => throw (.config (.missingPayload .kernel))
    | .skip =>
      say .warn "Kernel payload is empty; booting without it"
      modify fun s => { s with config := { s.config with kernel := none } }

def checkPlacement : Boot φ μ Unit := do
  let p ← platform
  let s ← get
  match s.config.checkPlacement p s.context.loaderImage with
  | .ok _ => return
  | .error e => throw (.config e)

def detect : Boot φ μ Unit := do
  let some p := (← get).config.platform | throw (.config .unsupportedArch)
  inWorld .ofPlatform (Host.publish p)
  modify fun s => { s with context := { s.context with
    platform := some p
    loaderImage := Firmware.loaderImage s.world.firmware
    systemTable := Firmware.systemTable s.world.firmware } }
  say .info s!"Detected {p.name}, loader image at {(← get).context.loaderImage}"
  admitPayloads
  checkPlacement

/-! ## Initialisation -/

def hook (p : Platform) (h : Hook) : Boot φ μ Unit :=
  inWorld .ofPlatform (Host.plainHook p h)

def earlyInit : Boot φ μ Unit := do
  hook (← platform) .earlyInit

def ruler : String := "========================================================"

def overview (s : Session φ μ) (p : Platform) : List String :=
  [ruler, s!"hvisor UEFI loader, target arch: {p.name}"] ++
  s.config.payloads.map (fun payload =>
    s!"{payload.role} embedded {payload.source} -> load {payload.destination} " ++
      s!"({payload.format.inspect})") ++
  [s!"system table: {s.context.systemTable.hex}"] ++
  (Firmware.entries s.world.firmware).map (fun entry =>
    s!"config table {entry.kind.inspect} at {entry.address}") ++
  [ruler]

def generalInit : Boot φ μ Unit := do
  let p ← platform
  hook p .init
  hook p .memoryInit
  hook p .setupDirectMapping
  hook p .serialInit
  trace s!"\n[INFO] {p.name} platform initialised\n"
  (overview (← get) p).forM (say .info)

/-! ## The firmware's tables -/

/-- What the payload will be given to find its way. -/
def contextPointer (entries : List Acpi.ConfigEntry) : Address :=
  ((Acpi.ConfigEntry.deviceTree? entries).or
    ((Acpi.ConfigEntry.root? entries).map (·.address))).getD .zero

def diagnosticDump [Mapping μ] : Boot φ μ Unit := do
  let s ← get
  let entries := Firmware.entries s.world.firmware
  onContext ({ · with contextPointer := contextPointer entries })
  if s.config.diagnosticDump then
    let walk := Acpi.walk s.memory entries
    modify fun s => { s with world := s.world.sayAll walk.lines }
    match walk.result with
    | .ok report =>
      say .info "Dumping AML code to UART"
      trace (Acpi.HexDump.render report.payload.table.bytes)
    | .error e => say .warn s!"{BootError.diagnostic e}; skipping the dump"
  else say .debug "Firmware table dump disabled"

/-! ## The end of the firmware's services -/

def acquireMemoryMap : Boot φ μ Unit := do
  let p ← platform
  inWorld .ofPlatform (Host.beforeExit p)
  let cpu ← inWorld .ofPlatform (Host.bootCpu p)
  say .info s!"Boot CPU id: {cpu}"
  onContext ({ · with bootCpu := some cpu })
  let buffer ← inWorld .firmware Host.probeAndAllocate
  modify ({ · with mapBuffer := some buffer })

/-- The buffer, which can be taken once. -/
def takeMapBuffer : Boot φ μ MapBuffer := do
  let s ← get
  set { s with mapBuffer := none }
  match s.mapBuffer with
  | some buffer => return buffer
  | none => throw (.outOfOrder s.state)

def terminateFirmwareServices : Boot φ μ Unit := do
  let buffer ← takeMapBuffer
  say .info "Exiting boot services ..."
  inWorld .firmware Host.quiesce
  let map ← inWorld .firmware (Host.fillAndExit buffer)
  say .info (s!"Boot services exited with {map.descriptorCount} descriptors, " ++
    "we're now flying by instruments.")
  onContext ({ · with memoryMap := some map })

/-! ## Memory -/

variable [Mapping μ]

def clear (phase : ClearPhase) : Boot φ μ Unit := do
  let p ← platform
  let s ← get
  record (.writes (.ofClear phase))
  let cleared ← inMemory .ofPlatform
    (p.clear phase (s.config.protectedRegions s.context.loaderImage phase))
  onContext fun c => { c with bytesCleared := c.bytesCleared + cleared }

/-- Put a payload where it belongs; the address to enter it at. -/
def place (p : Payload) : Boot φ μ Address := do
  say .info s!"Copying {p.role} ({p.bytes.size} bytes) {p.source} -> {p.load}"
  match p.format with
  | .raw =>
    inMemory .memory (.update id fun m => Mapping.copy m p.load p.bytes)
    return p.load
  | .pe => return (← inMemory (.payload p.role) (Pe.load p.bytes p.load)).entry

/-- Whether a boot goes on without a kernel that failed in this way. -/
def forgives (policy : KernelPolicy) : BootError → Bool
  | .payload .. => policy == .skip
  | _ => false

def placeKernel (kernel : Payload) : Boot φ μ Unit := do
  record (.writes .placeKernel)
  match ← attempt (place kernel) with
  | .ok entry => onContext ({ · with kernelEntry := some entry })
  | .error e =>
    if forgives (← get).config.kernelPolicy e then say .warn s!"{e}; booting without the kernel"
    else throw e

def copyPayloads : Boot φ μ Unit := do
  clear .preparation
  let config := (← get).config
  record (.writes .placeHypervisor)
  let entry ← place config.hypervisor
  onContext ({ · with entry := some entry })
  match config.kernel with
  | some kernel => placeKernel kernel
  | none => return

def preJumpFixup : Boot φ μ Unit := do
  clear .cleanup
  hook (← platform) .preJumpFixup
  say .info "Ok, ready to jump to hvisor entry..."

end BootLoader.Boot
