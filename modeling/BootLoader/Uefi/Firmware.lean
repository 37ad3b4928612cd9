import BootLoader.Machine.World
import BootLoader.Uefi.System

/-!
The firmware as the loader sees it: what does not change is read once at the start, and the rest
goes through the system table.
-/

namespace BootLoader.Uefi

structure Snapshot where
  entries : List Acpi.ConfigEntry
  loader : Region
  systemTable : Address

structure UefiFirmware where
  pool : Allocator System
  /-- `none` until it was read -/
  snapshot : Option Snapshot
  /-- whether log lines may go to the console -/
  consoleOn : Bool

namespace UefiFirmware

def start (system : System) : UefiFirmware where
  pool := ⟨system, .zeroed, false⟩
  snapshot := none
  consoleOn := true

def system (f : UefiFirmware) : System := f.pool.services

def setSystem (f : UefiFirmware) (s : System) : UefiFirmware :=
  { f with pool := { f.pool with services := s } }

def print (line : Line) (f : UefiFirmware) : UefiFirmware :=
  if f.consoleOn then f.setSystem (f.system.print line.render) else f

def memoryMap (buffer : Region) (f : UefiFirmware) : MapQuery × UefiFirmware :=
  let (answer, s) := f.system.memoryMap buffer
  (answer, f.setSystem s)

def allocate (size : Nat) (f : UefiFirmware) : Except Status Region × UefiFirmware :=
  let (answer, s) := f.system.allocatePool size
  (answer.map fun a => ⟨a, size⟩, f.setSystem s)

def breakDown (why : String) (f : UefiFirmware) : UefiFirmware :=
  f.setSystem (f.system.crashWith why)

/-- A block of the pool for the loader itself, or the null address. -/
def alloc (size align : Nat) (f : UefiFirmware) : Address × UefiFirmware :=
  let (answer, pool) := f.pool.alloc size align
  match answer with
  | .ok block => (block, { f with pool })
  | .error e => (.zero, { f with pool }.breakDown e.message)

def dealloc (block : Address) (f : UefiFirmware) : UefiFirmware :=
  match f.pool.dealloc block with
  | .ok pool => { f with pool }
  | .error e => f.breakDown e.message

def hartLines : HartFailure → List Line
  | .unpublished status =>
    [⟨.warn, "uefi_loader::firmware", s!"RISCV_EFI_BOOT_PROTOCOL not found: {status}"⟩]
  | .refused => []
  | .unnamed status => [⟨.warn, "uefi_loader::firmware", s!"GetBootHartId failed: {status}"⟩]

/-- Only riscv64 has harts. -/
def bootHart (f : UefiFirmware) : HartReply × UefiFirmware :=
  if f.system.target = some .riscV64 then
    match f.system.bootHart with
    | (.ok hart, s) => (⟨some hart, []⟩, f.setSystem s)
    | (.error e, s) => (⟨none, hartLines e⟩, f.setSystem s)
  else (⟨none, []⟩, f)

/-- The pool is not touched again once the services are gone. -/
def exit (key : MapKey) (f : UefiFirmware) : Except Status Unit × UefiFirmware :=
  let (answer, s) := f.system.exit key
  let f := f.setSystem s
  match answer with
  | .ok _ => (.ok (), { f with pool := { f.pool with retired := true } })
  | .error status => (.error status, f)

instance : Firmware UefiFirmware where
  print := print
  entries f := (f.snapshot.map (·.entries)).getD []
  systemTable f := (f.snapshot.map (·.systemTable)).getD .zero
  loaderImage f := (f.snapshot.map (·.loader)).getD .empty
  bootHart := bootHart
  releaseHart f := f.setSystem f.system.releaseHart
  memoryMap := memoryMap
  allocate := allocate
  quiesce f := { f with consoleOn := false }
  exit := exit

def query : Host UefiFirmware Status Unit := do
  let s := (← get).firmware.system
  if !s.tablePresent then throw .notStarted
  let entries := s.entries
  Host.say ⟨.debug, "uefi_loader::firmware",
    s!"Firmware publishes {entries.length} configuration tables"⟩
  let (image, s) := (← get).firmware.system.loaderImage
  modify fun w => { w with firmware := w.firmware.setSystem s }
  match image with
  | .error status => throw status
  | .ok loader =>
    modify fun w => { w with firmware := { w.firmware with
      snapshot := some ⟨entries, loader, w.firmware.system.address⟩ } }

end UefiFirmware

end BootLoader.Uefi
