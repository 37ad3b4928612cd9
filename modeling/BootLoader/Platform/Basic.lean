import BootLoader.Platform.Error
import BootLoader.Platform.Registers
import BootLoader.Platform.Uart

/-!
A platform: what it is, what it wants zeroed, and how addresses map to physical memory. A platform
is told from another by its number, not by its instruction set.
-/

namespace BootLoader

inductive Wiring where
  /-- the hardware of its instruction set -/
  | hardware
  /-- a list of replies -/
  | scripted
deriving DecidableEq, Inhabited

inductive Hook where
  | earlyInit | init | memoryInit | setupDirectMapping | serialInit
  | beforeExit | bootCpu | preJumpFixup | transfer
deriving DecidableEq, Inhabited

namespace Hook

def name : Hook → String
  | earlyInit => "early_init"
  | init => "init"
  | memoryInit => "memory_init"
  | setupDirectMapping => "setup_direct_mapping"
  | serialInit => "serial_init"
  | beforeExit => "before_exit_boot_services"
  | bootCpu => "get_boot_cpu_id"
  | preJumpFixup => "pre_jump_fixup"
  | transfer => "transfer"

def all : List Hook := [earlyInit, init, memoryInit, setupDirectMapping, serialInit, beforeExit,
  bootCpu, preJumpFixup, transfer]

end Hook

structure Platform where
  id : Nat
  arch : Arch
  wiring : Wiring
  preparation : List Region
  cleanup : List Region
  /-- the address bits that choose a window onto the same memory -/
  windowBits : UInt64
deriving DecidableEq, Inhabited

namespace Platform

/-- The address bits that choose a window on the hardware. -/
def hardwareWindowBits : Arch → UInt64
  | .loongArch64 => DirectMapWindow.segmentBits
  | .aarch64 | .riscV64 => 0

def builtIn (arch : Arch) : Platform where
  id := arch.index
  arch := arch
  wiring := .hardware
  preparation := arch.layout.preparation
  cleanup := arch.layout.cleanup
  windowBits := hardwareWindowBits arch

def name (p : Platform) : String := p.arch.name

def convention (p : Platform) : Convention := p.arch.convention

def inspect (p : Platform) : String :=
  s!"ArchDescriptor \x7b arch: {p.arch.inspect}, convention: {p.convention.inspect}, .. \x7d"

def clearPlan (p : Platform) : ClearPhase → List Region
  | .preparation => p.preparation
  | .cleanup => p.cleanup

/-- The range without the bits that choose a window. Ranges are compared after this. -/
def toPhysical (p : Platform) (r : Region) : Region :=
  ⟨⟨r.start.word &&& ~~~p.windowBits⟩, r.len⟩

def aliases (p : Platform) (a b : Region) : Bool :=
  (p.toPhysical a).overlaps (p.toPhysical b)

def needsHardware : Arch → Hook → Bool
  | _, .preJumpFixup => true
  | .loongArch64, .earlyInit => true
  | .loongArch64, .init => true
  | .loongArch64, .serialInit => true
  | _, _ => false

/-- Hardware is within reach of a loader that was built for its instruction set. -/
def native (target : Option Arch) (arch : Arch) : Except PlatformError Unit :=
  if target = some arch then .ok () else .error (.foreignTarget arch)

/-! ## The serial line -/

/-- One byte, and whether it was taken. Hardware within reach is waited for until it has room. -/
def put (target : Option Arch) (p : Platform) (u : Uart) (b : UInt8) : Bool × Uart :=
  match p.wiring with
  | .hardware => if target = some p.arch then (true, u.take b) else (false, u)
  | .scripted => u.put b

def write (target : Option Arch) (p : Platform) (u : Uart) (s : String) : Bool × Uart :=
  Uart.write (p.put target) s.toUTF8.data.toList u

end Platform

end BootLoader
