import BootLoader.Handoff.Config
import BootLoader.Handoff.MemoryMap
import BootLoader.Memory.Mapping
import BootLoader.Task

/-! A boot under way, and the computations that carry it on. -/

namespace BootLoader

structure BootContext where
  /-- set by the first state, and never again -/
  platform : Option Platform
  loaderImage : Region
  systemTable : Address
  /-- the device tree if there is one, else the root pointer, else zero -/
  contextPointer : Address
  bootCpu : Option UInt64
  memoryMap : Option MemoryMapInfo
  entry : Option Address
  kernelEntry : Option Address
  bytesCleared : Nat

namespace BootContext

def start : BootContext where
  platform := none
  loaderImage := .empty
  systemTable := .zero
  contextPointer := .zero
  bootCpu := none
  memoryMap := none
  entry := none
  kernelEntry := none
  bytesCleared := 0

def handoffParams (c : BootContext) : HandoffParams where
  cpu := c.bootCpu.getD 0
  context := c.contextPointer.word
  secondary := c.systemTable.word

end BootContext

structure Session (φ μ : Type) where
  world : World φ
  memory : μ
  config : BootConfig
  /-- the state that the next step runs -/
  state : BootState
  context : BootContext
  /-- there between the reservation of the buffer and its use -/
  mapBuffer : Option MapBuffer

def Session.start {φ μ : Type} (world : World φ) (memory : μ) (config : BootConfig) :
    Session φ μ where
  world := world
  memory := memory
  config := config
  state := .detect
  context := .start
  mapBuffer := none

/-- a part of a boot, which keeps what it did when it fails -/
abbrev Boot (φ μ α : Type) := EStateM BootError (Session φ μ) α

namespace Boot

variable {φ μ ε α : Type}

def inWorld (wrap : ε → BootError) (x : Host φ ε α) : Boot φ μ α := fun s =>
  match x s.world with
  | .ok a world => .ok a { s with world }
  | .error e world => .error (wrap e) { s with world }

def inMemory [Console φ] (wrap : ε → BootError) (x : Task μ ε α) : Boot φ μ α := fun s =>
  let (done, memory) := x.run s.memory
  let s := { s with memory, world := s.world.sayAll done.lines }
  match done.result with
  | .ok a => .ok a s
  | .error e => .error (wrap e) s

def attempt (x : Boot φ μ α) : Boot φ μ (Except BootError α) := fun s =>
  match x s with
  | .ok a s => .ok (.ok a) s
  | .error e s => .ok (.error e) s

def onContext (f : BootContext → BootContext) : Boot φ μ Unit :=
  modify fun s => { s with context := f s.context }

def onMachine (f : Machine → Machine) : Boot φ μ Unit :=
  modify fun s => { s with world := { s.world with machine := f s.world.machine } }

def say [Console φ] (level : Level) (text : String) : Boot φ μ Unit :=
  modify fun s => { s with world := s.world.say ⟨level, "boot_handoff::sequencer", text⟩ }

def trace (text : String) : Boot φ μ Unit := onMachine (·.trace text)

def record (e : Event) : Boot φ μ Unit := onMachine (·.record e)

def platform : Boot φ μ Platform := do
  let s ← get
  match s.context.platform with
  | some p => return p
  | none => throw (.outOfOrder s.state)

end Boot

end BootLoader
