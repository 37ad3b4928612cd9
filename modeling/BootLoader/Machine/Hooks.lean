import BootLoader.Machine.World

/-! The hooks of a platform. On hardware a hook does nothing that shows, or is out of reach; on a
scripted platform it takes the next reply from its list. The boot hart of riscv64 is asked for until
the firmware knows it, and never again after that. -/

namespace BootLoader

inductive Outcome where
  | transferred (entry : Address) (convention : Convention) (params : HandoffParams)
  /-- the processor is parked for good -/
  | halted
deriving DecidableEq

namespace Device

/-- The next reply to a hook; a list that is used up holds no failures. -/
def reply (d : Device) (h : Hook) : Option PlatformError × Device :=
  match d.replies h with
  | [] => (none, d)
  | r :: rest => (r, { d with replies := fun g => if g = h then rest else d.replies g })

end Device

namespace Host

variable {φ : Type}

def ofExcept {ε α : Type} (r : Except ε α) : Host φ ε α :=
  match r with
  | .ok a => pure a
  | .error e => throw e

def takeReply (p : Platform) (h : Hook) : Host φ PlatformError Unit := do
  let (r, d) := ((← get).machine.device p).reply h
  onMachine (·.setDevice p d)
  match r with
  | none => return
  | some e => throw e

/-- What touches hardware fails where that is out of reach. -/
def native (arch : Arch) : Host φ PlatformError Unit := do
  ofExcept (Platform.native (← get).machine.target arch)

/-- A hook that has no answer. -/
def plainHook (p : Platform) (h : Hook) : Host φ PlatformError Unit := do
  record (.hook h)
  match p.wiring with
  | .hardware => if Platform.needsHardware p.arch h then native p.arch else return
  | .scripted => takeReply p h

variable [Firmware φ]

/-- The boot hart, from the platform's memory or from the firmware. -/
def queryHart (p : Platform) : Host φ PlatformError UInt64 := do
  let known := ((← get).machine.device p).bootHart
  if known ≠ Device.unknownHart then return known
  match ← bootHart with
  | none => throw .bootCpuUnavailable
  | some hart =>
    onMachine fun m => m.setDevice p { m.device p with bootHart := hart }
    say ⟨.info, "boot_arch::platform::riscv64", s!"Boot hart id: {hart}"⟩
    return hart

/-- The last hook while the firmware's services are there. -/
def beforeExit (p : Platform) : Host φ PlatformError Unit := do
  record (.hook .beforeExit)
  match p.wiring, p.arch with
  | .hardware, .riscV64 => discard (queryHart p)
  | .hardware, _ => return
  | .scripted, _ => takeReply p .beforeExit

def bootCpu (p : Platform) : Host φ PlatformError UInt64 := do
  record (.hook .bootCpu)
  match p.wiring, p.arch with
  | .hardware, .riscV64 => queryHart p
  | .hardware, _ => return 0
  | .scripted, _ =>
    takeReply p .bootCpu
    return (← bootHart).getD 0

/-- Enter a payload. A loader that was built for none of the instruction sets can run none. -/
def enter {ε : Type} (p : Platform) (entry : Address) (params : HandoffParams) :
    Host φ ε Outcome := do
  record (.hook .transfer)
  match p.wiring, (← get).machine.target with
  | .hardware, none =>
    say ⟨.error, "boot_arch::handoff",
      s!"Cannot transfer to {entry} ({p.convention}) on this target"⟩
    return .halted
  | _, _ => return .transferred entry p.convention params

end Host

/-! ## The serial line of a platform -/

namespace Host

variable {φ : Type}

def putChar (p : Platform) (b : UInt8) : Host φ PlatformError Unit := do
  let m := (← get).machine
  let d := m.device p
  let (taken, uart) := p.put m.target d.uart b
  onMachine (·.setDevice p { d with uart })
  if !taken then throw (.foreignTarget p.arch)

/-- A byte from a platform's serial line, if one is waiting. On a scripted one, none is. -/
def getChar (p : Platform) : Host φ PlatformError (Option UInt8) := do
  match p.wiring with
  | .scripted => return none
  | .hardware =>
    native p.arch
    let d := (← get).machine.device p
    match d.uart.waiting with
    | [] => return none
    | b :: waiting =>
      onMachine (·.setDevice p { d with uart := { d.uart with waiting } })
      return some b

end Host

end BootLoader
