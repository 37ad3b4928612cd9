import BootLoader.Machine.Event

/-!
The world a loader runs in: the machine with its platforms, and the firmware. A platform is bound
at most once; log lines go to its serial line, where the logger copies them, and to the console
of the firmware.
-/

namespace BootLoader

structure Device where
  /-- what the hooks will answer, where they answer from a list -/
  replies : Hook → List (Option PlatformError)
  /-- the hart the firmware named, or the mark for none -/
  bootHart : UInt64
  uart : Uart

namespace Device

def unknownHart : UInt64 := 0xFFFFFFFFFFFFFFFF

def fresh : Device := ⟨fun _ => [], unknownHart, .endless⟩

end Device

/-- which lines are kept, and whether the serial line sees them -/
structure Logger where
  /-- the highest rank that gets through -/
  threshold : Nat
  toSerial : Bool

structure Machine where
  /-- the instruction set that the loader was built for, if it is one of these -/
  target : Option Arch
  /-- the platform that was published -/
  bound : Option Platform
  /-- the state of each platform, by its number -/
  devices : Nat → Device
  logger : Logger
  /-- what happened, newest first -/
  trail : List Event

namespace Machine

def fresh (logger : Logger) : Machine where
  target := Arch.configured
  bound := none
  devices _ := .fresh
  logger := logger
  trail := []

def device (m : Machine) (p : Platform) : Device := m.devices p.id

def setDevice (m : Machine) (p : Platform) (d : Device) : Machine :=
  { m with devices := fun i => if i = p.id then d else m.devices i }

@[simp] theorem target_setDevice (m : Machine) (p : Platform) (d : Device) :
    (m.setDevice p d).target = m.target := rfl

@[simp] theorem device_setDevice (m : Machine) (p : Platform) (d : Device) :
    (m.setDevice p d).device p = d := by
  simp [device, setDevice]

@[simp] theorem setDevice_setDevice (m : Machine) (p : Platform) (d d' : Device) :
    (m.setDevice p d).setDevice p d' = m.setDevice p d' := by
  simp only [setDevice, Machine.mk.injEq, true_and, and_true]
  funext i
  split <;> rfl

@[simp] theorem setDevice_device (m : Machine) (p : Platform) : m.setDevice p (m.device p) = m := by
  simp only [setDevice, device]
  congr 1
  funext i
  split
  · rename_i hi
    rw [hi]
  · rfl

def writeText (m : Machine) (p : Platform) (s : String) : Bool × Machine :=
  let d := m.device p
  let (done, uart) := p.write m.target d.uart s
  (done, m.setDevice p { d with uart })

/-- A text to the serial line of the bound platform, dropped if there is none. Nobody is told how
much of it was taken. -/
def trace (m : Machine) (s : String) : Machine :=
  match m.bound with
  | some p => (m.writeText p s).2
  | none => m

def record (m : Machine) (e : Event) : Machine := { m with trail := e :: m.trail }

end Machine

def Line.render (l : Line) : String := s!"[{l.level.name}] {l.component}: {l.text}\n"

structure World (φ : Type) where
  machine : Machine
  firmware : φ

namespace World

variable {φ : Type}

def say [Console φ] (w : World φ) (line : Line) : World φ :=
  let logger := w.machine.logger
  if line.level.rank ≤ logger.threshold then
    { machine := if logger.toSerial then w.machine.trace line.render else w.machine
      firmware := Console.print line w.firmware }
  else w

def sayAll [Console φ] (w : World φ) (lines : List Line) : World φ := lines.foldl say w

end World

/-- a computation in the world, which keeps what happened when it fails -/
abbrev Host (φ ε α : Type) := EStateM ε (World φ) α

namespace Host

variable {φ ε : Type}

def onMachine (f : Machine → Machine) : Host φ ε Unit :=
  modify fun w => { w with machine := f w.machine }

def say [Console φ] (line : Line) : Host φ ε Unit := modify (·.say line)

def trace (s : String) : Host φ ε Unit := onMachine (·.trace s)

def record (e : Event) : Host φ ε Unit := onMachine (·.record e)

/-- A call to the firmware, which goes on the trail together with its answer. -/
def call {α : Type} (f : φ → α × φ) (event : α → Event) : Host φ ε α := fun w =>
  let (answer, firmware) := f w.firmware
  .ok answer { machine := w.machine.record (event answer), firmware }

variable [Firmware φ]

/-- What is said of the answer is said before the firmware closes what the question opened. -/
def bootHart : Host φ ε (Option UInt64) := do
  let reply ← call Firmware.bootHart (.bootHart ·.hart)
  modify (·.sayAll reply.said)
  modify fun w => { w with firmware := Firmware.releaseHart w.firmware }
  return reply.hart

def memoryMap (buffer : Region) : Host φ ε MapQuery :=
  call (Firmware.memoryMap buffer) (.memoryMap buffer)

def allocate (size : Nat) : Host φ ε (Except Status Region) :=
  call (Firmware.allocate size) (.allocate size)

def quiesce : Host φ ε Unit := call (fun f => ((), Firmware.quiesce f)) fun _ => .quiesce

def exit (key : MapKey) : Host φ ε (Except Status Unit) :=
  call (Firmware.exit key) (.exit key)

end Host

end BootLoader
