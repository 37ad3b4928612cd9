import BootLoader.Handoff.Steps
import BootLoader.Handoff.Trace

/-!
The whole boot. A step runs one state; it goes on to the next state only if nothing failed. There
is one chance: whatever is fatal parks the processor.
-/

namespace BootLoader

variable {φ μ : Type} [Firmware φ] [Mapping μ]

namespace Boot

/-- What a state does. The last one has nothing left to do. -/
def action : BootState → Boot φ μ Unit
  | .detect => detect
  | .earlyArchInit => earlyInit
  | .generalArchInit => generalInit
  | .diagnosticDump => diagnosticDump
  | .acquireMemoryMap => acquireMemoryMap
  | .terminateFirmwareServices => terminateFirmwareServices
  | .copyPayloads => copyPayloads
  | .archPreJumpFixup => preJumpFixup
  | .transfer => throw (.outOfOrder .transfer)

/-- Run the current state and go on to the next; the state that comes next. -/
def step : Boot φ μ BootState := do
  let state := (← get).state
  say .debug s!"Boot state: {state.inspect}"
  action state
  modify ({ · with state := state.next })
  return state.next

/-- That many steps, or as many as it takes to reach the last state. -/
def steps : Nat → Boot φ μ Unit
  | 0 => return
  | n + 1 => do
    if (← get).state = .transfer then return
    discard step
    steps n

def runUntilTransfer : Boot φ μ Unit := do
  steps (← get).state.remaining

end Boot

namespace Session

def fail (e : BootError) (s : Session φ μ) : Outcome × Session φ μ :=
  let world := s.world.say ⟨.error, "boot_handoff::sequencer",
    s!"Boot failed ({e.errorClass.inspect}): {e}"⟩
  let machine := world.machine.trace s!"[ERROR] boot failed: {e}\n"
  (.halted, { s with world := { world with machine } })

def enter (p : Platform) (entry : Address) (s : Session φ μ) : Outcome × Session φ μ :=
  let params := s.context.handoffParams
  let machine := Handoff.trace s.world.machine p entry params s.context.memoryMap
  let world := { s.world with machine }.say ⟨.info, "boot_handoff::sequencer",
    s!"Jumping to the hypervisor at {entry}"⟩
  match Host.enter (ε := Empty) p entry params world with
  | .ok outcome world => (outcome, { s with world })
  | .error e _ => nomatch e

def transfer (s : Session φ μ) : Outcome × Session φ μ :=
  match s.state, s.context.platform, s.context.entry with
  | .transfer, some p, some entry => s.enter p entry
  | state, _, _ => s.fail (.outOfOrder state)

def run (s : Session φ μ) : Outcome × Session φ μ :=
  match Boot.runUntilTransfer s with
  | .ok _ s => s.transfer
  | .error e s => s.fail e

end Session

end BootLoader
