/-! The states that a boot goes through, one after the other. -/

namespace BootLoader

inductive BootState where
  | detect
  | earlyArchInit
  | generalArchInit
  | diagnosticDump
  | acquireMemoryMap
  | terminateFirmwareServices
  | copyPayloads
  | archPreJumpFixup
  /-- the last one: nothing is left but to enter the payload -/
  | transfer
deriving DecidableEq, Inhabited

namespace BootState

def all : List BootState := [detect, earlyArchInit, generalArchInit, diagnosticDump,
  acquireMemoryMap, terminateFirmwareServices, copyPayloads, archPreJumpFixup, transfer]

def inspect : BootState → String
  | detect => "Detect"
  | earlyArchInit => "EarlyArchInit"
  | generalArchInit => "GeneralArchInit"
  | diagnosticDump => "DiagnosticDump"
  | acquireMemoryMap => "AcquireMemoryMap"
  | terminateFirmwareServices => "TerminateFirmwareServices"
  | copyPayloads => "CopyPayloads"
  | archPreJumpFixup => "ArchPreJumpFixup"
  | transfer => "Transfer"

def next : BootState → BootState
  | detect => earlyArchInit
  | earlyArchInit => generalArchInit
  | generalArchInit => diagnosticDump
  | diagnosticDump => acquireMemoryMap
  | acquireMemoryMap => terminateFirmwareServices
  | terminateFirmwareServices => copyPayloads
  | copyPayloads => archPreJumpFixup
  | archPreJumpFixup => transfer
  | transfer => transfer

/-- How many states come before the last one, from this one on. -/
def remaining : BootState → Nat
  | detect => 8
  | earlyArchInit => 7
  | generalArchInit => 6
  | diagnosticDump => 5
  | acquireMemoryMap => 4
  | terminateFirmwareServices => 3
  | copyPayloads => 2
  | archPreJumpFixup => 1
  | transfer => 0

theorem remaining_next (s : BootState) : s.next.remaining = s.remaining - 1 := by
  cases s <;> rfl

/-- A state is known by what is left. -/
theorem remaining_inj {s t : BootState} : s.remaining = t.remaining ↔ s = t := by
  cases s <;> cases t <;> decide

theorem remaining_eq_zero {s : BootState} : s.remaining = 0 ↔ s = transfer := by
  cases s <;> simp [remaining]

def firmwareTerminated : BootState → Bool
  | copyPayloads | archPreJumpFixup | transfer => true
  | _ => false

end BootState

end BootLoader
