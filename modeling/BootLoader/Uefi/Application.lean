import BootLoader.Handoff.Run
import BootLoader.Uefi.Firmware

/-! The loader as the firmware starts it. -/

namespace BootLoader.Uefi

inductive Ending where
  /-- it returned to the firmware -/
  | returned (status : Status)
  /-- it did not -/
  | gone (outcome : Outcome)
deriving DecidableEq

structure Application where
  version : String
  hypervisor : Bytes
  /-- whether to dump what the firmware's tables lead to -/
  diagnosticDump : Bool

namespace Application

/-- Debug lines and all that matter more, copied to the serial line. -/
def logger : Logger := ⟨Level.debug.rank, true⟩

/-- The loader was built for the system that starts it. -/
def world (system : System) : World UefiFirmware :=
  ⟨{ Machine.fresh logger with target := system.target }, .start system⟩

/-- Read the firmware's state and boot. Where another logger is in place there is nothing to
report a failure with, so the loader gives up at once. -/
def mainIn (memory : IdentityMap) (app : Application) (loggerTaken : Bool) (system : System) :
    Ending × World UefiFirmware :=
  let w := world system
  if loggerTaken then (.returned .aborted, w)
  else
    let w := w.say ⟨.info, "uefi_loader::main",
      s!"hvisor UEFI loader {app.version} ({app.hypervisor.size} byte hypervisor image)"⟩
    match UefiFirmware.query w with
    | .error status w =>
      let text := s!"Failed to query the firmware: {status}\n"
      (.returned status,
        { w with firmware := w.firmware.setSystem (w.firmware.system.print text) })
    | .ok _ w =>
      let platform := system.target.map Platform.builtIn
      let config := { BootConfig.ofHypervisor platform app.hypervisor with
        diagnosticDump := app.diagnosticDump }
      let (outcome, s) := (Session.start w memory config).run
      (.gone outcome, s.world)

def main : Application → Bool → System → Ending × World UefiFirmware := mainIn ⟨.empty⟩

end Application

end BootLoader.Uefi
