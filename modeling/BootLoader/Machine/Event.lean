import BootLoader.Firmware.Interface
import BootLoader.Platform.Basic
import BootLoader.Platform.Payload

/-! What a boot does that matters to the outside: hooks, calls to the firmware, and the phases in
which it writes memory. -/

namespace BootLoader

inductive WritePhase where
  | preparationClear | placeHypervisor | placeKernel | cleanupClear
deriving DecidableEq, Inhabited

def WritePhase.ofClear : ClearPhase → WritePhase
  | .preparation => preparationClear
  | .cleanup => cleanupClear

/-- one thing that happened; a call to the firmware comes with its answer -/
inductive Event where
  | hook (h : Hook)
  | bootHart (answer : Option UInt64)
  | memoryMap (buffer : Region) (answer : MapQuery)
  | allocate (size : Nat) (answer : Except Status Region)
  | quiesce
  | exit (key : MapKey) (answer : Except Status Unit)
  | writes (phase : WritePhase)

end BootLoader
