import BootLoader.Acpi.ConfigEntry
import BootLoader.Firmware.Status
import BootLoader.Log
import BootLoader.Memory.Region

/-!
What the loader needs from the firmware that started it. Nothing is assumed of an instance: any
answer may come to any call.
-/

namespace BootLoader

/-- the name of one state of the memory map -/
structure MapKey where
  word : UInt64
deriving DecidableEq, Inhabited

structure MapLayout where
  mapSize : Nat
  descriptorSize : Nat
  descriptorVersion : UInt32
deriving DecidableEq, Inhabited

inductive MapQuery where
  | filled (key : MapKey) (layout : MapLayout)
  | bufferTooSmall (required descriptorSize : Nat)
  | failed (status : Status)
deriving DecidableEq, Inhabited

structure HartReply where
  /-- `none` where the firmware cannot tell -/
  hart : Option UInt64
  /-- what is to be said about it -/
  said : List Line

/-- something that log lines can be sent to -/
class Console (φ : Type) where
  print : Line → φ → φ

class Firmware (φ : Type) extends Console φ where
  /-- the published tables -/
  entries : φ → List Acpi.ConfigEntry
  systemTable : φ → Address
  /-- where the running loader is -/
  loaderImage : φ → Region
  /-- the hart the loader runs on -/
  bootHart : φ → HartReply × φ
  /-- close what the question for the hart has opened -/
  releaseHart : φ → φ
  /-- write the memory map into a buffer -/
  memoryMap : Region → φ → MapQuery × φ
  /-- memory that outlives the firmware -/
  allocate : Nat → φ → Except Status Region × φ
  /-- last call before the final memory map; no console output from here on -/
  quiesce : φ → φ
  /-- end the firmware's services -/
  exit : MapKey → φ → Except Status Unit × φ

end BootLoader
