import BootLoader.Firmware.Interface

/-!
A firmware that answers from lists. An empty place in a list, or the end of it, stands for the
answer a well-behaved firmware gives: the map fits or it does not, the pool has a limit, and the
exit wants the key of the last map that was handed out.
-/

namespace BootLoader

structure ScriptedFirmware where
  entries : List Acpi.ConfigEntry
  loaderImage : Region
  systemTable : Address
  hart : Option UInt64
  layout : MapLayout
  /-- how much each allocation adds to the memory map -/
  grow : Nat
  mapAnswers : List (Option MapQuery)
  allocationFailures : List (Option Status)
  exitFailures : List (Option Status)
  /-- the key that an exit may use -/
  issued : Option MapKey
  /-- requests for the memory map so far -/
  queries : Nat
  /-- what was printed, newest first -/
  printed : List Line

namespace ScriptedFirmware

def plain : ScriptedFirmware where
  entries := []
  loaderImage := .ofNat 0x70000000 0x100000
  systemTable := .ofNat 0x7E000000
  hart := none
  layout := ⟨1920, 48, 1⟩
  grow := 0
  mapAnswers := []
  allocationFailures := []
  exitFailures := []
  issued := none
  queries := 0
  printed := []

def next {α : Type} : List (Option α) → Option α × List (Option α)
  | [] => (none, [])
  | a :: rest => (a, rest)

/-- Keys count the requests from here on. -/
def firstKey : Nat := 0x1000

def poolLimit : Nat := 0x100000

/-- Where every allocation is. -/
def poolAddress : Address := .ofNat 0x2000000000

/-- The answer that the state of the map calls for; `queries` counts this request too. -/
def fairMap (f : ScriptedFirmware) (buffer : Region) (queries : Nat) : MapQuery :=
  if buffer.len < f.layout.mapSize then
    .bufferTooSmall f.layout.mapSize f.layout.descriptorSize
  else .filled ⟨.ofNat (firstKey + queries)⟩ f.layout

def issuedBy : MapQuery → Option MapKey
  | .filled key _ => some key
  | _ => none

def memoryMap (buffer : Region) (f : ScriptedFirmware) : MapQuery × ScriptedFirmware :=
  let queries := f.queries + 1
  let (scripted, mapAnswers) := next f.mapAnswers
  let answer := scripted.getD (f.fairMap buffer queries)
  (answer, { f with queries, mapAnswers, issued := issuedBy answer })

def allocate (size : Nat) (f : ScriptedFirmware) : Except Status Region × ScriptedFirmware :=
  let (failure, allocationFailures) := next f.allocationFailures
  let f := { f with allocationFailures, issued := none }
  match failure with
  | some status => (.error status, f)
  | none =>
    if poolLimit < size then (.error .outOfResources, f)
    else
      (.ok ⟨poolAddress, size⟩,
        { f with layout := { f.layout with mapSize := f.layout.mapSize + f.grow } })

def exit (key : MapKey) (f : ScriptedFirmware) : Except Status Unit × ScriptedFirmware :=
  let (failure, exitFailures) := next f.exitFailures
  let f := { f with exitFailures }
  match failure with
  | some status => (.error status, f)
  | none => if f.issued = some key then (.ok (), f) else (.error .invalidParameter, f)

instance : Firmware ScriptedFirmware where
  print line f := { f with printed := line :: f.printed }
  entries := entries
  systemTable := systemTable
  loaderImage := loaderImage
  bootHart f := (⟨f.hart, []⟩, f)
  releaseHart f := f
  memoryMap := memoryMap
  allocate := allocate
  quiesce f := f
  exit := exit

end ScriptedFirmware

end BootLoader
