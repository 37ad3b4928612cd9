import BootLoader.Acpi.ConfigEntry
import BootLoader.Firmware.Interface
import BootLoader.Platform.Arch
import BootLoader.Uefi.Heap

/-!
The system table of the firmware, with the services behind it. What it answers is listed in
advance; every call is noted. Some calls are made through a layer that breaks down where a table
is missing, the others check for it.
-/

namespace BootLoader.Uefi

structure Guid where
  text : String
deriving DecidableEq

namespace Guid

/-- The case of the digits does not matter. -/
def ofText (s : String) : Guid := ⟨String.ofList (s.toList.map Char.toLower)⟩

def acpi1 : Guid := ⟨"eb9d2d30-2d88-11d3-9a16-0090273fc14d"⟩

def acpi2 : Guid := ⟨"8868e871-e4f1-11d3-bc22-0080c73c8881"⟩

def deviceTree : Guid := ⟨"b1b621d5-f19c-41a5-830b-d9152c69aae0"⟩

/-- The protocol that tells where a running image is. -/
def loadedImage : Guid := ⟨"5b1b31a1-9562-11d2-8e3f-00a0c969723b"⟩

/-- The protocol that names the boot hart of riscv64. -/
def riscvBoot : Guid := ⟨"ccd15fec-6f73-4eec-8395-3e69e4b940bf"⟩

def classify (g : Guid) : Acpi.EntryKind :=
  if g = acpi2 then .acpi2
  else if g = acpi1 then .acpi1
  else if g = deviceTree then .deviceTree
  else .other

end Guid

/-- a call that a loader makes whatever it was built for -/
inductive SystemCall where
  | getMemoryMap (size : Nat) (nullBuffer : Bool)
  | allocatePool (memoryType size : Nat)
  | freePool (address : Address)
  | exitBootServices (key : MapKey)
  | openProtocol (guid : Guid) (attributes : Nat)
  | closeProtocol (guid : Guid)
  /-- text for the console, as it gets there -/
  | output (text : String)
deriving DecidableEq

/-- a call that only a loader for riscv64 makes -/
inductive HartCall where
  /-- who publishes a protocol of that name? -/
  | locateHandles (guid : Guid)
  /-- to the protocol, not to the table -/
  | getBootHartId
deriving DecidableEq

inductive Call where
  | system (c : SystemCall)
  | hart (c : HartCall)
deriving DecidableEq

namespace Call

def printed : Call → String
  | system (.output text) => text
  | _ => ""

/-- Whether a call asks for a service, rather than the console. -/
def isService : Call → Bool
  | system (.output _) => false
  | _ => true

def system? : Call → Option SystemCall
  | system c => some c
  | hart _ => none

end Call

structure MapAnswer where
  status : Status
  key : MapKey
  layout : MapLayout

structure ImageAnswer where
  status : Status
  region : Region

structure HartAnswer where
  /-- of the search for the protocol -/
  search : Status
  /-- where the handles are listed that publish it, and how many these are -/
  list : Address
  handles : Nat
  /-- of opening the first of them -/
  opening : Status
  /-- of the protocol's own function -/
  reading : Status
  hart : UInt64

namespace HartAnswer

def absent : HartAnswer := ⟨.notFound, .zero, 0, .notFound, .notFound, 0⟩

end HartAnswer

inductive HartFailure where
  /-- the search for the protocol did not find it -/
  | unpublished (status : Status)
  /-- it cannot be opened -/
  | refused
  /-- it is open but names no hart -/
  | unnamed (status : Status)
deriving DecidableEq

structure System where
  /-- the instruction set it runs on, if it is one of these; the loader was built for the same -/
  target : Option Arch
  /-- where the table is -/
  address : Address
  tables : List (Guid × Address)
  image : ImageAnswer
  /-- what the next questions for the boot hart come upon; at the end of the list, no protocol -/
  harts : List HartAnswer
  /-- whether the protocol that names the boot hart is open -/
  hartOpen : Bool
  maps : List MapAnswer
  /-- what the next allocations answer, where they do not go well -/
  poolFailures : List (Option Status)
  /-- what the next attempts to exit answer, where it is not success -/
  exitAnswers : List (Option Status)
  /-- where the pool is -/
  poolBase : Nat
  /-- how far into the pool the first block is -/
  poolOffset : Nat
  /-- no allocation is larger -/
  poolLimit : Nat
  /-- bytes handed out so far -/
  granted : Nat
  tablePresent : Bool
  servicesPresent : Bool
  /-- everything the firmware was asked to do, newest first -/
  calls : List Call
  /-- why the loader broke down, if it did -/
  crash : Option String

namespace System

def plain : System where
  target := Arch.configured
  address := .ofNat 0x3000000000
  tables := []
  image := ⟨.success, .ofNat 0x70000000 0x100000⟩
  harts := []
  hartOpen := false
  maps := []
  poolFailures := []
  exitAnswers := []
  poolBase := 0x2000000000
  poolOffset := 0
  poolLimit := 0x10000
  granted := 0
  tablePresent := true
  servicesPresent := true
  calls := []
  crash := none

/-- Memory for the data of a loader. -/
def loaderData : Nat := 2

/-- A protocol that nobody else may hold. -/
def exclusive : Nat := 0x20

def note (s : System) (c : Call) : System := { s with calls := c :: s.calls }

/-- The first breakdown is the one that counts. -/
def crashWith (s : System) (why : String) : System := { s with crash := s.crash.or (some why) }

/-- Why the services cannot be reached through the layer that needs them. -/
def outOfReach? (s : System) : Option String :=
  if !s.tablePresent then some "global system table pointer is not set"
  else if !s.servicesPresent then some "boot services are not active"
  else none

/-! ## The console -/

/-- Whether the console has a code for a character. -/
def hasCode (c : Char) : Bool := c.toNat != 0 && c.toNat < 0x10000

/-- A line feed reaches the console with a carriage return before it. -/
def consoleText (s : String) : String :=
  String.ofList (s.toList.flatMap fun c => if c = '\n' then ['\r', '\n'] else [c])

def ready (s : System) : Bool := s.tablePresent && s.servicesPresent

/-- Without the services nothing is printed, whatever the text is. -/
def print (s : System) (text : String) : System :=
  if !s.ready then s
  else if text.toList.all hasCode then s.note (.system (.output (consoleText text)))
  else s.crashWith "Failed to write to stdout: Error"

def consoleOutput (s : System) : String := String.join (s.calls.reverse.map (·.printed))

/-- The services that were asked for through the table whatever the loader was built for, oldest
first. -/
def serviceCalls (s : System) : List SystemCall :=
  ((s.calls.filter (·.isService)).filterMap (·.system?)).reverse

/-! ## Calls that check for the services -/

/-- The memory map; a list that is used up answers with an error of the device. -/
def memoryMap (buffer : Region) (s : System) : MapQuery × System :=
  if s.ready then
    let s := s.note (.system (.getMemoryMap buffer.len buffer.isEmpty))
    match s.maps with
    | [] => (.failed .deviceError, s)
    | answer :: maps =>
      let s := { s with maps }
      if answer.status = .bufferTooSmall then
        (.bufferTooSmall answer.layout.mapSize answer.layout.descriptorSize, s)
      else if answer.status.isSuccess then (.filled answer.key answer.layout, s)
      else (.failed answer.status, s)
  else (.failed .notStarted, s)

def nextAnswer : List (Option Status) → Option Status × List (Option Status)
  | [] => (none, [])
  | a :: rest => (a, rest)

/-- End the services. A warning is as good as success. -/
def exit (key : MapKey) (s : System) : Except Status Unit × System :=
  if s.ready then
    let (answer, exitAnswers) := nextAnswer s.exitAnswers
    let s := { s.note (.system (.exitBootServices key)) with exitAnswers }
    let status := answer.getD .success
    if status.isError then (.error status, s) else (.ok (), s)
  else (.error .notStarted, s)

/-! ## Calls that need the services -/

def noAddress : String := "allocate_pool must not return a null pointer if successful"

/-- A block of the pool. To call it a success and give no address is a breakdown. -/
def allocatePool (size : Nat) (s : System) : Except Status Address × System :=
  match s.outOfReach? with
  | some why => (.error .notStarted, s.crashWith why)
  | none =>
    let (failure, poolFailures) := nextAnswer s.poolFailures
    let s := { s.note (.system (.allocatePool loaderData size)) with poolFailures }
    match failure with
    | some status => (.error status, if status.isSuccess then s.crashWith noAddress else s)
    | none =>
      if s.poolLimit < size then (.error .outOfResources, s)
      else
        let block := Address.ofNat (s.poolBase + s.poolOffset + s.granted)
        let s := { s with granted := s.granted + size }
        if block.isNull then (.error .success, s.crashWith noAddress) else (.ok block, s)

def freePool (a : Address) (s : System) : System :=
  match s.outOfReach? with
  | some why => s.crashWith why
  | none => s.note (.system (.freePool a))

instance : Pool System := ⟨allocatePool, freePool⟩

/-- Where the running image is. It is opened and closed again. -/
def loaderImage (s : System) : Except Status Region × System :=
  match s.outOfReach? with
  | some why => (.error .notStarted, s.crashWith why)
  | none =>
    let s := s.note (.system (.openProtocol .loadedImage exclusive))
    if s.image.status.isSuccess then
      (.ok s.image.region, s.note (.system (.closeProtocol .loadedImage)))
    else (.error s.image.status, s)

/-! ## The boot hart -/

def noHandles : String := "locate_handle_buffer must not return a null pointer"

/-- Search for the protocol. The list of its handles is given back at once. -/
def locateHart (answer : HartAnswer) (s : System) : Except Status Unit × System :=
  let s := s.note (.hart (.locateHandles .riscvBoot))
  if !answer.search.isSuccess then (.error answer.search, s)
  else if answer.list.isNull then (.error .notFound, s.crashWith noHandles)
  else (if answer.handles = 0 then .error .notFound else .ok (), s.freePool answer.list)

/-- Open the protocol and ask it. It stays open after that. -/
def askHart (answer : HartAnswer) (s : System) : Except HartFailure UInt64 × System :=
  let s := s.note (.system (.openProtocol .riscvBoot exclusive))
  if !answer.opening.isSuccess then (.error .refused, s)
  else
    let s := { s.note (.hart .getBootHartId) with hartOpen := true }
    (if answer.reading.isError then .error (.unnamed answer.reading) else .ok answer.hart, s)

def bootHart (s : System) : Except HartFailure UInt64 × System :=
  match s.outOfReach? with
  | some why => (.error .refused, s.crashWith why)
  | none =>
    let answer := s.harts.head?.getD .absent
    match locateHart answer { s with harts := s.harts.tail } with
    | (.error status, s) => (.error (.unpublished status), s)
    | (.ok _, s) => askHart answer s

def releaseHart (s : System) : System :=
  if s.hartOpen then { s.note (.system (.closeProtocol .riscvBoot)) with hartOpen := false } else s

def entries (s : System) : List Acpi.ConfigEntry :=
  s.tables.map fun (guid, address) => ⟨guid.classify, address⟩

end System

end BootLoader.Uefi
