import BootLoader.Acpi.Error
import BootLoader.Firmware.Status
import BootLoader.Handoff.State
import BootLoader.Pe.Error
import BootLoader.Platform.Error
import BootLoader.Platform.Payload

/-! Why a boot fails: what went wrong, how grave it is, and what to tell the firmware. -/

namespace BootLoader

open Acpi Pe

inductive ConfigError where
  | unsupportedArch
  | missingPayload (role : PayloadRole)
  | payloadOverlapsLoader (role : PayloadRole) (destination loader : Region)
  | payloadsOverlap (hypervisor kernel : Region)
deriving DecidableEq

def ConfigError.kind : ConfigError → String
  | unsupportedArch => "UnsupportedArch"
  | missingPayload _ => "MissingPayload"
  | payloadOverlapsLoader .. => "PayloadOverlapsLoader"
  | payloadsOverlap .. => "PayloadsOverlap"

def ConfigError.message : ConfigError → String
  | unsupportedArch => "no architecture descriptor is compiled in for this target"
  | missingPayload role => s!"the {role} payload is empty"
  | payloadOverlapsLoader role destination loader =>
    s!"{role} payload destination {destination} overlaps the loader image {loader}"
  | payloadsOverlap hypervisor kernel =>
    s!"payload destinations {hypervisor} and {kernel} overlap"

inductive FirmwareError where
  | unexpectedProbe (status : Status)
  | probeFilled
  | allocationFailed (size : Nat) (status : Status)
  | mapQueryFailed (status : Status)
  | mapGrew (required available : Nat)
  | exitFailed (status : Status)
deriving DecidableEq

def FirmwareError.kind : FirmwareError → String
  | unexpectedProbe _ => "UnexpectedProbe"
  | probeFilled => "ProbeFilled"
  | allocationFailed .. => "AllocationFailed"
  | mapQueryFailed _ => "MapQueryFailed"
  | mapGrew .. => "MapGrew"
  | exitFailed _ => "ExitFailed"

def FirmwareError.message : FirmwareError → String
  | unexpectedProbe status =>
    s!"memory map probe returned {status} instead of BUFFER_TOO_SMALL"
  | probeFilled => "memory map probe succeeded with an empty buffer"
  | allocationFailed size status => s!"pool allocation of {size} bytes failed: {status}"
  | mapQueryFailed status => s!"memory map query failed: {status}"
  | mapGrew required available =>
    s!"memory map needs {required} bytes, only {available} were reserved"
  | exitFailed status => s!"ExitBootServices failed: {status}"

/-- how a failure is handled -/
inductive ErrorClass where
  /-- wrong from the start -/
  | configuration
  /-- the firmware or the machine broke its word -/
  | firmwareContract
  /-- a payload is not what it should be -/
  | formatValidation
  /-- nothing but the dump is affected -/
  | diagnosticOnly
deriving DecidableEq, Inhabited

namespace ErrorClass

def inspect : ErrorClass → String
  | configuration => "Configuration"
  | firmwareContract => "FirmwareContract"
  | formatValidation => "FormatValidation"
  | diagnosticOnly => "DiagnosticOnly"

def isFatal (c : ErrorClass) : Bool := c != diagnosticOnly

end ErrorClass

inductive BootError where
  | config (cause : ConfigError)
  | firmware (cause : FirmwareError)
  | platform (cause : PlatformError)
  | payload (role : PayloadRole) (cause : PeError)
  | memory (cause : MemoryError)
  | unsafeClear (region protectedRegion : Region)
  | diagnostic (cause : WalkError)
  | outOfOrder (state : BootState)
deriving DecidableEq

namespace BootError

/-- A platform's error as the boot's. What is not the platform's own fault stands for itself. -/
def ofPlatform : PlatformError → BootError
  | .unsafeClear region protectedRegion => unsafeClear region protectedRegion
  | .memory cause => memory cause
  | cause => platform cause

def kind : BootError → String
  | config e => "Config." ++ e.kind
  | firmware e => "Firmware." ++ e.kind
  | platform e => "Arch." ++ e.kind
  | payload _ e => "Payload." ++ e.kind
  | memory e => "Memory." ++ e.kind
  | unsafeClear .. => "UnsafeClear"
  | diagnostic e => "Diagnostic." ++ e.kind
  | outOfOrder _ => "OutOfOrder"

def message : BootError → String
  | config cause => cause.message
  | firmware cause => cause.message
  | platform cause => cause.message
  | payload role cause => s!"{role} payload: {cause.message}"
  | memory cause => cause.message
  | unsafeClear region protectedRegion =>
    (PlatformError.unsafeClear region protectedRegion).message
  | diagnostic cause => s!"firmware table walk: {cause.message}"
  | outOfOrder state => s!"{state.inspect} cannot be reached in the current state"

instance : ToString BootError := ⟨message⟩

def errorClass : BootError → ErrorClass
  | config _ => .configuration
  | firmware _ => .firmwareContract
  | platform .unbound => .configuration
  | platform (.alreadyBound ..) => .configuration
  | platform (.foreignTarget _) => .configuration
  | platform _ => .firmwareContract
  | payload .. => .formatValidation
  | memory _ => .firmwareContract
  | unsafeClear .. => .configuration
  | diagnostic _ => .diagnosticOnly
  | outOfOrder _ => .configuration

/-- What to answer to whoever started the loader. -/
def status : BootError → Status
  | config (.missingPayload _) => .notFound
  | config _ => .unsupported
  | firmware (.unexpectedProbe s) => s
  | firmware (.mapQueryFailed s) => s
  | firmware (.exitFailed s) => s
  | firmware (.allocationFailed ..) => .outOfResources
  | firmware .probeFilled => .bufferTooSmall
  | firmware (.mapGrew ..) => .bufferTooSmall
  | platform _ => .unsupported
  | payload .. => .loadError
  | memory (.unmapped ..) => .noMapping
  | memory (.mismatch ..) => .deviceError
  | unsafeClear .. => .accessDenied
  | diagnostic _ => .notFound
  | outOfOrder _ => .unsupported

end BootError

end BootLoader
