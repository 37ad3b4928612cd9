/-! Status codes of the firmware: zero is success, the highest bit marks an error, anything else
is a warning. -/

namespace BootLoader

structure Status where
  code : UInt64
deriving DecidableEq, Inhabited

namespace Status

def success : Status := ⟨0⟩

def errorBit : UInt64 := 0x8000000000000000

/-- The error with the given low part. -/
def error (n : UInt64) : Status := ⟨errorBit ||| n⟩

def isSuccess (s : Status) : Bool := s.code == 0

def isError (s : Status) : Bool := s.code &&& errorBit != 0

def loadError : Status := error 1

def invalidParameter : Status := error 2

def unsupported : Status := error 3

def badBufferSize : Status := error 4

def bufferTooSmall : Status := error 5

def deviceError : Status := error 7

def outOfResources : Status := error 9

def notFound : Status := error 14

def accessDenied : Status := error 15

def noMapping : Status := error 17

def notStarted : Status := error 19

def aborted : Status := error 21

def names : List (Status × String) := [
  (success, "SUCCESS"),
  (⟨1⟩, "WARN_UNKNOWN_GLYPH"),
  (⟨2⟩, "WARN_DELETE_FAILURE"),
  (⟨3⟩, "WARN_WRITE_FAILURE"),
  (⟨4⟩, "WARN_BUFFER_TOO_SMALL"),
  (⟨5⟩, "WARN_STALE_DATA"),
  (⟨6⟩, "WARN_FILE_SYSTEM"),
  (⟨7⟩, "WARN_RESET_REQUIRED"),
  (loadError, "LOAD_ERROR"),
  (invalidParameter, "INVALID_PARAMETER"),
  (unsupported, "UNSUPPORTED"),
  (badBufferSize, "BAD_BUFFER_SIZE"),
  (bufferTooSmall, "BUFFER_TOO_SMALL"),
  (error 6, "NOT_READY"),
  (deviceError, "DEVICE_ERROR"),
  (error 8, "WRITE_PROTECTED"),
  (outOfResources, "OUT_OF_RESOURCES"),
  (error 10, "VOLUME_CORRUPTED"),
  (error 11, "VOLUME_FULL"),
  (error 12, "NO_MEDIA"),
  (error 13, "MEDIA_CHANGED"),
  (notFound, "NOT_FOUND"),
  (accessDenied, "ACCESS_DENIED"),
  (error 16, "NO_RESPONSE"),
  (noMapping, "NO_MAPPING"),
  (error 18, "TIMEOUT"),
  (notStarted, "NOT_STARTED"),
  (error 20, "ALREADY_STARTED"),
  (aborted, "ABORTED"),
  (error 22, "ICMP_ERROR"),
  (error 23, "TFTP_ERROR"),
  (error 24, "PROTOCOL_ERROR"),
  (error 25, "INCOMPATIBLE_VERSION"),
  (error 26, "SECURITY_VIOLATION"),
  (error 27, "CRC_ERROR"),
  (error 28, "END_OF_MEDIA"),
  (error 31, "END_OF_FILE"),
  (error 32, "INVALID_LANGUAGE"),
  (error 33, "COMPROMISED_DATA"),
  (error 34, "IP_ADDRESS_CONFLICT"),
  (error 35, "HTTP_ERROR") ]

def render (s : Status) : String :=
  match names.find? (·.1 == s) with
  | some (_, name) => name
  | none => s!"Status({s.code})"

instance : ToString Status := ⟨render⟩

end Status

end BootLoader
