import BootLoader.Bytes
import BootLoader.Text.Hex

/-! Byte code as text: 32 bytes a line, in capital digits, each line closed by line feed and
carriage return. -/

namespace BootLoader.Acpi.HexDump

open Text

def bytesPerLine : Nat := 32

/-- The bytes line by line; only the last line may be short. -/
def rows (bs : Bytes) : List Bytes :=
  (List.range ((bs.size + bytesPerLine - 1) / bytesPerLine)).map fun i =>
    bs.slice (bytesPerLine * i) bytesPerLine

def line (row : Bytes) : String :=
  row.fold (fun s b => (s.push (Hex.highDigit b)).push (Hex.lowDigit b)) "" ++ "\n\r"

def render (bs : Bytes) : String := String.join ((rows bs).map line)

end BootLoader.Acpi.HexDump
