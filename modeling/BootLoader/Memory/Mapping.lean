import BootLoader.Memory.Error
import BootLoader.Memory.Window

/-!
Ways to reach physical memory: through windows, or where the firmware maps every address to
itself. `copy`, `fill` and `verify` work through either and touch a range as a whole or not at
all.
-/

namespace BootLoader

class Mapping (μ : Type) where
  /-- the bytes of a range; `none` if it is not mapped -/
  read? : μ → Address → Nat → Option Bytes
  /-- put bytes in place, and say whether the range is mapped; if it is not, nothing changes -/
  write : μ → Address → Bytes → Bool × μ

instance : Mapping Memory := ⟨Memory.read?, Memory.write⟩

/-- The firmware's own mapping, where address and memory are the same. The null address is never
handed out, nor is a range that reaches past the last address. -/
structure IdentityMap where
  memory : Memory

namespace IdentityMap

def admits (a : Address) (n : Nat) : Bool := !a.isNull && a.toNat + n < Address.space

def read? (m : IdentityMap) (a : Address) (n : Nat) : Option Bytes :=
  if admits a n then (if n = 0 then some .empty else m.memory.read? a n) else none

def write (m : IdentityMap) (a : Address) (data : Bytes) : Bool × IdentityMap :=
  if admits a data.size then
    if data.isEmpty then (true, m)
    else
      let (found, memory) := m.memory.write a data
      (found, ⟨memory⟩)
  else (false, m)

instance : Mapping IdentityMap := ⟨read?, write⟩

end IdentityMap

namespace Mapping

variable {μ : Type} [Mapping μ]

/-- A write, with a complaint if the range is not mapped. -/
def place (m : μ) (a : Address) (data : Bytes) : Except MemoryError Unit × μ :=
  match write m a data with
  | (true, m) => (.ok (), m)
  | (false, m) => (.error (.unmapped a data.size), m)

/-- `src` put at `dst`; nothing to copy needs no memory. -/
def copy (m : μ) (dst : Address) (src : Bytes) : Except MemoryError Unit × μ :=
  if src.isEmpty then (.ok (), m) else place m dst src

def fill (m : μ) (r : Region) (value : UInt8) : Except MemoryError Unit × μ :=
  if r.isEmpty then (.ok (), m)
  else if (read? m r.start r.len).isNone then (.error (.unmapped r.start r.len), m)
  else place m r.start (.filled r.len value)

/-- Whether every byte of `r` is `value`; else the first that is not. -/
def verify (m : μ) (r : Region) (value : UInt8) : Except MemoryError Unit :=
  if r.isEmpty then .ok ()
  else
    match read? m r.start r.len with
    | none => .error (.unmapped r.start r.len)
    | some bs =>
      match bs.deviation? value with
      | none => .ok ()
      | some (found, i) => .error (.mismatch (r.start.plus i) value found)

end Mapping

end BootLoader
