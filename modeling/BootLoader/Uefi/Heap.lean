import BootLoader.Bytes
import BootLoader.Firmware.Status
import BootLoader.Memory.Address

/-!
An allocator on top of a pool that knows no alignment. It asks for more than it needs, moves up to
the next aligned address that leaves room for a header, and notes there what the pool gave it, so
that it can be given back.
-/

namespace BootLoader.Uefi

/-- the bytes of the blocks that were handed out, by address -/
abbrev Heap := Nat → UInt8

namespace Heap

def zeroed : Heap := fun _ => 0

def put (h : Heap) (a : Nat) (data : List UInt8) : Heap := fun x =>
  if a ≤ x then (data[x - a]?).getD (h x) else h x

def take (h : Heap) (a n : Nat) : List UInt8 := (List.range n).map fun i => h (a + i)

end Heap

/-- a pool of memory; nothing is assumed of what it answers -/
class Pool (σ : Type) where
  allocate : Nat → σ → Except Status Address × σ
  free : Address → σ → σ

inductive AddressFault where
  /-- past the last one -/
  | overflow
  /-- before the first one -/
  | underflow
deriving DecidableEq

def AddressFault.message : AddressFault → String
  | overflow => "attempt to add with overflow"
  | underflow => "attempt to subtract with overflow"

structure Allocator (σ : Type) where
  services : σ
  heap : Heap
  /-- the pool is gone: nothing more is handed out or given back -/
  retired : Bool

namespace Allocator

/-- Size of the note before a block. -/
def headerSize : Nat := 8

def alignment (align : Nat) : Nat := max align headerSize

/-- How much to ask for: the block, the header, and whatever moving up may cost. -/
def total? (size align : Nat) : Option Nat :=
  let n := max size 1 + alignment align + headerSize
  if n < Address.space then some n else none

def roundUp (n a : Nat) : Nat := (n + (a - 1)) / a * a

def blockStart (raw align : Nat) : Nat := roundUp (raw + headerSize) (alignment align)

/-- Moving up must not lead past the last address, wherever it stops. -/
def blockStart? (raw align : Nat) : Option Nat :=
  if raw + headerSize + (alignment align - 1) < Address.space then some (blockStart raw align)
  else none

variable {σ : Type} [Pool σ]

def alloc (size align : Nat) (a : Allocator σ) : Except AddressFault Address × Allocator σ :=
  if a.retired then (.ok .zero, a)
  else
    match total? size align with
    | none => (.ok .zero, a)
    | some total =>
      match Pool.allocate total a.services with
      | (.error _, services) => (.ok .zero, { a with services })
      | (.ok raw, services) =>
        match blockStart? raw.toNat align with
        | none => (.error .overflow, { a with services })
        | some start =>
          let note := Bytes.ofNatLE headerSize raw.toNat
          (.ok (.ofNat start),
            { a with services, heap := a.heap.put (start - headerSize) note })

/-- What the header before a block says. -/
def origin (a : Allocator σ) (block : Address) : Address :=
  .ofNat (Bytes.leNat (a.heap.take (block.toNat - headerSize) headerSize))

/-- Give a block back. There must be addresses for a header before it. -/
def dealloc (block : Address) (a : Allocator σ) : Except AddressFault (Allocator σ) :=
  if block.isNull || a.retired then .ok a
  else if block.toNat < headerSize then .error .underflow
  else
    let raw := a.origin block
    .ok (if raw.isNull then a else { a with services := Pool.free raw a.services })

end Allocator

end BootLoader.Uefi
