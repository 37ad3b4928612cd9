import BootLoader.Bytes
import BootLoader.Memory.Region

/-!
Physical memory as a list of windows, each a run of bytes from a base address on. An access
belongs to the first window that holds all of it; an access that no single window holds is not
mapped. `byte?` is the view of a memory as a partial function from addresses to bytes.
-/

namespace BootLoader

open Text

structure Window where
  base : Address
  bytes : Bytes

namespace Window

/-- Where in the window the `n` bytes at `a` lie, if all of them do. -/
def offset? (w : Window) (a : Address) (n : Nat) : Option Nat :=
  if w.base.toNat ≤ a.toNat ∧ a.toNat - w.base.toNat + n ≤ w.bytes.size then
    some (a.toNat - w.base.toNat)
  else none

def put (w : Window) (off : Nat) (data : Bytes) : Window :=
  { w with bytes := w.bytes.overwrite off data }

/-- The byte at the address `x`, a number that may lie past the last address. -/
def byte? (w : Window) (x : Nat) : Option UInt8 :=
  if w.base.toNat ≤ x then w.bytes.get? (x - w.base.toNat) else none

end Window

/-- the windows in order of precedence -/
structure Memory where
  windows : List Window

namespace Memory

def empty : Memory := ⟨[]⟩

/-- One more window of zeroes, after all others. -/
def addWindow (m : Memory) (base : Address) (len : Nat) : Memory :=
  ⟨m.windows ++ [⟨base, .filled len 0⟩]⟩

def read? (m : Memory) (a : Address) (n : Nat) : Option Bytes :=
  m.windows.findSome? fun w => (w.offset? a n).map fun off => w.bytes.slice off n

def isMapped (m : Memory) (a : Address) (n : Nat) : Bool :=
  m.windows.any fun w => (w.offset? a n).isSome

/-- Put `data` into the first window that holds the whole range, and say whether there is one. -/
def putFirst (a : Address) (data : Bytes) : List Window → Bool × List Window
  | [] => (false, [])
  | w :: ws =>
    match w.offset? a data.size with
    | some off => (true, w.put off data :: ws)
    | none =>
      let (found, ws) := putFirst a data ws
      (found, w :: ws)

/-- Put `data` at `a`, and say whether the range is mapped; if it is not, nothing changes. -/
def write (m : Memory) (a : Address) (data : Bytes) : Bool × Memory :=
  let (found, windows) := putFirst a data m.windows
  (found, ⟨windows⟩)

def byte? (m : Memory) (x : Nat) : Option UInt8 := m.windows.findSome? (·.byte? x)

/-- a direct access to bytes that no window holds -/
inductive Fault where
  | read (address : Address) (len : Nat)
  | write (address : Address) (len : Nat)
deriving DecidableEq

def Fault.message : Fault → String
  | read address len => s!"read from unmapped {address.hex} (+{Hex.marked len})"
  | write address len => s!"write to unmapped {address.hex} (+{Hex.marked len})"

def peek (m : Memory) (a : Address) (n : Nat) : Except Fault Bytes :=
  match m.read? a n with
  | some bs => .ok bs
  | none => .error (.read a n)

def poke (m : Memory) (a : Address) (data : Bytes) : Except Fault Unit × Memory :=
  match m.write a data with
  | (true, m) => (.ok (), m)
  | (false, m) => (.error (.write a data.size), m)

/-! ## Facts -/

theorem isMapped_iff {m : Memory} {a : Address} {n : Nat} :
    m.isMapped a n = (m.read? a n).isSome := by
  simp only [isMapped, read?, List.isSome_findSome?, Option.isSome_map]

theorem putFirst_found (a : Address) (data : Bytes) (ws : List Window) :
    (putFirst a data ws).1 = ws.any fun w => (w.offset? a data.size).isSome := by
  induction ws with
  | nil => rfl
  | cons w ws ih =>
    rw [putFirst, List.any_cons]
    split
    · rename_i h
      rw [h, Option.isSome_some, Bool.true_or]
    · rename_i h
      rw [h, Option.isSome_none, Bool.false_or, ← ih]

theorem putFirst_eq_self {a : Address} {data : Bytes} {ws : List Window}
    (h : (putFirst a data ws).1 = false) : (putFirst a data ws).2 = ws := by
  induction ws with
  | nil => rfl
  | cons w ws ih =>
    rw [putFirst] at h ⊢
    split
    · rename_i hw
      rw [hw] at h
      exact absurd h Bool.noConfusion
    · rename_i hw
      rw [hw] at h
      exact congrArg (w :: ·) (ih h)

theorem write_found (m : Memory) (a : Address) (data : Bytes) :
    (m.write a data).1 = m.isMapped a data.size := putFirst_found a data m.windows

/-- A write to a range that is not mapped changes nothing. -/
theorem write_eq_self {m : Memory} {a : Address} {data : Bytes}
    (h : m.isMapped a data.size = false) : (m.write a data).2 = m := by
  rw [← write_found] at h
  exact congrArg Memory.mk (putFirst_eq_self h)

end Memory

end BootLoader
