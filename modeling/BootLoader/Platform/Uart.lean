/-! A serial line. It takes bytes until it has no room left, and may refuse any byte before that. -/

namespace BootLoader

structure Uart where
  /-- how many more bytes it takes; `none` for no limit -/
  room : Option Nat
  /-- which of the bytes to come it refuses whatever the room; a list that is used up refuses none -/
  refusals : List Bool
  /-- what it took, newest first -/
  taken : List UInt8
  /-- what has arrived on it and was not read yet -/
  waiting : List UInt8
deriving Inhabited

namespace Uart

def endless : Uart := ⟨none, [], [], []⟩

/-- What it took, oldest first. -/
def received (u : Uart) : List UInt8 := u.taken.reverse

def take (u : Uart) (b : UInt8) : Uart := { u with taken := b :: u.taken }

def put (u : Uart) (b : UInt8) : Bool × Uart :=
  match u.refusals with
  | true :: rest => (false, { u with refusals := rest })
  | refusals =>
    let u := { u with refusals := refusals.tail }
    match u.room with
    | none => (true, u.take b)
    | some 0 => (false, u)
    | some (n + 1) => (true, { u.take b with room := some n })

/-- Bytes up to the first that is refused, and whether none was. A line feed brings a carriage
return, which goes first. -/
def write (put : Uart → UInt8 → Bool × Uart) : List UInt8 → Uart → Bool × Uart
  | [], u => (true, u)
  | b :: bs, u =>
    match if b = 10 then put u 13 else (true, u) with
    | (false, u) => (false, u)
    | (true, u) =>
      match put u b with
      | (false, u) => (false, u)
      | (true, u) => write put bs u

end Uart

end BootLoader
