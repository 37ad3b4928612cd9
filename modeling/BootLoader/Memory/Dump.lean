import BootLoader.Memory.Window

/-! What a memory holds, without the zeroes. -/

namespace BootLoader

namespace Bytes

/-- One more run, by offset and length, unless there is nothing in it; the newest is first. -/
def addRun (done : List (Nat × Nat)) (start stop : Nat) : List (Nat × Nat) :=
  if start < stop then (start, stop - start) :: done else done

/-- The runs among the `n` bytes from `i` on, on top of those that are done; whatever is between
`start` and `i` belongs to the next run. -/
def runsFrom (bs : Bytes) : (n i start : Nat) → (done : List (Nat × Nat)) → List (Nat × Nat)
  | 0, i, start, done => addRun done start i
  | n + 1, i, start, done =>
    match bs.get? i with
    | some 0 => bs.runsFrom n (i + 1) (i + 1) (addRun done start i)
    | _ => bs.runsFrom n (i + 1) start done

def runs (bs : Bytes) : List (Nat × Bytes) :=
  (bs.runsFrom bs.size 0 0 []).reverse.map fun (off, len) => (off, bs.slice off len)

end Bytes

def Memory.dump (m : Memory) : List (List (Address × Bytes)) :=
  m.windows.map fun w =>
    ((m.read? w.base w.bytes.size).getD .empty).runs.map fun (off, bs) => (w.base.plus off, bs)

end BootLoader
