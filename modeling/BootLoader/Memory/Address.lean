import BootLoader.Text.Hex

/-!
Physical addresses. Addition wraps at the end of the address space; `plus?` is the addition for
numbers that come from outside.
-/

namespace BootLoader

open Text

structure Address where
  word : UInt64
deriving DecidableEq, Inhabited

namespace Address

def zero : Address := ⟨0⟩

def toNat (a : Address) : Nat := a.word.toNat

/-- The address of a number, modulo the size of the address space. -/
def ofNat (n : Nat) : Address := ⟨UInt64.ofNat n⟩

def space : Nat := UInt64.size

theorem toNat_lt (a : Address) : a.toNat < space := a.word.toNat_lt

/-- An address is known by its number. -/
theorem toNat_inj {a b : Address} : a.toNat = b.toNat ↔ a = b := by
  cases a
  cases b
  rw [mk.injEq]
  exact UInt64.toNat_inj

theorem toNat_ofNat {n : Nat} (h : n < space) : (ofNat n).toNat = n := UInt64.toNat_ofNat_of_lt' h

theorem eq_ofNat_iff {a : Address} {n : Nat} (h : n < space) : a = ofNat n ↔ a.toNat = n := by
  rw [← toNat_inj, toNat_ofNat h]

/-- Wrapping addition. -/
def plus (a : Address) (n : Nat) : Address := ofNat (a.toNat + n)

def plus? (a : Address) (n : Nat) : Option Address :=
  if a.toNat + n < space then some (a.plus n) else none

def isNull (a : Address) : Bool := a.toNat == 0

theorem isNull_iff {a : Address} : a.isNull = true ↔ a = zero := by
  rw [isNull, beq_iff_eq, ← toNat_inj]
  rfl

/-- Nothing is aligned to zero. -/
def isAligned (a : Address) (align : Nat) : Bool := align != 0 && a.toNat % align == 0

/-- Sixteen capital digits. -/
def render (a : Address) : String := Hex.markedUpper 16 a.toNat

def hex (a : Address) : String := Hex.marked a.toNat

def inspect (a : Address) : String := s!"PA({a.render})"

instance : ToString Address := ⟨render⟩

end Address

end BootLoader
