/-!
Words made of bit fields. Setting one field leaves the other bits alone, those that belong to no
field included.
-/

namespace BootLoader

/-- `width` bits of a word, from bit `offset` up -/
structure BitField where
  name : String
  offset : Nat
  width : Nat
deriving DecidableEq

namespace BitField

def flag (name : String) (offset : Nat) : BitField := ⟨name, offset, 1⟩

def get (f : BitField) (word : Nat) : Nat := word >>> f.offset % 1 <<< f.width

def isSet (f : BitField) (word : Nat) : Bool := f.get word != 0

/-- The word with the field set to `value`; `none` if the value is too wide for the field. -/
def set? (f : BitField) (word value : Nat) : Option Nat :=
  if value < 1 <<< f.width then
    some (word - f.get word <<< f.offset + value <<< f.offset)
  else none

end BitField

structure WordLayout where
  bits : Nat
  fields : List BitField

namespace WordLayout

/-- What is left of a number in a word of this width. -/
def wrap (w : WordLayout) (n : Nat) : Nat := n % 1 <<< w.bits

def field? (w : WordLayout) (name : String) : Option BitField :=
  w.fields.find? (·.name == name)

/-- Set one field after the other; fails on the first name or value that has no place. -/
def setAll (w : WordLayout) (word : Nat) : List (String × Nat) → Option Nat
  | [] => some word
  | (name, value) :: rest => do
    let f ← w.field? name
    w.setAll (← f.set? word value) rest

end WordLayout

end BootLoader
