/-!
Hexadecimal text: numbers with and without `0x`, padded to a width, in either case of letter.
-/

namespace BootLoader.Text.Hex

def upperDigit (n : Nat) : Char :=
  if n < 10 then Char.ofNat (48 + n) else Char.ofNat (55 + n)

def highDigit (b : UInt8) : Char := upperDigit (b.toNat / 16)

def lowDigit (b : UInt8) : Char := upperDigit (b.toNat % 16)

/-- Lower-case digits without leading zeros; zero is one digit. -/
def digits (n : Nat) : List Char := Nat.toDigits 16 n

def padTo (width : Nat) (cs : List Char) : List Char :=
  List.replicate (width - cs.length) '0' ++ cs

def plain (width n : Nat) : String := String.ofList (padTo width (digits n))

def marked (n : Nat) : String := "0x" ++ plain 1 n

def markedTo (width n : Nat) : String := "0x" ++ plain width n

def markedUpper (width n : Nat) : String :=
  "0x" ++ String.ofList (padTo width ((digits n).map Char.toUpper))

def ofBytes (bs : List UInt8) : String := String.join (bs.map fun b => plain 2 b.toNat)

end BootLoader.Text.Hex
