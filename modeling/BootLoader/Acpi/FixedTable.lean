import BootLoader.Acpi.Table

/-!
The fixed description table and the table of byte code it points to. The pointer comes in two
widths; the wide one counts wherever it is there and not null.
-/

namespace BootLoader.Acpi

open Text

/-- a table with byte code after the header -/
structure AmlTable where
  table : Table
deriving DecidableEq

namespace AmlTable

def code (t : AmlTable) : Bytes := t.table.body

def codeSize (t : AmlTable) : Nat := t.table.bytes.size - Header.size

end AmlTable

structure FixedTable where
  table : Table
deriving DecidableEq

namespace FixedTable

def legacyOffset : Nat := 40

/-- Where the wide pointer is, in a table long enough to have one. -/
def extendedOffset : Nat := 140

/-- A table is taken for this one if it has the name and room for the narrow pointer. -/
def ofTable (t : Table) : Except WalkError FixedTable := do
  if t.header.signature ≠ .facp then
    throw (.badSignature t.address .facp t.header.signature)
  if t.bytes.size < legacyOffset + 4 then throw (.badLength t.address t.header.length)
  return ⟨t⟩

def legacy (t : FixedTable) : UInt32 := (t.table.bytes.u32At? legacyOffset).getD 0

def extended? (t : FixedTable) : Option UInt64 := t.table.bytes.u64At? extendedOffset

/-- The pointer to follow: the wide one unless it is null, else the narrow one unless it is. -/
def pointer? (t : FixedTable) : Option Address :=
  let wide := t.extended?.getD 0
  let narrow := t.legacy.toUInt64
  if wide ≠ 0 then some ⟨wide⟩ else if narrow ≠ 0 then some ⟨narrow⟩ else none

def said (level : Level) (text : String) : Line := ⟨level, "boot_acpi::fadt", text⟩

def disagreement (t : FixedTable) : List Line :=
  let wide := t.extended?.getD 0
  let narrow := t.legacy.toUInt64
  if narrow ≠ 0 ∧ wide ≠ 0 ∧ narrow ≠ wide then
    [said .warn (s!"FADT DSDT pointers disagree: {Hex.marked narrow.toNat} vs " ++
      s!"X_DSDT {Hex.marked wide.toNat}, using X_DSDT")]
  else []

def follow {μ : Type} [Mapping μ] (m : μ) (t : FixedTable) : Logged WalkError AmlTable := do
  .sayAll t.disagreement
  let some a := t.pointer? | throw (.nullPointer .facp)
  .say (said .info s!"DSDT address: {a.hex}")
  let table ← Table.load m a (some .dsdt)
  return ⟨table⟩

end FixedTable

end BootLoader.Acpi
