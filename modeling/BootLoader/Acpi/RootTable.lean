import BootLoader.Acpi.RootPointer
import BootLoader.Acpi.Table

/-! The table of tables, whose entries are addresses of four or of eight bytes. -/

namespace BootLoader.Acpi

open Text

inductive EntryWidth where
  | legacy | extended
deriving DecidableEq

namespace EntryWidth

def bytes : EntryWidth → Nat
  | legacy => 4
  | extended => 8

def signature : EntryWidth → TableSignature
  | legacy => .rsdt
  | extended => .xsdt

def entry? (w : EntryWidth) (bs : Bytes) (i : Nat) : Option Address :=
  match w with
  | legacy => (bs.u32At? (i * legacy.bytes)).map fun v => ⟨v.toUInt64⟩
  | extended => (bs.u64At? (i * extended.bytes)).map Address.mk

end EntryWidth

structure RootTable where
  table : Table
  width : EntryWidth
deriving DecidableEq

namespace RootTable

/-- Number of whole entries; a part of one at the end does not count. -/
def count (t : RootTable) : Nat := t.table.body.size / t.width.bytes

def isEmpty (t : RootTable) : Bool := t.count == 0

def entries (t : RootTable) : List Address :=
  (List.range t.count).filterMap (t.width.entry? t.table.body)

variable {μ : Type} [Mapping μ]

def resolve (m : μ) (root : RootPointer) : Except WalkError RootTable := do
  let (a, width) : Address × EntryWidth :=
    if root.usesXsdt then (⟨root.xsdt.getD 0⟩, .extended)
    else (⟨root.rsdt.toUInt64⟩, .legacy)
  if a.isNull then throw (.nullPointer width.signature)
  return ⟨← Table.load m a (some width.signature), width⟩

def said (level : Level) (text : String) : Line := ⟨level, "boot_acpi::chain", text⟩

/-- what an address in the table leads to, going by the first four bytes there -/
inductive Target where
  | nothing
  | unreadable (cause : WalkError)
  | table (signature : TableSignature)
deriving DecidableEq

def target (m : μ) (a : Address) : Target :=
  if a.isNull then .nothing
  else
    match view m a 4 with
    | .error e => .unreadable e
    | .ok head => .table ((Signature.read? head 0).getD (.blank 4))

def Target.describe (what : String) (i : Nat) (a : Address) : Target → Line
  | nothing => said .warn s!"{what} entry {i}: null"
  | unreadable e => said .warn s!"{what} entry {i}: {e}"
  | table found => said .info s!"{what} entry {i}: {a.hex}, signature: {found}"

def describe (m : μ) (what : String) (as : List Address) : List Line :=
  as.zipIdx.map fun (a, i) => (target m a).describe what i a

/-- The first table called `wanted`. Entries that are null or cannot be read are passed over. -/
def find (m : μ) (t : RootTable) (wanted : TableSignature) : Logged WalkError Table := do
  let what := t.width.signature.render
  match t.entries.span fun a => target m a ≠ .table wanted with
  | (passed, []) =>
    .sayAll (describe m what passed)
    throw (.signatureNotFound wanted)
  | (passed, a :: _) =>
    .sayAll (describe m what (passed ++ [a]))
    Table.load m a (some wanted)

end RootTable

end BootLoader.Acpi
