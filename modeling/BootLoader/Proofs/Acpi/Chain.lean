import BootLoader.Acpi.Walk
import BootLoader.Proofs.Bytes
import BootLoader.Proofs.Memory.View
import Mathlib.Algebra.Group.Nat.Defs
import Mathlib.Tactic.MkIffOfInductiveProp

/-! The chain of tables that a walk is to find, told by the bytes in memory alone: what makes each
link a link, and what a report says that tells of exactly these bytes. -/

namespace BootLoader.Acpi

structure Stretch where
  address : Address
  bytes : Bytes

namespace Stretch

/-- One window of the memory holds the stretch. -/
def In (t : Stretch) (m : Memory) : Prop := m.read? t.address t.bytes.size = some t.bytes

/-- Of a root pointer: whether it has the long form, from 2 on. -/
def revision (r : Stretch) : Nat := r.bytes.field 15 1

/-- Of a root pointer: how wide the entries of the table of tables are. -/
def entryWidth (r : Stretch) : EntryWidth := if r.revision < 2 then .legacy else .extended

/-- Of a root pointer: where the table of tables is. -/
def tablesPointer (r : Stretch) : Nat :=
  if r.revision < 2 then r.bytes.field 16 4 else r.bytes.field 24 8

/-- Of a table of tables: the number of whole entries. -/
def count (t : Stretch) (width : EntryWidth) : Nat := (t.bytes.size - 36) / width.bytes

def entry (t : Stretch) (width : EntryWidth) (i : Nat) : Address :=
  .ofNat (t.bytes.field (36 + i * width.bytes) width.bytes)

/-- Of a fixed table: where the byte code is. -/
def payloadPointer (f : Stretch) : Nat :=
  if 148 ≤ f.bytes.size ∧ f.bytes.field 140 8 ≠ 0 then f.bytes.field 140 8 else f.bytes.field 40 4

end Stretch

/-! ## Links -/

structure IsTable (m : Memory) (wanted : TableSignature) (t : Stretch) : Prop where
  lies : t.In m
  name : t.bytes.part 0 4 = wanted.bytes
  length : t.bytes.field 4 4 = t.bytes.size
  atLeast : 36 ≤ t.bytes.size
  atMost : t.bytes.size ≤ 16 * 2 ^ 20

/-- A root pointer: of 20 bytes up to revision 1, and of as many as it says from revision 2 on. -/
structure IsRoot (m : Memory) (r : Stretch) : Prop where
  lies : r.In m
  atLeast : 20 ≤ r.bytes.size
  name : r.bytes.part 0 8 = Signature.rootPointer.bytes
  sum : (r.bytes.slice 0 20).sum = 0
  short : r.revision < 2 → r.bytes.size = 20
  long : 2 ≤ r.revision →
    36 ≤ r.bytes.size ∧ r.bytes.size ≤ 4096 ∧ r.bytes.field 20 4 = r.bytes.size ∧ r.bytes.sum = 0

def IsFirst (kind : EntryKind) (entries : List ConfigEntry) (e : ConfigEntry) : Prop :=
  e.kind = kind ∧ ∃ before after, entries = before ++ e :: after ∧ ∀ e' ∈ before, e'.kind ≠ kind

/-- The address is that of the first entry of the newer kind, or without one, that of the first of
the older kind. -/
def Publishes (entries : List ConfigEntry) (a : Address) : Prop :=
  ∃ e, e.address = a ∧ (IsFirst .acpi2 entries e ∨
    (∀ e' ∈ entries, e'.kind ≠ .acpi2) ∧ IsFirst .acpi1 entries e)

/-- The address is not null, and the four bytes there are mapped and spell the name. -/
def Names (m : Memory) (a : Address) (wanted : TableSignature) : Prop :=
  a ≠ .zero ∧ ∃ bs, m.read? a 4 = some bs ∧ bs.toList = wanted.bytes

def FirstNamed (m : Memory) (t : Stretch) (width : EntryWidth) (wanted : TableSignature)
    (a : Address) : Prop :=
  ∃ i < t.count width, t.entry width i = a ∧ Names m a wanted ∧
    ∀ j < i, ¬ Names m (t.entry width j) wanted

/-- a root pointer, and the three tables it leads to one after the other -/
structure Chain where
  root : Stretch
  tables : Stretch
  fixed : Stretch
  payload : Stretch

structure Chain.WellFormed (m : Memory) (entries : List ConfigEntry) (c : Chain) : Prop where
  published : Publishes entries c.root.address
  root : IsRoot m c.root
  tablesAt : c.tables.address.toNat = c.root.tablesPointer
  tablesNotNull : c.root.tablesPointer ≠ 0
  tables : IsTable m c.root.entryWidth.signature c.tables
  fixedAt : FirstNamed m c.tables c.root.entryWidth .facp c.fixed.address
  fixed : IsTable m .facp c.fixed
  room : 44 ≤ c.fixed.bytes.size
  payloadAt : c.payload.address.toNat = c.fixed.payloadPointer
  payloadNotNull : c.fixed.payloadPointer ≠ 0
  payload : IsTable m .dsdt c.payload

/-! ## Reports -/

@[mk_iff]
structure Header.Decodes (h : Header) (bs : Bytes) : Prop where
  signature : h.signature.bytes = bs.part 0 4
  length : h.length.toNat = bs.field 4 4
  revision : h.revision.toNat = bs.field 8 1
  checksum : h.checksum.toNat = bs.field 9 1
  oemId : h.oemId.bytes = bs.part 10 6
  oemTableId : h.oemTableId.bytes = bs.part 16 8
  oemRevision : h.oemRevision.toNat = bs.field 24 4
  creatorId : h.creatorId.bytes = bs.part 28 4
  creatorRevision : h.creatorRevision.toNat = bs.field 32 4

structure Table.Decodes (t : Table) (l : Stretch) : Prop where
  address : t.address = l.address
  bytes : t.bytes = l.bytes
  header : t.header.Decodes l.bytes

@[mk_iff]
structure RootPointer.DecodesShort (r : RootPointer) (l : Stretch) : Prop where
  address : r.address = l.address
  revision : r.revision.toNat = l.revision
  oemId : r.oemId.bytes = l.bytes.part 9 6
  rsdt : r.rsdt.toNat = l.bytes.field 16 4

structure RootPointer.Decodes (r : RootPointer) (l : Stretch) : Prop extends r.DecodesShort l where
  xsdt : r.xsdt.map UInt64.toNat = if l.revision < 2 then none else some (l.bytes.field 24 8)

/-- The report tells of exactly this chain, and of the device tree that is published beside it. -/
structure Chain.Reports (c : Chain) (entries : List ConfigEntry) (r : Report) : Prop where
  root : r.root.Decodes c.root
  tables : r.tables.table.Decodes c.tables
  width : r.tables.width = c.root.entryWidth
  fixed : r.fixed.table.Decodes c.fixed
  payload : r.payload.table.Decodes c.payload
  deviceTree : ∀ a, r.deviceTree = some a ↔ ∃ e, IsFirst .deviceTree entries e ∧ e.address = a

end BootLoader.Acpi
