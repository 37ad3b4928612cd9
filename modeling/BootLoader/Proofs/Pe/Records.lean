import BootLoader.Pe.Header
import BootLoader.Proofs.Bytes
import Mathlib.Tactic.MkIffOfInductiveProp

/-! The records of an image. Each can be read where all its bytes are, and it is the one that they
spell. -/

namespace BootLoader.Pe

variable {bs : Bytes} {off : Nat}

/-! ## File headers -/

/-- The header is the one that the 20 bytes at `off` spell. -/
@[mk_iff]
structure FileHeader.Decodes (h : FileHeader) (bs : Bytes) (off : Nat) : Prop where
  machine : h.machine.toNat = bs.field off 2
  sectionCount : h.sectionCount.toNat = bs.field (off + 2) 2
  timestamp : h.timestamp.toNat = bs.field (off + 4) 4
  symbolPointer : h.symbolPointer.toNat = bs.field (off + 8) 4
  symbolCount : h.symbolCount.toNat = bs.field (off + 12) 4
  optionalSize : h.optionalSize.toNat = bs.field (off + 16) 2
  characteristics : h.characteristics.toNat = bs.field (off + 18) 2

theorem FileHeader.decodes_slice {h : FileHeader} :
    h.Decodes (bs.slice off size) 0 ↔ h.Decodes bs off := by
  simp (disch := decide) only [decodes_iff, Bytes.field_slice, Nat.zero_add, Nat.add_zero]

/-- Any 20 bytes are a header. -/
theorem FileHeader.exists_decodes (bs : Bytes) (off : Nat) : ∃ h : FileHeader, h.Decodes bs off := by
  refine ⟨{
    machine := .ofNat (bs.field off 2)
    sectionCount := .ofNat (bs.field (off + 2) 2)
    timestamp := .ofNat (bs.field (off + 4) 4)
    symbolPointer := .ofNat (bs.field (off + 8) 4)
    symbolCount := .ofNat (bs.field (off + 12) 4)
    optionalSize := .ofNat (bs.field (off + 16) 2)
    characteristics := .ofNat (bs.field (off + 18) 2) }, ?_⟩
  simp only [decodes_iff, Bytes.toNat_field16, Bytes.toNat_field32, and_self]

theorem FileHeader.Decodes.unique {h h' : FileHeader} (hd : h.Decodes bs off)
    (hd' : h'.Decodes bs off) : h = h' := by
  cases h
  cases h'
  rw [decodes_iff] at hd hd'
  simp_all [← UInt16.toNat_inj, ← UInt32.toNat_inj]

theorem FileHeader.read?_eq_some {h : FileHeader} :
    read? bs off = some h ↔ off + size ≤ bs.size ∧ h.Decodes bs off := by
  rw [← decodes_slice, decodes_iff]
  unfold read?
  simp only [Option.bind_eq_bind, Option.bind_eq_some_iff, Bytes.slice?_eq_some,
    Bytes.u16At?_eq_some, Bytes.u32At?_eq_some]
  constructor
  · rintro ⟨_, ⟨hle, rfl⟩, _, ⟨-, h0⟩, _, ⟨-, h2⟩, _, ⟨-, h4⟩, _, ⟨-, h8⟩, _, ⟨-, h12⟩, _, ⟨-, h16⟩,
      _, ⟨-, h18⟩, hmk⟩
    cases hmk
    exact ⟨hle, h0.symm, h2.symm, h4.symm, h8.symm, h12.symm, h16.symm, h18.symm⟩
  · rintro ⟨hle, h0, h2, h4, h8, h12, h16, h18⟩
    have room : ∀ {k}, k ≤ 20 → k ≤ (bs.slice off size).size :=
      fun hk => (Bytes.size_slice hle).symm ▸ hk
    exact ⟨_, ⟨hle, rfl⟩, _, ⟨room (by decide), h0.symm⟩, _, ⟨room (by decide), h2.symm⟩,
      _, ⟨room (by decide), h4.symm⟩, _, ⟨room (by decide), h8.symm⟩, _, ⟨room (by decide), h12.symm⟩,
      _, ⟨room (by decide), h16.symm⟩, _, ⟨room (by decide), h18.symm⟩, rfl⟩

/-! ## Section records -/

/-- The record is the one that the 40 bytes at `off` spell. -/
@[mk_iff]
structure SectionHeader.Decodes (h : SectionHeader) (bs : Bytes) (off : Nat) : Prop where
  name : h.name = bs.part off 8
  virtualSize : h.virtualSize.toNat = bs.field (off + 8) 4
  virtualAddress : h.virtualAddress.toNat = bs.field (off + 12) 4
  rawSize : h.rawSize.toNat = bs.field (off + 16) 4
  rawPointer : h.rawPointer.toNat = bs.field (off + 20) 4
  relocationPointer : h.relocationPointer.toNat = bs.field (off + 24) 4
  linenumberPointer : h.linenumberPointer.toNat = bs.field (off + 28) 4
  relocationCount : h.relocationCount.toNat = bs.field (off + 32) 2
  linenumberCount : h.linenumberCount.toNat = bs.field (off + 34) 2
  characteristics : h.characteristics.toNat = bs.field (off + 36) 4

theorem SectionHeader.decodes_slice {h : SectionHeader} :
    h.Decodes (bs.slice off size) 0 ↔ h.Decodes bs off := by
  simp (disch := decide) only [decodes_iff, Bytes.part_slice, Bytes.field_slice, Nat.zero_add,
    Nat.add_zero]

/-- Any 40 bytes are a record. -/
theorem SectionHeader.exists_decodes (bs : Bytes) (off : Nat) :
    ∃ h : SectionHeader, h.Decodes bs off := by
  refine ⟨{
    name := bs.part off 8
    virtualSize := .ofNat (bs.field (off + 8) 4)
    virtualAddress := .ofNat (bs.field (off + 12) 4)
    rawSize := .ofNat (bs.field (off + 16) 4)
    rawPointer := .ofNat (bs.field (off + 20) 4)
    relocationPointer := .ofNat (bs.field (off + 24) 4)
    linenumberPointer := .ofNat (bs.field (off + 28) 4)
    relocationCount := .ofNat (bs.field (off + 32) 2)
    linenumberCount := .ofNat (bs.field (off + 34) 2)
    characteristics := .ofNat (bs.field (off + 36) 4) }, ?_⟩
  simp only [decodes_iff, Bytes.toNat_field16, Bytes.toNat_field32, and_self]

theorem SectionHeader.read?_eq_some {h : SectionHeader} :
    read? bs off = some h ↔ off + size ≤ bs.size ∧ h.Decodes bs off := by
  rw [← decodes_slice, decodes_iff]
  unfold read?
  simp only [Option.bind_eq_bind, Option.bind_eq_some_iff, Bytes.slice?_eq_some,
    Bytes.u16At?_eq_some, Bytes.u32At?_eq_some]
  constructor
  · rintro ⟨_, ⟨hle, rfl⟩, _, ⟨-, h8⟩, _, ⟨-, h12⟩, _, ⟨-, h16⟩, _, ⟨-, h20⟩, _, ⟨-, h24⟩, _, ⟨-, h28⟩,
      _, ⟨-, h32⟩, _, ⟨-, h34⟩, _, ⟨-, h36⟩, hmk⟩
    cases hmk
    have hsize : (bs.slice off size).size = 40 := Bytes.size_slice hle
    exact ⟨hle, Bytes.listFrom_eq (hsize ▸ (by decide)), h8.symm, h12.symm, h16.symm, h20.symm, h24.symm,
      h28.symm, h32.symm, h34.symm, h36.symm⟩
  · rintro ⟨hle, hname, h8, h12, h16, h20, h24, h28, h32, h34, h36⟩
    have hsize : (bs.slice off size).size = 40 := Bytes.size_slice hle
    have room : ∀ {k}, k ≤ 40 → k ≤ (bs.slice off size).size := fun hk => hsize.symm ▸ hk
    refine ⟨_, ⟨hle, rfl⟩, _, ⟨room (by decide), h8.symm⟩, _, ⟨room (by decide), h12.symm⟩,
      _, ⟨room (by decide), h16.symm⟩, _, ⟨room (by decide), h20.symm⟩, _, ⟨room (by decide), h24.symm⟩,
      _, ⟨room (by decide), h28.symm⟩, _, ⟨room (by decide), h32.symm⟩, _, ⟨room (by decide), h34.symm⟩,
      _, ⟨room (by decide), h36.symm⟩, ?_⟩
    have hlist : (bs.slice off size).listFrom 0 8 = h.name := by
      rw [hname]
      exact Bytes.listFrom_eq (room (by decide))
    rw [hlist]
    rfl

/-- A record of the section table can be read where all its bytes are. -/
theorem SectionHeader.read?_isSome : (read? bs off).isSome ↔ off + size ≤ bs.size := by
  rw [Option.isSome_iff_exists]
  constructor
  · rintro ⟨h, hread⟩
    exact (read?_eq_some.mp hread).1
  · intro hle
    obtain ⟨h, hdecodes⟩ := exists_decodes bs off
    exact ⟨h, read?_eq_some.mpr ⟨hle, hdecodes⟩⟩

end BootLoader.Pe
