import BootLoader.Proofs.Acpi.Links
import BootLoader.Proofs.Pe.Records
import Mathlib.Algebra.Ring.Nat

/-! Records that can be written back. A record is a row of fields of fixed widths, and its bytes are
those of its fields one after the other. To read one is to cut the bytes into pieces of these
widths, so nothing is lost on the way, no two fields share a byte, and no byte is left out. -/

namespace BootLoader

namespace Bytes

def cut : (widths : List Nat) → (l : List UInt8) → List (List UInt8)
  | [], _ => []
  | n :: ns, l => l.take n :: cut ns (l.drop n)

variable {bs : Bytes} {off n v : Nat}

theorem flatten_cut (widths : List Nat) (l : List UInt8) :
    (cut widths l).flatten = l.take widths.sum := by
  induction widths generalizing l with
  | nil => rw [cut, List.flatten_nil, List.sum_nil, List.take_zero]
  | cons n ns ih => rw [cut, List.flatten_cons, ih, List.sum_cons, List.take_add]

/-- What lies behind the pieces does not matter. -/
theorem cut_take (widths : List Nat) (l : List UInt8) :
    cut widths (l.take widths.sum) = cut widths l := by
  induction widths generalizing l with
  | nil => rfl
  | cons n ns ih =>
    rw [cut, cut, List.sum_cons, List.take_take, Nat.min_eq_left (Nat.le_add_right n _),
      List.drop_take, Nat.add_sub_cancel_left, ih]

theorem cut_flatten (pieces : List (List UInt8)) (rest : List UInt8) :
    cut (pieces.map List.length) (pieces.flatten ++ rest) = pieces := by
  induction pieces with
  | nil => rfl
  | cons piece pieces ih =>
    rw [List.map_cons, cut, List.flatten_cons, List.append_assoc, List.take_left, List.drop_left, ih]

theorem part_eq (bs : Bytes) (off n : Nat) : bs.part off n = (bs.toList.drop off).take n :=
  bs.toList_slice off n

/-- A number written down gives the bytes at a place if it is the one that they spell. -/
theorem ofNatLE_eq_part (h : off + n ≤ bs.size) (hv : v < 2 ^ (8 * n)) :
    ofNatLE n v = bs.part off n ↔ v = bs.field off n := by
  constructor
  · intro hpart
    have hback := leNat_ofNatLE n v
    rw [hpart, Nat.one_shiftLeft, Nat.mod_eq_of_lt hv] at hback
    rw [field, hback]
  · rintro rfl
    exact ofNatLE_field h

theorem ofNatLE_eq_part8 (v : UInt8) (h : off + 1 ≤ bs.size) :
    ofNatLE 1 v.toNat = bs.part off 1 ↔ v.toNat = bs.field off 1 := ofNatLE_eq_part h v.toNat_lt

theorem ofNatLE_eq_part16 (v : UInt16) (h : off + 2 ≤ bs.size) :
    ofNatLE 2 v.toNat = bs.part off 2 ↔ v.toNat = bs.field off 2 := ofNatLE_eq_part h v.toNat_lt

theorem ofNatLE_eq_part32 (v : UInt32) (h : off + 4 ≤ bs.size) :
    ofNatLE 4 v.toNat = bs.part off 4 ↔ v.toNat = bs.field off 4 := ofNatLE_eq_part h v.toNat_lt

end Bytes

/-! ## Readers that lose nothing -/

variable {ρ : Type}

/-- A reader of records of `size` bytes at `off`. It needs these bytes and no more. Written down,
what it has read is these bytes again, so it is read from exactly the byte strings that have them
there. Whatever the fields are, the reader finds them where they are written down, among any other
bytes. -/
structure Lossless (off size : Nat) (read? : Bytes → Option ρ) (encode : ρ → List UInt8) : Prop where
  isSome_iff : ∀ bs, (read? bs).isSome ↔ off + size ≤ bs.size
  encode_eq : ∀ bs r, read? bs = some r → encode r = bs.part off size
  eq_iff : ∀ bs bs' r, read? bs = some r →
    (read? bs' = some r ↔ bs'.part off size = bs.part off size)
  written : ∀ r before after, before.length = off → (encode r).length = size →
    read? (.ofList (before ++ encode r ++ after)) = some r

section Fields

variable {off size : Nat} {widths : List Nat} {read? : Bytes → Option ρ}
  {fields : ρ → List (List UInt8)} {Decodes : ρ → Bytes → Prop}

/-- So it is for a reader that cuts the bytes into the fields of a record. -/
theorem Lossless.of_fields (hsize : widths.sum = size) (hpos : 0 < size)
    (hread : ∀ {bs r}, read? bs = some r ↔ off + size ≤ bs.size ∧ Decodes r bs)
    (hany : ∀ bs, off + size ≤ bs.size → ∃ r, Decodes r bs)
    (hfields : ∀ {bs r}, off + size ≤ bs.size →
      (Decodes r bs ↔ fields r = Bytes.cut widths (bs.toList.drop off)))
    (hwidths : ∀ {r}, (fields r).flatten.length = size → (fields r).map List.length = widths) :
    Lossless off size read? fun r => (fields r).flatten where
  isSome_iff bs := by
    rw [Option.isSome_iff_exists]
    constructor
    · rintro ⟨r, h⟩
      exact (hread.mp h).1
    · intro hle
      obtain ⟨r, hdecodes⟩ := hany bs hle
      exact ⟨r, hread.mpr ⟨hle, hdecodes⟩⟩
  encode_eq bs r h := by
    obtain ⟨hle, hdecodes⟩ := hread.mp h
    rw [(hfields hle).mp hdecodes, Bytes.flatten_cut, hsize, Bytes.part_eq]
  eq_iff bs bs' r h := by
    obtain ⟨hle, hdecodes⟩ := hread.mp h
    have hcut := (hfields hle).mp hdecodes
    rw [hread, Bytes.part_eq, Bytes.part_eq]
    constructor
    · rintro ⟨hle', hdecodes'⟩
      rw [← hsize, ← Bytes.flatten_cut, ← Bytes.flatten_cut, ← hcut, (hfields hle').mp hdecodes']
    · intro hsame
      have hlength := congrArg List.length hsame
      simp only [List.length_take, List.length_drop, Bytes.length_toList] at hlength
      have hle' : off + size ≤ bs'.size := by omega
      refine ⟨hle', (hfields hle').mpr ?_⟩
      rw [hcut, ← Bytes.cut_take, ← Bytes.cut_take widths (bs'.toList.drop off), hsize, hsame]
  written r before after hbefore hencode := by
    have hle : off + size ≤ (Bytes.ofList (before ++ (fields r).flatten ++ after)).size := by
      rw [Bytes.size_ofList, List.length_append, List.length_append]
      omega
    refine hread.mpr ⟨hle, (hfields hle).mpr ?_⟩
    rw [Bytes.toList_ofList, List.append_assoc, ← hbefore, List.drop_left, ← hwidths hencode,
      Bytes.cut_flatten]

end Fields

/-! ## The records -/

namespace Acpi.Header

def fields (h : Header) : List (List UInt8) :=
  [ h.signature.bytes,
    Bytes.ofNatLE 4 h.length.toNat,
    Bytes.ofNatLE 1 h.revision.toNat,
    Bytes.ofNatLE 1 h.checksum.toNat,
    h.oemId.bytes,
    h.oemTableId.bytes,
    Bytes.ofNatLE 4 h.oemRevision.toNat,
    h.creatorId.bytes,
    Bytes.ofNatLE 4 h.creatorRevision.toNat ]

def widths : List Nat := [4, 4, 1, 1, 6, 8, 4, 4, 4]

def encode (h : Header) : List UInt8 := h.fields.flatten

theorem map_length_fields (h : Header) : h.fields.map List.length = widths := by
  simp [fields, widths, Signature.width]

theorem decodes_iff_fields {h : Header} {bs : Bytes} (hle : 36 ≤ bs.size) :
    h.Decodes bs ↔ h.fields = Bytes.cut widths (bs.toList.drop 0) := by
  simp (disch := omega) only [decodes_iff, fields, widths, Bytes.cut, List.drop_drop, Nat.reduceAdd,
    ← Bytes.part_eq, List.cons.injEq, and_true, Bytes.ofNatLE_eq_part8, Bytes.ofNatLE_eq_part32]

theorem lossless : Lossless 0 size read? encode := by
  have room (bs : Bytes) : 0 + size ≤ bs.size ↔ 36 ≤ bs.size := by
    rw [Nat.zero_add]
    rfl
  refine .of_fields rfl (by decide) ?_ (fun bs hle => exists_decodes ((room bs).mp hle))
    (fun hle => decodes_iff_fields ((room _).mp hle)) fun _ => map_length_fields _
  intro bs h
  rw [room]
  exact read?_eq_some

end Acpi.Header

namespace Pe

namespace FileHeader

def fields (h : FileHeader) : List (List UInt8) :=
  [ Bytes.ofNatLE 2 h.machine.toNat,
    Bytes.ofNatLE 2 h.sectionCount.toNat,
    Bytes.ofNatLE 4 h.timestamp.toNat,
    Bytes.ofNatLE 4 h.symbolPointer.toNat,
    Bytes.ofNatLE 4 h.symbolCount.toNat,
    Bytes.ofNatLE 2 h.optionalSize.toNat,
    -- all sixteen bits, also those that have no meaning
    Bytes.ofNatLE 2 h.characteristics.toNat ]

def widths : List Nat := [2, 2, 4, 4, 4, 2, 2]

def encode (h : FileHeader) : List UInt8 := h.fields.flatten

theorem map_length_fields (h : FileHeader) : h.fields.map List.length = widths := by
  simp [fields, widths]

theorem decodes_iff_fields {h : FileHeader} {bs : Bytes} {off : Nat} (hle : off + size ≤ bs.size) :
    h.Decodes bs off ↔ h.fields = Bytes.cut widths (bs.toList.drop off) := by
  unfold size at hle
  simp (disch := omega) only [decodes_iff, fields, widths, Bytes.cut, List.drop_drop, Nat.add_assoc,
    Nat.reduceAdd, ← Bytes.part_eq, List.cons.injEq, and_true, Bytes.ofNatLE_eq_part16,
    Bytes.ofNatLE_eq_part32]

theorem lossless (off : Nat) : Lossless off size (read? · off) encode :=
  .of_fields rfl (by decide) read?_eq_some (fun bs _ => exists_decodes bs off) decodes_iff_fields
    fun _ => map_length_fields _

end FileHeader

namespace SectionHeader

def fields (h : SectionHeader) : List (List UInt8) :=
  [ h.name,
    Bytes.ofNatLE 4 h.virtualSize.toNat,
    Bytes.ofNatLE 4 h.virtualAddress.toNat,
    Bytes.ofNatLE 4 h.rawSize.toNat,
    Bytes.ofNatLE 4 h.rawPointer.toNat,
    Bytes.ofNatLE 4 h.relocationPointer.toNat,
    Bytes.ofNatLE 4 h.linenumberPointer.toNat,
    Bytes.ofNatLE 2 h.relocationCount.toNat,
    Bytes.ofNatLE 2 h.linenumberCount.toNat,
    Bytes.ofNatLE 4 h.characteristics.toNat ]

def widths : List Nat := [8, 4, 4, 4, 4, 4, 4, 2, 2, 4]

def encode (h : SectionHeader) : List UInt8 := h.fields.flatten

/-- Of all fields, only the name could be of another width. -/
theorem map_length_fields {h : SectionHeader} (hname : h.name.length = 8) :
    h.fields.map List.length = widths := by
  simp [fields, widths, hname]

theorem decodes_iff_fields {h : SectionHeader} {bs : Bytes} {off : Nat} (hle : off + size ≤ bs.size) :
    h.Decodes bs off ↔ h.fields = Bytes.cut widths (bs.toList.drop off) := by
  unfold size at hle
  simp (disch := omega) only [decodes_iff, fields, widths, Bytes.cut, List.drop_drop, Nat.add_assoc,
    Nat.reduceAdd, ← Bytes.part_eq, List.cons.injEq, and_true, Bytes.ofNatLE_eq_part16,
    Bytes.ofNatLE_eq_part32]

/-- The other fields take 32 bytes. -/
theorem length_encode (h : SectionHeader) : h.encode.length = h.name.length + 32 := by
  simp [encode, fields]

theorem lossless (off : Nat) : Lossless off size (read? · off) encode := by
  refine .of_fields rfl (by decide) read?_eq_some (fun bs _ => exists_decodes bs off)
    decodes_iff_fields fun {h} hlength => map_length_fields ?_
  have hsum : h.name.length + 32 = 40 := h.length_encode.symm.trans hlength
  omega

end SectionHeader

end Pe

/-- The header of a table and the two records of an image lose nothing, wherever in the file a
record lies. The headers are always as long as they should be, a section's record is if its name has
eight bytes. -/
theorem records_lossless :
    Lossless 0 36 Acpi.Header.read? Acpi.Header.encode ∧
      (∀ off, Lossless off 20 (Pe.FileHeader.read? · off) Pe.FileHeader.encode) ∧
      (∀ off, Lossless off 40 (Pe.SectionHeader.read? · off) Pe.SectionHeader.encode) ∧
      (∀ h : Acpi.Header, h.encode.length = 36) ∧ (∀ h : Pe.FileHeader, h.encode.length = 20) ∧
      ∀ h : Pe.SectionHeader, h.encode.length = h.name.length + 32 := by
  refine ⟨Acpi.Header.lossless, Pe.FileHeader.lossless, Pe.SectionHeader.lossless, fun h => ?_,
    fun h => ?_, Pe.SectionHeader.length_encode⟩
  · rw [Acpi.Header.encode, List.length_flatten, h.map_length_fields]
    rfl
  · rw [Pe.FileHeader.encode, List.length_flatten, h.map_length_fields]
    rfl

end BootLoader
