import BootLoader.Proofs.Pe.Headers

/-! Which bytes of a file decide on its headers: those up to the section table, and the 64 of the
DOS header where the section table starts among them. A file that is shorter is refused, and what
comes later changes nothing. -/

namespace BootLoader.Pe

variable {b c : Bytes} {image : Image} {k off n : Nat}

/-! ## Files that start alike -/

section Alike

variable (hsame : c.slice 0 k = b.slice 0 k)
include hsame

theorem signatureAt_alike (hdos : 64 ≤ k) : signatureAt c = signatureAt b := Bytes.field_alike hsame hdos

variable (hdos : 64 ≤ k) (htable : tableAt b ≤ k)
include hdos htable

theorem optionalLength_alike : optionalLength c = optionalLength b := by
  unfold tableAt at htable
  unfold optionalLength
  rw [signatureAt_alike hsame hdos]
  exact Bytes.field_alike hsame (by omega)

theorem tableAt_alike : tableAt c = tableAt b := by
  unfold tableAt
  rw [signatureAt_alike hsame hdos, optionalLength_alike hsame hdos htable]

/-- What lies in the optional header of the one is there in the other. -/
theorem field_optional_alike (h : off + n ≤ optionalLength b) :
    c.field (signatureAt c + 24 + off) n = b.field (signatureAt b + 24 + off) n := by
  unfold tableAt at htable
  rw [signatureAt_alike hsame hdos]
  exact Bytes.field_alike hsame (by omega)

theorem magicOf_alike (hlong : 32 ≤ optionalLength b) : magicOf c = magicOf b := by
  have hwithin : 0 + 2 ≤ optionalLength b := by omega
  exact field_optional_alike hsame hdos htable hwithin

theorem layoutOf_alike (hlong : 32 ≤ optionalLength b) : layoutOf c = layoutOf b := by
  unfold layoutOf
  rw [magicOf_alike hsame hdos htable hlong]

theorem relocates_alike (hlong : 32 ≤ optionalLength b) (h : Relocates c) : Relocates b := by
  obtain ⟨hcount, hroom, hsize⟩ := h
  have hbefore := (layoutOf b).directoryCount_before_relocations
  rw [layoutOf_alike hsame hdos htable hlong, optionalLength_alike hsame hdos htable] at hroom
  unfold directoryCount at hcount
  unfold relocationsSize at hsize
  rw [layoutOf_alike hsame hdos htable hlong,
    field_optional_alike hsame hdos htable (by omega)] at hcount hsize
  exact ⟨hcount, hroom, hsize⟩

theorem wellFormed_alike (hsize : k ≤ c.size) (h : WellFormed b) : WellFormed c := by
  have hlength := optionalLength_alike hsame hdos htable
  have hsignature : signatureAt b + 4 ≤ k := by
    unfold tableAt at htable
    omega
  exact {
    room := Nat.le_trans hdos hsize
    dosMagic := (Bytes.part_alike hsame (by omega)).trans h.dosMagic
    signature := by
      rw [signatureAt_alike hsame hdos, Bytes.part_alike hsame hsignature]
      exact h.signature
    fits := tableAt_alike hsame hdos htable ▸ Nat.le_trans htable hsize
    length := hlength ▸ h.length
    magic := magicOf_alike hsame hdos htable h.length ▸ h.magic
    fixed := mt (relocates_alike hsame hdos htable h.length) h.fixed }

theorem describes_alike (hformed : WellFormed b) (h : image.Describes b) :
    Image.Describes { image with bytes := c } c := by
  have hsignature := signatureAt_alike hsame hdos
  have hlong := hformed.length
  have hheaders : signatureAt b + 24 + 32 ≤ k := by
    unfold tableAt at htable
    omega
  refine ⟨rfl, ?_, ?_, ?_, ?_, ?_⟩
  · rw [hsignature, ← FileHeader.decodes_slice, Bytes.slice_alike hsame, FileHeader.decodes_slice]
    · exact h.header
    · unfold FileHeader.size
      omega
  · rw [magicOf_alike hsame hdos htable hlong]
    exact h.kind
  · rw [hsignature, Bytes.field_alike hsame (by omega)]
    exact h.entryRva
  · rw [hsignature, Bytes.field_alike hsame (by omega), Bytes.field_alike hsame (by omega)]
    exact h.imageBase
  · rw [tableAt_alike hsame hdos htable]
    exact h.sectionTable

end Alike

/-! ## The bytes that decide -/

/-- How many bytes decide on the headers of the file. -/
def headersEnd (bs : Bytes) : Nat := max 64 (tableAt bs)

/-- A file that is accepted has all the bytes that decide. -/
theorem WellFormed.headersEnd_le (h : WellFormed b) : headersEnd b ≤ b.size :=
  Nat.max_le.mpr ⟨h.room, h.fits⟩

/-- Another file that has them is accepted for the same image. -/
theorem parse_alike (h : Image.parse b = .ok image) (hsize : headersEnd b ≤ c.size)
    (hsame : c.slice 0 (headersEnd b) = b.slice 0 (headersEnd b)) :
    Image.parse c = .ok { image with bytes := c } := by
  obtain ⟨hformed, hdescribes⟩ := parse_eq_ok.mp h
  have hdos : 64 ≤ headersEnd b := Nat.le_max_left ..
  have htable : tableAt b ≤ headersEnd b := Nat.le_max_right ..
  exact parse_eq_ok.mpr ⟨wellFormed_alike hsame hdos htable hsize hformed,
    describes_alike hsame hdos htable hformed hdescribes⟩

theorem size_slice_zero (b : Bytes) (n : Nat) : (b.slice 0 n).size = min n b.size := by
  rw [← Bytes.length_toList, Bytes.toList_slice, List.drop_zero, List.length_take, Bytes.length_toList]

theorem slice_slice_zero (h : k ≤ n) : (b.slice 0 n).slice 0 k = b.slice 0 k := by
  rw [Bytes.slice_slice (by omega), Nat.zero_add]

/-- The start of a file that is accepted tells where the section table of the whole file is. -/
theorem headersEnd_le_of_slice (h : WellFormed (b.slice 0 n)) : headersEnd b ≤ n := by
  have hsize : (b.slice 0 n).size ≤ n := by
    rw [size_slice_zero]
    exact Nat.min_le_left ..
  have htable : tableAt b = tableAt (b.slice 0 n) :=
    tableAt_alike (slice_slice_zero hsize).symm h.room h.fits
  unfold headersEnd
  rw [htable]
  exact Nat.le_trans h.headersEnd_le hsize

theorem parse_slice_iff (h : Image.parse b = .ok image) :
    (∃ i, Image.parse (b.slice 0 n) = .ok i) ↔ headersEnd b ≤ n := by
  constructor
  · intro hi
    exact headersEnd_le_of_slice (exists_parse.mp hi)
  · intro hn
    have hsize : headersEnd b ≤ (b.slice 0 n).size := by
      rw [size_slice_zero]
      exact Nat.le_min.mpr ⟨hn, (parse_eq_ok.mp h).1.headersEnd_le⟩
    exact ⟨_, parse_alike h hsize (slice_slice_zero hn)⟩

/-- The start of an accepted file is accepted where it has the headers whole; and any file that
starts with them is accepted for an image with the same headers. -/
theorem parse_of_headers (h : Image.parse b = .ok image) :
    (∀ n, (∃ i, Image.parse (b.slice 0 n) = .ok i) ↔ max 64 image.sectionTable ≤ n) ∧
      ∀ c : Bytes, max 64 image.sectionTable ≤ c.size →
        c.slice 0 (max 64 image.sectionTable) = b.slice 0 (max 64 image.sectionTable) →
        Image.parse c = .ok { image with bytes := c } := by
  have hend : max 64 image.sectionTable = headersEnd b := by
    rw [(parse_eq_ok.mp h).2.sectionTable, headersEnd]
  rw [hend]
  exact ⟨fun _ => parse_slice_iff h, fun _ => parse_alike h⟩

namespace Sample

/-- Its signature is at 2, so that all its headers lie within the first 64 bytes. -/
def folded : Bytes := .ofList <|
  [0x4D, 0x5A] ++ [0x50, 0x45, 0, 0] ++ .replicate 16 0 ++ [32, 0, 0, 0] ++ [0x0B, 0x01] ++
  .replicate 32 0 ++
  [2, 0, 0, 0] ++ [7, 7]

end Sample

theorem parse_of_headers_sample :
    ∃ image, Image.parse Sample.folded = .ok image ∧ image.sectionTable = 58 ∧
      (∀ n, (∃ i, Image.parse (Sample.folded.slice 0 n) = .ok i) ↔ 64 ≤ n) ∧
      ∀ c : Bytes, 64 ≤ c.size → c.slice 0 64 = Sample.folded.slice 0 64 →
        Image.parse c = .ok { image with bytes := c } := by
  have htable : (Image.parse Sample.folded).toOption.map (·.sectionTable) = some 58 := by decide +kernel
  cases hparse : Image.parse Sample.folded with
  | error e => simp [hparse, Except.toOption] at htable
  | ok image =>
    have htable : image.sectionTable = 58 := by simpa [hparse, Except.toOption] using htable
    have hend : max 64 image.sectionTable = 64 := by rw [htable, Nat.max_eq_left (by decide)]
    have hheaders := parse_of_headers hparse
    rw [hend] at hheaders
    exact ⟨image, rfl, htable, hheaders⟩

end BootLoader.Pe
