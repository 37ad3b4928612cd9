import BootLoader.Pe.Image
import BootLoader.Proofs.Pe.Records

/-! The headers of an image, told by the bytes of the file alone: what they must be for the image to
be accepted, what is then read from them, and which of the demands an image that is refused fails
first. -/

namespace BootLoader.Pe

variable {bs optional : Bytes} {image : Image} {kind : ImageKind}

/-! ## Where things are -/

def signatureAt (bs : Bytes) : Nat := bs.field 0x3C 4

def optionalLength (bs : Bytes) : Nat := bs.field (signatureAt bs + 20) 2

def tableAt (bs : Bytes) : Nat := signatureAt bs + 24 + optionalLength bs

def magicOf (bs : Bytes) : Nat := bs.field (signatureAt bs + 24) 2

namespace ImageKind

def magic : ImageKind → Nat
  | pe32 => 0x10B
  | pe32Plus => 0x20B

def relocationsAt : ImageKind → Nat
  | pe32 => 136
  | pe32Plus => 152

theorem directoryCount_before_relocations (kind : ImageKind) :
    kind.directoryCountOffset + 4 ≤ kind.relocationsAt := by
  cases kind <;> decide

end ImageKind

def layoutOf (bs : Bytes) : ImageKind := if magicOf bs = 0x20B then .pe32Plus else .pe32

def directoryCount (bs : Bytes) : Nat :=
  bs.field (signatureAt bs + 24 + (layoutOf bs).directoryCountOffset) 4

def relocationsRva (bs : Bytes) : Nat :=
  bs.field (signatureAt bs + 24 + (layoutOf bs).relocationsAt) 4

def relocationsSize (bs : Bytes) : Nat :=
  bs.field (signatureAt bs + 24 + ((layoutOf bs).relocationsAt + 4)) 4

/-- There are base relocations: the optional header counts their directory, is long enough for the
whole entry, and the entry is of one or more bytes. -/
def Relocates (bs : Bytes) : Prop :=
  6 ≤ directoryCount bs ∧ (layoutOf bs).relocationsAt + 8 ≤ optionalLength bs ∧ relocationsSize bs ≠ 0

/-! ## What is demanded -/

/-- The headers of the file are those of an image that can be loaded where it is put. -/
structure WellFormed (bs : Bytes) : Prop where
  room : 64 ≤ bs.size
  dosMagic : bs.part 0 2 = [0x4D, 0x5A]
  signature : bs.part (signatureAt bs) 4 = [0x50, 0x45, 0, 0]
  fits : tableAt bs ≤ bs.size
  length : 32 ≤ optionalLength bs
  magic : magicOf bs = 0x10B ∨ magicOf bs = 0x20B
  fixed : ¬ Relocates bs

structure Image.Describes (image : Image) (bs : Bytes) : Prop where
  bytes : image.bytes = bs
  header : image.header.Decodes bs (signatureAt bs + 4)
  kind : image.kind.magic = magicOf bs
  entryRva : image.entryRva.toNat = bs.field (signatureAt bs + 40) 4
  imageBase : image.imageBase.toNat = match image.kind with
    | .pe32 => bs.field (signatureAt bs + 52) 4
    | .pe32Plus => bs.field (signatureAt bs + 48) 8
  sectionTable : image.sectionTable = tableAt bs

/-- What is demanded of a file, in this order, each with the error for a file that does not meet it.
-/
def demands (bs : Bytes) : List (Prop × PeError) :=
  [(bs.part 0 2 = [0x4D, 0x5A], .badDosHeader),
    (64 ≤ bs.size, .truncated "DOS header" 0),
    (bs.part (signatureAt bs) 4 = [0x50, 0x45, 0, 0], .badNtHeader (signatureAt bs)),
    (signatureAt bs + 24 ≤ bs.size, .truncated "file header" (signatureAt bs + 4)),
    (tableAt bs ≤ bs.size, .truncated "optional header" (signatureAt bs + 24)),
    (2 ≤ optionalLength bs, .truncated "optional header" (signatureAt bs + 24)),
    (magicOf bs = 0x10B ∨ magicOf bs = 0x20B, .badOptionalHeader (.ofNat (magicOf bs))),
    (32 ≤ optionalLength bs, .truncated "optional header" (signatureAt bs + 24)),
    (¬ Relocates bs, .relocationsPresent (.ofNat (relocationsRva bs)) (.ofNat (relocationsSize bs)))]

inductive FirstUnmet : List (Prop × PeError) → PeError → Prop
  | here {p : Prop} {e : PeError} {ds : List (Prop × PeError)} (h : ¬ p) : FirstUnmet ((p, e) :: ds) e
  | later {p : Prop} {e e' : PeError} {ds : List (Prop × PeError)} (h : p) (hrest : FirstUnmet ds e) :
      FirstUnmet ((p, e') :: ds) e

theorem FirstUnmet.exists {ds : List (Prop × PeError)} {e : PeError} (h : FirstUnmet ds e) :
    ∃ d ∈ ds, ¬ d.1 := by
  induction h with
  | here h => exact ⟨_, List.mem_cons_self, h⟩
  | later _ _ ih =>
    obtain ⟨d, hd, hnot⟩ := ih
    exact ⟨d, List.mem_cons_of_mem _ hd, hnot⟩

theorem FirstUnmet.unique {ds : List (Prop × PeError)} {e e' : PeError} (h : FirstUnmet ds e)
    (h' : FirstUnmet ds e') : e = e' := by
  induction h with
  | here hnot =>
    cases h' with
    | here _ => rfl
    | later hp _ => exact absurd hp hnot
  | later hp _ ih =>
    cases h' with
    | here hnot => exact absurd hp hnot
    | later _ hrest => exact ih hrest

/-- A well-formed file meets every demand. -/
theorem WellFormed.meets (h : WellFormed bs) : ∀ d ∈ demands bs, d.1 := by
  have hheader : signatureAt bs + 24 ≤ bs.size := by
    have hfits := h.fits
    unfold tableAt at hfits
    omega
  have hmagic : 2 ≤ optionalLength bs := Nat.le_trans (by decide) h.length
  simp only [demands, List.forall_mem_cons]
  exact ⟨h.dosMagic, h.room, h.signature, hheader, h.fits, hmagic, h.magic, h.length, h.fixed, by simp⟩

/-! ## The reads -/

theorem dosMagic_iff : bs.u16At? 0 = some Image.dosMagic ↔ bs.part 0 2 = [0x4D, 0x5A] := by
  have hspelled : Image.dosMagic.toNat = Bytes.leNat [0x4D, 0x5A] := by decide
  rw [Bytes.u16At?_eq_some, hspelled, Bytes.part_eq_iff (by decide) (by decide)]

theorem signaturePointer_eq_some {nt : UInt32} :
    bs.u32At? Image.signaturePointer = some nt ↔ 64 ≤ bs.size ∧ signatureAt bs = nt.toNat := by
  rw [Bytes.u32At?_eq_some]
  rfl

theorem ntSignature_iff {off : Nat} :
    bs.u32At? off = some Image.ntSignature ↔ bs.part off 4 = [0x50, 0x45, 0, 0] := by
  have hspelled : Image.ntSignature.toNat = Bytes.leNat [0x50, 0x45, 0, 0] := by decide
  rw [Bytes.u32At?_eq_some, hspelled, Bytes.part_eq_iff (by decide) (by decide)]

theorem ofMagic?_eq_some {magic : UInt16} :
    ImageKind.ofMagic? magic = some kind ↔ kind.magic = magic.toNat := by
  have h32 : magic = 0x10B ↔ 0x10B = magic.toNat := by
    rw [← UInt16.toNat_inj, eq_comm]
    rfl
  have h64 : magic = 0x20B ↔ 0x20B = magic.toNat := by
    rw [← UInt16.toNat_inj, eq_comm]
    rfl
  unfold ImageKind.ofMagic?
  simp only [h32, h64]
  cases kind <;> simp only [ImageKind.magic] <;> split <;> simp_all

theorem imageBase?_eq_some {base : UInt64} :
    kind.imageBase? optional = some base ↔ 32 ≤ optional.size ∧ base.toNat = match kind with
      | .pe32 => optional.field 28 4
      | .pe32Plus => optional.field 24 8 := by
  cases kind with
  | pe32 =>
    simp only [ImageKind.imageBase?, Option.map_eq_some_iff, Bytes.u32At?_eq_some]
    constructor
    · rintro ⟨v, ⟨hle, hv⟩, rfl⟩
      exact ⟨hle, by rw [hv, UInt32.toNat_toUInt64]⟩
    · rintro ⟨hle, hbase⟩
      refine ⟨.ofNat (optional.field 28 4), ⟨hle, (optional.toNat_field32 28).symm⟩, ?_⟩
      rw [← UInt64.toNat_inj, UInt32.toNat_toUInt64, Bytes.toNat_field32, hbase]
  | pe32Plus =>
    simp only [ImageKind.imageBase?, Bytes.u64At?_eq_some]
    rw [eq_comm (a := optional.field 24 8)]

/-- An optional header that is long enough gives a base. -/
theorem exists_imageBase (kind : ImageKind) (h : 32 ≤ optional.size) :
    ∃ base, kind.imageBase? optional = some base := by
  cases kind with
  | pe32 =>
    refine ⟨(UInt32.ofNat (optional.field 28 4)).toUInt64, imageBase?_eq_some.mpr ⟨h, ?_⟩⟩
    rw [UInt32.toNat_toUInt64, Bytes.toNat_field32]
  | pe32Plus =>
    exact ⟨.ofNat (optional.field 24 8), imageBase?_eq_some.mpr ⟨h, Bytes.toNat_field64 ..⟩⟩

theorem relocations?_eq_some {rva size : UInt32} :
    Image.relocations? kind optional = some (rva, size) ↔
      6 ≤ optional.field kind.directoryCountOffset 4 ∧ kind.relocationsAt + 8 ≤ optional.size ∧
        rva.toNat = optional.field kind.relocationsAt 4 ∧
        size.toNat = optional.field (kind.relocationsAt + 4) 4 := by
  have hentry : kind.directoriesOffset + Image.relocationDirectory * 8 = kind.relocationsAt := by
    cases kind <;> rfl
  have hbefore := kind.directoryCount_before_relocations
  unfold Image.relocations?
  simp only [hentry, Option.bind_eq_bind, Option.bind_eq_some_iff, Bytes.u32At?_eq_some]
  constructor
  · rintro ⟨count, ⟨-, hcounted⟩, h⟩
    split at h
    · simp at h
    · rename_i hmany
      simp only [Option.bind_eq_some_iff, Bytes.u32At?_eq_some, pure, Option.some.injEq,
        Prod.mk.injEq] at h
      obtain ⟨_, ⟨-, hrva⟩, _, ⟨hroom, hsize⟩, rfl, rfl⟩ := h
      unfold Image.relocationDirectory at hmany
      exact ⟨by omega, hroom, hrva.symm, hsize.symm⟩
  · rintro ⟨hmany, hroom, hrva, hsize⟩
    have hfew : ¬ optional.field kind.directoryCountOffset 4 ≤ Image.relocationDirectory := by
      unfold Image.relocationDirectory
      omega
    refine ⟨_, ⟨by omega, (Bytes.toNat_field32 ..).symm⟩, ?_⟩
    rw [Bytes.toNat_field32, if_neg hfew, Bytes.u32At?_eq_some.mpr ⟨by omega, hrva.symm⟩,
      Bytes.u32At?_eq_some.mpr ⟨hroom, hsize.symm⟩]
    rfl

/-! ## The whole chain -/

section Optional

def optionalOf (bs : Bytes) : Bytes := bs.slice (signatureAt bs + 24) (optionalLength bs)

variable (hfits : tableAt bs ≤ bs.size)
include hfits

theorem size_optionalOf : (optionalOf bs).size = optionalLength bs := Bytes.size_slice hfits

omit hfits in
theorem field_optionalOf {off n : Nat} (h : off + n ≤ optionalLength bs) (place : Nat)
    (hplace : place = signatureAt bs + 24 + off) : (optionalOf bs).field off n = bs.field place n := by
  rw [hplace]
  exact Bytes.field_slice h

theorem optionalMagic_eq_some {magic : UInt16} :
    (optionalOf bs).u16At? 0 = some magic ↔ 2 ≤ optionalLength bs ∧ magicOf bs = magic.toNat := by
  rw [Bytes.u16At?_eq_some, size_optionalOf hfits]
  apply and_congr_right
  intro hle
  rw [field_optionalOf hle (signatureAt bs + 24) rfl, magicOf]

theorem optionalEntry_eq_some {rva : UInt32} :
    (optionalOf bs).u32At? Image.entryOffset = some rva ↔
      20 ≤ optionalLength bs ∧ rva.toNat = bs.field (signatureAt bs + 40) 4 := by
  rw [Bytes.u32At?_eq_some, size_optionalOf hfits]
  apply and_congr_right
  intro hle
  rw [field_optionalOf hle (signatureAt bs + 40) rfl, eq_comm]

theorem optionalBase_eq_some {base : UInt64} :
    kind.imageBase? (optionalOf bs) = some base ↔ 32 ≤ optionalLength bs ∧ base.toNat = match kind with
      | .pe32 => bs.field (signatureAt bs + 52) 4
      | .pe32Plus => bs.field (signatureAt bs + 48) 8 := by
  rw [imageBase?_eq_some, size_optionalOf hfits]
  apply and_congr_right
  intro hlong
  cases kind with
  | pe32 =>
    have hwithin : 28 + 4 ≤ optionalLength bs := hlong
    rw [field_optionalOf hwithin (signatureAt bs + 52) rfl]
  | pe32Plus =>
    have hwithin : 24 + 8 ≤ optionalLength bs := hlong
    rw [field_optionalOf hwithin (signatureAt bs + 48) rfl]

theorem refuse_of_relocates (h : Relocates bs) :
    Image.refuseRelocations (layoutOf bs) (optionalOf bs) =
      .error (.relocationsPresent (.ofNat (relocationsRva bs)) (.ofNat (relocationsSize bs))) := by
  obtain ⟨hcount, hroom, hsize⟩ := h
  have hbefore := (layoutOf bs).directoryCount_before_relocations
  have hsome : Image.relocations? (layoutOf bs) (optionalOf bs) =
      some (.ofNat (relocationsRva bs), .ofNat (relocationsSize bs)) := by
    rw [relocations?_eq_some, size_optionalOf hfits, field_optionalOf (by omega) _ rfl,
      field_optionalOf (by omega) _ rfl, field_optionalOf (by omega) _ rfl]
    exact ⟨hcount, hroom, bs.toNat_field32 _, bs.toNat_field32 _⟩
  have hnonzero : UInt32.ofNat (relocationsSize bs) ≠ 0 := by
    intro hzero
    apply hsize
    have hnat := congrArg UInt32.toNat hzero
    rw [relocationsSize, Bytes.toNat_field32] at hnat
    exact hnat
  simp [Image.refuseRelocations, hsome, hnonzero]

theorem refuse_of_not_relocates (h : ¬ Relocates bs) :
    Image.refuseRelocations (layoutOf bs) (optionalOf bs) = .ok () := by
  unfold Image.refuseRelocations
  cases hsome : Image.relocations? (layoutOf bs) (optionalOf bs) with
  | none => rfl
  | some entry =>
    obtain ⟨rva, size⟩ := entry
    obtain ⟨hcount, hroom, -, hsize⟩ := relocations?_eq_some.mp hsome
    have hbefore := (layoutOf bs).directoryCount_before_relocations
    rw [size_optionalOf hfits] at hroom
    rw [field_optionalOf (by omega) _ rfl] at hcount hsize
    have hzero : size.toNat = 0 := by
      by_cases hnone : relocationsSize bs = 0
      · rw [hsize]
        exact hnone
      · exact absurd ⟨hcount, hroom, hnone⟩ h
    have hempty : size = 0 := UInt32.toNat_inj.mp hzero
    simp [hempty]

end Optional

/-- What comes of a file: the image that it tells of, or the error of the first demand it does not
meet. -/
inductive Judged (bs : Bytes) : Except PeError Image → Prop
  | accepted {image : Image} (hformed : WellFormed bs) (h : image.Describes bs) : Judged bs (.ok image)
  | refused {e : PeError} (h : FirstUnmet (demands bs) e) : Judged bs (.error e)

theorem known_of_magic (h : kind.magic = magicOf bs) : magicOf bs = 0x10B ∨ magicOf bs = 0x20B := by
  rw [← h]
  cases kind <;> simp [ImageKind.magic]

theorem layoutOf_eq (h : kind.magic = magicOf bs) : layoutOf bs = kind := by
  unfold layoutOf
  rw [← h]
  cases kind <;> rfl

/-- The chain from the optional header on. The headers before it are as demanded. -/
theorem judged_parseOptional {header : FileHeader} (hfits : tableAt bs ≤ bs.size)
    (hdos : bs.part 0 2 = [0x4D, 0x5A]) (hroom : 64 ≤ bs.size)
    (hsignature : bs.part (signatureAt bs) 4 = [0x50, 0x45, 0, 0])
    (hheld : signatureAt bs + 24 ≤ bs.size) (hheader : header.Decodes bs (signatureAt bs + 4))
    (hlength : header.optionalSize.toNat = optionalLength bs) :
    Judged bs (Image.parseOptional bs (optionalOf bs) header (signatureAt bs + 24)) := by
  have hlater : ∀ {e}, FirstUnmet ((demands bs).drop 5) e → Judged bs (.error e) :=
    fun h => .refused (.later hdos (.later hroom (.later hsignature (.later hheld (.later hfits h)))))
  unfold Image.parseOptional
  rw [hlength]
  dsimp only [bind, Except.bind, throw, throwThe, MonadExceptOf.throw, pure, Except.pure]
  split
  case h_2 hnone =>
    have hshort : ¬ 2 ≤ optionalLength bs := fun hle =>
      hnone _ ((optionalMagic_eq_some hfits).mpr ⟨hle, (bs.toNat_field16 _).symm⟩)
    exact hlater (.here hshort)
  rename_i magic hmagic
  obtain ⟨hle, hmagic⟩ := (optionalMagic_eq_some hfits).mp hmagic
  split
  case h_2 hnone =>
    have hneither : ¬ (magicOf bs = 0x10B ∨ magicOf bs = 0x20B) := by
      rintro (h | h)
      · exact hnone .pe32 (ofMagic?_eq_some.mpr (h.symm.trans hmagic))
      · exact hnone .pe32Plus (ofMagic?_eq_some.mpr (h.symm.trans hmagic))
    rw [← UInt16.ofNat_toNat (x := magic), ← hmagic]
    exact hlater (.later hle (.here hneither))
  rename_i kind hkind
  have hkind : kind.magic = magicOf bs := (ofMagic?_eq_some.mp hkind).trans hmagic.symm
  have hknown := known_of_magic hkind
  split
  case h_2 hnone =>
    have hshort : ¬ 32 ≤ optionalLength bs := fun hlong =>
      hnone _ ((optionalEntry_eq_some hfits).mpr
        ⟨Nat.le_trans (by decide) hlong, bs.toNat_field32 _⟩)
    exact hlater (.later hle (.later hknown (.here hshort)))
  rename_i entryRva hentry
  split
  case h_2 hnone =>
    have hshort : ¬ 32 ≤ optionalLength bs := by
      intro hlong
      obtain ⟨base, hbase⟩ := exists_imageBase kind ((size_optionalOf hfits).symm ▸ hlong)
      exact hnone base hbase
    exact hlater (.later hle (.later hknown (.here hshort)))
  rename_i imageBase hbase
  obtain ⟨-, hentry⟩ := (optionalEntry_eq_some hfits).mp hentry
  obtain ⟨hlong, hbase⟩ := (optionalBase_eq_some hfits).mp hbase
  rw [← layoutOf_eq hkind]
  by_cases hrelocates : Relocates bs
  · rw [refuse_of_relocates hfits hrelocates]
    exact hlater (.later hle (.later hknown (.later hlong (.here (not_not_intro hrelocates)))))
  · rw [refuse_of_not_relocates hfits hrelocates, layoutOf_eq hkind]
    exact .accepted ⟨hroom, hdos, hsignature, hfits, hlong, hknown, hrelocates⟩
      ⟨rfl, hheader, hkind, hentry, hbase, rfl⟩

/-- Each read of the chain either fails for the next demand, or leaves that demand met for the later
ones. -/
theorem judged_parse (bs : Bytes) : Judged bs (Image.parse bs) := by
  unfold Image.parse
  dsimp only [bind, Except.bind, throw, throwThe, MonadExceptOf.throw, pure, Except.pure]
  split
  case isTrue hdos => exact .refused (.here (mt dosMagic_iff.mpr hdos))
  rename_i hdos
  have hdos := dosMagic_iff.mp (Decidable.not_not.mp hdos)
  split
  case h_2 hnone =>
    have hshort := Bytes.u32At?_eq_none.mp (Option.eq_none_iff_forall_ne_some.mpr hnone)
    exact .refused (.later hdos (.here (Nat.not_le.mpr hshort)))
  rename_i nt hnt
  obtain ⟨hroom, hat⟩ := signaturePointer_eq_some.mp hnt
  have hplace : signatureAt bs + 4 + FileHeader.size = signatureAt bs + 24 := by
    simp [FileHeader.size]
  rw [← hat, hplace]
  split
  case isTrue hsignature =>
    exact .refused (.later hdos (.later hroom (.here (mt ntSignature_iff.mpr hsignature))))
  rename_i hsignature
  have hsignature := ntSignature_iff.mp (Decidable.not_not.mp hsignature)
  split
  case h_2 hnone =>
    have hshort : ¬ signatureAt bs + 24 ≤ bs.size := by
      intro hle
      obtain ⟨header, hdecodes⟩ := FileHeader.exists_decodes bs (signatureAt bs + 4)
      exact hnone header (FileHeader.read?_eq_some.mpr ⟨by rwa [hplace], hdecodes⟩)
    exact .refused (.later hdos (.later hroom (.later hsignature (.here hshort))))
  rename_i header hheader
  obtain ⟨hheld, hdecodes⟩ := FileHeader.read?_eq_some.mp hheader
  rw [hplace] at hheld
  have hlength : header.optionalSize.toNat = optionalLength bs := by
    rw [hdecodes.optionalSize, Nat.add_assoc]
    rfl
  rw [hlength]
  split
  case h_2 hnone =>
    have hlong : ¬ tableAt bs ≤ bs.size := fun hle => hnone _ (Bytes.slice?_eq_some.mpr ⟨hle, rfl⟩)
    exact .refused (.later hdos (.later hroom (.later hsignature (.later hheld (.here hlong)))))
  rename_i optional hoptional
  obtain ⟨hfits, rfl⟩ := Bytes.slice?_eq_some.mp hoptional
  exact judged_parseOptional hfits hdos hroom hsignature hheld hdecodes hlength

theorem ImageKind.magic_injective {kind kind' : ImageKind} (h : kind.magic = kind'.magic) :
    kind = kind' := by
  cases kind <;> cases kind' <;> first | rfl | exact absurd h (by decide)

/-- The headers tell of one image. -/
theorem Image.Describes.unique {image' : Image} (h : image.Describes bs) (h' : image'.Describes bs) :
    image = image' := by
  have hkind := ImageKind.magic_injective (h.kind.trans h'.kind.symm)
  have hbase : image.imageBase = image'.imageBase := by
    rw [← UInt64.toNat_inj, h.imageBase, h'.imageBase, hkind]
  have hentry : image.entryRva = image'.entryRva := by
    rw [← UInt32.toNat_inj, h.entryRva, h'.entryRva]
  have hheader := h.header.unique h'.header
  have hbytes := h.bytes.trans h'.bytes.symm
  have htable := h.sectionTable.trans h'.sectionTable.symm
  cases image
  cases image'
  simp_all only

theorem not_firstUnmet {e : PeError} (h : WellFormed bs) : ¬ FirstUnmet (demands bs) e := by
  intro hfirst
  obtain ⟨d, hd, hunmet⟩ := hfirst.exists
  exact hunmet (h.meets d hd)

theorem parse_eq_ok : Image.parse bs = .ok image ↔ WellFormed bs ∧ image.Describes bs := by
  have hjudged := judged_parse bs
  constructor
  · intro h
    rw [h] at hjudged
    cases hjudged with
    | accepted hformed hdescribes => exact ⟨hformed, hdescribes⟩
  · rintro ⟨hformed, hdescribes⟩
    cases hparse : Image.parse bs with
    | ok image' =>
      rw [hparse] at hjudged
      cases hjudged with
      | accepted _ hdescribes' => rw [hdescribes.unique hdescribes']
    | error e =>
      rw [hparse] at hjudged
      cases hjudged with
      | refused hfirst => exact absurd hfirst (not_firstUnmet hformed)

theorem parse_bytes (h : Image.parse bs = .ok image) : image.bytes = bs :=
  (parse_eq_ok.mp h).2.bytes

theorem parse_eq_error {e : PeError} : Image.parse bs = .error e ↔ FirstUnmet (demands bs) e := by
  have hjudged := judged_parse bs
  constructor
  · intro h
    rw [h] at hjudged
    cases hjudged with
    | refused hfirst => exact hfirst
  · intro hfirst
    cases hparse : Image.parse bs with
    | ok image =>
      rw [hparse] at hjudged
      cases hjudged with
      | accepted hformed _ => exact absurd hfirst (not_firstUnmet hformed)
    | error e' =>
      rw [hparse] at hjudged
      cases hjudged with
      | refused hfirst' => rw [hfirst.unique hfirst']

theorem exists_parse : (∃ image, Image.parse bs = .ok image) ↔ WellFormed bs := by
  constructor
  · rintro ⟨image, h⟩
    exact (parse_eq_ok.mp h).1
  · intro hformed
    cases hparse : Image.parse bs with
    | ok image => exact ⟨image, rfl⟩
    | error e => exact absurd (parse_eq_error.mp hparse) (not_firstUnmet hformed)

/-- An image is accepted exactly where its headers are well-formed, and what is read of them is what
the file has at their places. A file that is refused is refused for the first demand that it does
not meet. -/
theorem parse_accepts_grammar (bs : Bytes) :
    ((∃ image, Image.parse bs = .ok image) ↔ WellFormed bs) ∧
      (∀ image, Image.parse bs = .ok image ↔ WellFormed bs ∧ image.Describes bs) ∧
      ∀ e, Image.parse bs = .error e ↔ FirstUnmet (demands bs) e :=
  ⟨exists_parse, fun _ => parse_eq_ok, fun _ => parse_eq_error⟩

end BootLoader.Pe
