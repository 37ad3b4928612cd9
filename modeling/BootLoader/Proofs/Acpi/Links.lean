import BootLoader.Proofs.Acpi.Chain
import BootLoader.Proofs.Computation
import BootLoader.Proofs.Memory.Read

/-! The links of a walk one by one: each is found exactly where it is. -/

namespace BootLoader.Acpi

variable {m : Memory} {a : Address} {n : Nat} {bs : Bytes}

theorem view_eq_ok : view m a n = .ok bs ↔ m.read? a n = some bs := by
  have hread : Mapping.read? m a n = m.read? a n := rfl
  rw [view, hread]
  cases m.read? a n <;> simp

/-- A view is of as many bytes as were asked for, or there is nothing to be read. -/
theorem view_cases (m : Memory) (a : Address) (n : Nat) :
    (∃ bs, view m a n = .ok bs ∧ m.read? a n = some bs ∧ bs.size = n) ∨
      ∃ e, view m a n = .error e ∧ ∀ bs, m.read? a n ≠ some bs := by
  cases hview : view m a n with
  | ok bs =>
    have hread := view_eq_ok.mp hview
    exact .inl ⟨bs, rfl, hread, Memory.size_read? hread⟩
  | error e =>
    refine .inr ⟨e, rfl, fun bs hread => ?_⟩
    rw [view_eq_ok.mpr hread] at hview
    cases hview

/-- What is viewed at the start of a longer stretch is the beginning of it. -/
theorem view_eq_slice (hm : m.Apart) {k : Nat} {head : Bytes} (hview : view m a k = .ok head)
    (hread : m.read? a bs.size = some bs) (hk : 0 < k) (hle : k ≤ bs.size) : head = bs.slice 0 k :=
  Option.some.inj ((view_eq_ok.mp hview).symm.trans (Memory.read?_shorter hm hread hk hle))

theorem Stretch.In.shorter {t : Stretch} (hm : m.Apart) (h : t.In m) {k : Nat} (hk : 0 < k)
    (hle : k ≤ t.bytes.size) : view m t.address k = .ok (t.bytes.slice 0 k) :=
  view_eq_ok.mpr (Memory.read?_shorter hm h hk hle)

theorem Stretch.In.whole {t : Stretch} (h : t.In m) :
    view m t.address t.bytes.size = .ok t.bytes := view_eq_ok.mpr h

/-! ## Headers -/

theorem Signature.ext_bytes {s s' : Signature n} (h : s.bytes = s'.bytes) : s = s' := by
  cases s
  cases s'
  cases h
  rfl

theorem Signature.read?_eq_some {off : Nat} {s : Signature n} :
    Signature.read? bs off = some s ↔ off + n ≤ bs.size ∧ s.bytes = bs.part off n := by
  unfold Signature.read?
  split
  · rename_i h
    obtain ⟨bytes, width⟩ := s
    simp [h, Bytes.listFrom_eq h, Bytes.part, eq_comm]
  · rename_i h
    simp [h]

/-- A header lies in the first 36 bytes. -/
theorem Header.decodes_slice {h : Header} : h.Decodes (bs.slice 0 36) ↔ h.Decodes bs := by
  simp (disch := decide) only [Header.decodes_iff, Bytes.part_slice, Bytes.field_slice, Nat.zero_add]

theorem Header.read?_eq_some {h : Header} :
    Header.read? bs = some h ↔ 36 ≤ bs.size ∧ h.Decodes bs := by
  rw [← Header.decodes_slice]
  unfold Header.read?
  simp only [Option.bind_eq_bind, Option.bind_eq_some_iff, Bytes.slice?_eq_some,
    Signature.read?_eq_some, Bytes.u32At?_eq_some, Bytes.get?_eq_some]
  constructor
  · rintro ⟨_, ⟨hle, rfl⟩, _, ⟨-, hsignature⟩, _, ⟨-, hlength⟩, _, ⟨-, hrevision⟩, _, ⟨-, hchecksum⟩,
      _, ⟨-, hoemId⟩, _, ⟨-, hoemTableId⟩, _, ⟨-, hoemRevision⟩, _, ⟨-, hcreatorId⟩, _,
      ⟨-, hcreatorRevision⟩, hmk⟩
    cases hmk
    exact ⟨hle, hsignature, hlength.symm, hrevision.symm, hchecksum.symm, hoemId, hoemTableId,
      hoemRevision.symm, hcreatorId, hcreatorRevision.symm⟩
  · rintro ⟨hle, hsignature, hlength, hrevision, hchecksum, hoemId, hoemTableId, hoemRevision,
      hcreatorId, hcreatorRevision⟩
    have hsize : (bs.slice 0 size).size = 36 := Bytes.size_slice (by rw [Nat.zero_add]; exact hle)
    have room : ∀ {k}, k ≤ 36 → k ≤ (bs.slice 0 size).size := fun hk => hsize ▸ hk
    exact ⟨_, ⟨hle, rfl⟩, _, ⟨room (by decide), hsignature⟩, _, ⟨room (by decide), hlength.symm⟩, _,
      ⟨room (by decide), hrevision.symm⟩, _, ⟨room (by decide), hchecksum.symm⟩, _,
      ⟨room (by decide), hoemId⟩, _, ⟨room (by decide), hoemTableId⟩, _,
      ⟨room (by decide), hoemRevision.symm⟩, _, ⟨room (by decide), hcreatorId⟩, _,
      ⟨room (by decide), hcreatorRevision.symm⟩, rfl⟩

/-- Any 36 bytes are a header. -/
theorem Header.exists_decodes (h : 36 ≤ bs.size) : ∃ header : Header, header.Decodes bs := by
  refine ⟨{
    signature := ⟨bs.part 0 4, Bytes.length_part (by omega)⟩
    length := .ofNat (bs.field 4 4)
    revision := .ofNat (bs.field 8 1)
    checksum := .ofNat (bs.field 9 1)
    oemId := ⟨bs.part 10 6, Bytes.length_part (by omega)⟩
    oemTableId := ⟨bs.part 16 8, Bytes.length_part (by omega)⟩
    oemRevision := .ofNat (bs.field 24 4)
    creatorId := ⟨bs.part 28 4, Bytes.length_part (by omega)⟩
    creatorRevision := .ofNat (bs.field 32 4) }, ?_⟩
  simp only [Header.decodes_iff, Bytes.toNat_field8, Bytes.toNat_field32, and_self]

/-! ## Tables -/

theorem Table.load_of_head {head : Bytes} {header : Header} (hview : view m a 36 = .ok head)
    (hheader : Header.read? head = some header) (wanted : TableSignature) :
    Table.load m a (some wanted) =
      if header.signature ≠ wanted then .error (.badSignature a wanted header.signature)
      else if header.length.toNat < Header.size ∨ maxLength < header.length.toNat then
        .error (.badLength a header.length)
      else (view m a header.length.toNat).map (⟨a, header, ·⟩) := by
  unfold load
  change (view m a 36 >>= _) = _
  rw [hview, except_ok_bind, hheader]
  dsimp only
  split
  · rfl
  · split
    · rfl
    · cases view m a header.length.toNat <;> rfl

/-- A load finds the table that lies there under the name, if one does. -/
theorem Table.load_eq_ok (hm : m.Apart) {wanted : TableSignature} {t : Table} :
    Table.load m a (some wanted) = .ok t ↔
      ∃ l : Stretch, l.address = a ∧ IsTable m wanted l ∧ t.Decodes l := by
  constructor
  · intro h
    rcases view_cases m a 36 with ⟨head, hview, -, hsize⟩ | ⟨e, hview, -⟩
    · have hle : 36 ≤ head.size := Nat.le_of_eq hsize.symm
      obtain ⟨header, hdecodes⟩ := Header.exists_decodes hle
      rw [load_of_head hview (Header.read?_eq_some.mpr ⟨hle, hdecodes⟩)] at h
      split at h
      · cases h
      · rename_i hname
        split at h
        · cases h
        · rename_i hlength
          change ¬ (header.length.toNat < 36 ∨ maxLength < header.length.toNat) at hlength
          rcases view_cases m a header.length.toNat with ⟨bs, hall, hread, hlen⟩ | ⟨e, hall, -⟩
          · rw [hall] at h
            cases h
            rw [← hlen] at hread hlength
            have hlow : 36 ≤ bs.size := by omega
            have hhead := view_eq_slice hm hview hread (by decide) hlow
            rw [hhead, Header.decodes_slice] at hdecodes
            rw [Decidable.not_not] at hname
            refine ⟨⟨a, bs⟩, rfl, ⟨hread, ?_, ?_, hlow, ?_⟩, rfl, rfl, hdecodes⟩
            · rw [← hname, hdecodes.signature]
            · rw [← hdecodes.length, hlen]
            · exact Nat.not_lt.mp fun hlt => hlength (.inr hlt)
          · rw [hall] at h
            cases h
    · unfold load at h
      change (view m a 36 >>= _) = _ at h
      rw [hview] at h
      cases h
  · rintro ⟨l, rfl, htable, haddress, hbytes, hdecodes⟩
    have hsize : (l.bytes.slice 0 36).size = 36 :=
      Bytes.size_slice (by rw [Nat.zero_add]; exact htable.atLeast)
    have hread : Header.read? (l.bytes.slice 0 36) = some t.header :=
      Header.read?_eq_some.mpr ⟨Nat.le_of_eq hsize.symm, Header.decodes_slice.mpr hdecodes⟩
    have hname : t.header.signature = wanted :=
      Signature.ext_bytes (hdecodes.signature.trans htable.name)
    have hlength : t.header.length.toNat = l.bytes.size := hdecodes.length.trans htable.length
    have hbounds : ¬ (l.bytes.size < Header.size ∨ maxLength < l.bytes.size) := by
      have hlow : Header.size ≤ l.bytes.size := htable.atLeast
      have hhigh : l.bytes.size ≤ maxLength := htable.atMost
      omega
    rw [load_of_head (htable.lies.shorter hm (by decide) htable.atLeast) hread,
      if_neg (Classical.not_not.mpr hname), hlength, if_neg hbounds, htable.lies.whole]
    rw [← haddress, ← hbytes]
    rfl

/-! ## Root pointers -/

namespace RootPointer

variable {r r' : RootPointer} {l : Stretch}

theorem DecodesShort.unique (h : r.DecodesShort l) (h' : r'.DecodesShort l)
    (hxsdt : r.xsdt = r'.xsdt) : r = r' := by
  cases r
  cases r'
  rw [mk.injEq]
  exact ⟨h.address.trans h'.address.symm, UInt8.toNat_inj.mp (h.revision.trans h'.revision.symm),
    Signature.ext_bytes (h.oemId.trans h'.oemId.symm),
    UInt32.toNat_inj.mp (h.rsdt.trans h'.rsdt.symm), hxsdt⟩

theorem exists_decodesShort (h : 20 ≤ l.bytes.size) (xsdt : Option UInt64) :
    ∃ r : RootPointer, r.DecodesShort l ∧ r.xsdt = xsdt :=
  ⟨⟨l.address, .ofNat (l.bytes.field 15 1), ⟨l.bytes.part 9 6, Bytes.length_part (by omega)⟩,
      .ofNat (l.bytes.field 16 4), xsdt⟩,
    ⟨rfl, l.bytes.toNat_field8 15, rfl, l.bytes.toNat_field32 16⟩, rfl⟩

theorem parseShort_of_view (hview : view m a 20 = .ok bs) (hr : r.DecodesShort ⟨a, bs⟩)
    (hxsdt : r.xsdt = none) {name : Signature 8} (hname : name.bytes = bs.part 0 8) :
    parseShort m a =
      if name ≠ Signature.rootPointer then .error (.badRootSignature a name)
      else if bs.sum ≠ 0 then .error (.badChecksum "RSDP" a) else .ok r := by
  have hsize : bs.size = 20 := Memory.size_read? (view_eq_ok.mp hview)
  obtain ⟨address, revision, oemId, rsdt, xsdt⟩ := r
  cases hxsdt
  cases hr.address
  have hfound : Signature.read? bs 0 = some name := Signature.read?_eq_some.mpr ⟨by omega, hname⟩
  have hrevision : bs.get? 15 = some revision := Bytes.get?_eq_some.mpr ⟨by omega, hr.revision.symm⟩
  have hoemId : Signature.read? bs 9 = some oemId := Signature.read?_eq_some.mpr ⟨by omega, hr.oemId⟩
  have hrsdt : bs.u32At? 16 = some rsdt := Bytes.u32At?_eq_some.mpr ⟨by omega, hr.rsdt.symm⟩
  unfold parseShort
  rw [show view m a shortSize = .ok bs from hview]
  simp only [except_ok_bind, hfound, hrevision, hoemId, hrsdt]
  split
  · rfl
  · split <;> rfl

/-- The part that every root pointer has is read where 20 bytes are mapped that start and sum up
right. -/
theorem parseShort_eq_ok : parseShort m a = .ok r ↔
    r.xsdt = none ∧ ∃ bs, m.read? a 20 = some bs ∧ bs.part 0 8 = Signature.rootPointer.bytes ∧
      bs.sum = 0 ∧ r.DecodesShort ⟨a, bs⟩ := by
  rcases view_cases m a 20 with ⟨bs, hview, hread, hsize⟩ | ⟨e, hview, hnone⟩
  · obtain ⟨s, hs, hxsdt⟩ := exists_decodesShort (l := ⟨a, bs⟩) (Nat.le_of_eq hsize.symm) none
    obtain ⟨found, hfound⟩ : ∃ found : Signature 8, found.bytes = bs.part 0 8 :=
      ⟨⟨bs.part 0 8, Bytes.length_part (by omega)⟩, rfl⟩
    rw [parseShort_of_view hview hs hxsdt hfound]
    constructor
    · intro h
      split at h
      · cases h
      · rename_i hname
        split at h
        · cases h
        · rename_i hsum
          cases h
          rw [Classical.not_not] at hname hsum
          exact ⟨hxsdt, bs, hread, hfound.symm.trans (congrArg Signature.bytes hname), hsum, hs⟩
    · rintro ⟨hr, bs', hread', hname, hsum, hdecodes⟩
      cases hread.symm.trans hread'
      rw [if_neg (Classical.not_not.mpr (Signature.ext_bytes (hfound.trans hname))),
        if_neg (Classical.not_not.mpr hsum), hs.unique hdecodes (hxsdt.trans hr.symm)]
  · unfold parseShort
    rw [show view m a shortSize = .error e from hview]
    simp [hnone]

theorem parseLong_of_view {head : Bytes} (hview : view m a 36 = .ok head) {length : UInt32}
    (hlength : length.toNat = head.field 20 4) {x : UInt64} (hx : x.toNat = head.field 24 8) :
    parseLong m a =
      if length.toNat < longSize ∨ maxSize < length.toNat then .error (.badLength a length)
      else (view m a length.toNat) >>= fun bs =>
        if bs.sum ≠ 0 then .error (.badChecksum "XSDP" a) else .ok (some x) := by
  have hsize : head.size = 36 := Memory.size_read? (view_eq_ok.mp hview)
  have hword : head.u32At? 20 = some length := Bytes.u32At?_eq_some.mpr ⟨by omega, hlength.symm⟩
  have hlong : head.u64At? 24 = some x := Bytes.u64At?_eq_some.mpr ⟨by omega, hx.symm⟩
  unfold parseLong
  rw [show view m a longSize = .ok head from hview]
  simp only [except_ok_bind, hword, hlong, Option.getD_some]
  split
  · rfl
  · cases view m a length.toNat with
    | error e => rfl
    | ok bs =>
      simp only [except_ok_bind]
      split <;> rfl

/-- The long form's address is read where as many bytes are mapped as the form says, not too few and
not too many, and sum up right. -/
theorem parseLong_eq_ok (hm : m.Apart) {x : Option UInt64} : parseLong m a = .ok x ↔
    ∃ bs, m.read? a bs.size = some bs ∧ (36 ≤ bs.size ∧ bs.size ≤ 4096 ∧
      bs.field 20 4 = bs.size ∧ bs.sum = 0) ∧ x.map UInt64.toNat = some (bs.field 24 8) := by
  rcases view_cases m a 36 with ⟨head, hview, -, -⟩ | ⟨e, hview, hnone⟩
  · have hlength := head.toNat_field32 20
    have hlong := head.toNat_field64 24
    -- the length and the address are read from the first 36 bytes, whatever is read after that
    have hfield : ∀ {bs : Bytes} {off k : Nat}, head = bs.slice 0 36 → off + k ≤ 36 →
        head.field off k = bs.field off k := by
      intro bs off k h hle
      rw [h, Bytes.field_slice hle, Nat.zero_add]
    rw [parseLong_of_view hview hlength hlong, hlength]
    constructor
    · intro h
      split at h
      · cases h
      · rename_i hbounds
        rcases view_cases m a (head.field 20 4) with ⟨bs, hall, hread, hsize⟩ | ⟨e, hall, -⟩
        · rw [← hsize] at hread hbounds
          rw [hall, except_ok_bind] at h
          split at h
          · cases h
          · rename_i hsum
            cases h
            change ¬ (bs.size < 36 ∨ 4096 < bs.size) at hbounds
            have hslice := view_eq_slice hm hview hread (by decide) (by omega)
            refine ⟨bs, hread, ⟨by omega, by omega, ?_, Classical.not_not.mp hsum⟩, ?_⟩
            · rw [← hfield hslice (by decide), hsize]
            · rw [Option.map_some, hlong, hfield hslice (by decide)]
        · rw [hall] at h
          cases h
    · rintro ⟨bs, hread, ⟨hlow, hhigh, hsize, hsum⟩, hx⟩
      have hslice := view_eq_slice hm hview hread (by decide) hlow
      have hbounds : ¬ (bs.size < longSize ∨ maxSize < bs.size) := by
        change ¬ (bs.size < 36 ∨ 4096 < bs.size)
        omega
      obtain ⟨word, rfl, hword⟩ := Option.map_eq_some_iff.mp hx
      rw [hfield hslice (by decide), hsize, if_neg hbounds, view_eq_ok.mpr hread, except_ok_bind,
        if_neg (Classical.not_not.mpr hsum), hfield hslice (by decide), ← hword, UInt64.ofNat_toNat]
  · constructor
    · intro h
      unfold parseLong at h
      rw [show view m a longSize = .error e from hview] at h
      cases h
    · rintro ⟨bs, hread, ⟨hlow, -⟩, -⟩
      exact absurd (Memory.read?_shorter hm hread (by decide) hlow) (hnone _)

theorem decodesShort_slice : r.DecodesShort ⟨a, bs.slice 0 20⟩ ↔ r.DecodesShort ⟨a, bs⟩ := by
  simp (disch := decide) only [decodesShort_iff, Stretch.revision, Bytes.part_slice, Bytes.field_slice,
    Nat.zero_add]

theorem usesXsdt_iff (h : r.DecodesShort l) : r.usesXsdt = true ↔ 2 ≤ l.revision := by
  rw [← h.revision, usesXsdt, decide_eq_true_iff, UInt8.le_iff_toNat_le]
  rfl

/-- A root pointer is found exactly where it is. -/
theorem parse_eq_ok (hm : m.Apart) :
    parse m a = .ok r ↔ ∃ l : Stretch, l.address = a ∧ IsRoot m l ∧ r.Decodes l := by
  unfold parse
  constructor
  · intro h
    obtain ⟨root, hshort, hrest⟩ := except_bind_eq_ok.mp h
    obtain ⟨hxsdt, bs, hread, hname, hsum, hdecodes⟩ := parseShort_eq_ok.mp hshort
    have hsize : bs.size = 20 := Memory.size_read? hread
    have hwhole : bs.slice 0 20 = bs := hsize ▸ bs.slice_size
    split at hrest
    · rename_i hlate
      rw [usesXsdt_iff hdecodes] at hlate
      obtain ⟨x, hlong, hr⟩ := except_bind_eq_ok.mp hrest
      cases hr
      obtain ⟨all, hall, hform, hx⟩ := (parseLong_eq_ok hm).mp hlong
      have hslice : bs = all.slice 0 20 :=
        view_eq_slice hm (view_eq_ok.mpr hread) hall (by decide) (by omega)
      rw [hslice, decodesShort_slice] at hdecodes
      rw [hslice, Bytes.part_slice (by decide)] at hname
      have hrevision : Stretch.revision ⟨a, bs⟩ = Stretch.revision ⟨a, all⟩ := by
        change bs.field 15 1 = all.field 15 1
        rw [hslice, Bytes.field_slice (by decide)]
      rw [hrevision] at hlate
      have hlow : 20 ≤ all.size := Nat.le_trans (by decide) hform.1
      refine ⟨⟨a, all⟩, rfl, ⟨hall, hlow, hname, hslice ▸ hsum, ?_, fun _ => hform⟩,
        ⟨hdecodes.address, hdecodes.revision, hdecodes.oemId, hdecodes.rsdt⟩, ?_⟩
      · omega
      · rw [if_neg (by omega)]
        exact hx
    · rename_i hearly
      rw [usesXsdt_iff hdecodes] at hearly
      cases hrest
      have hlies : Stretch.In ⟨a, bs⟩ m := by
        rw [← hsize] at hread
        exact hread
      refine ⟨⟨a, bs⟩, rfl,
        ⟨hlies, Nat.le_of_eq hsize.symm, hname, hwhole.symm ▸ hsum, fun _ => hsize, ?_⟩,
        hdecodes, ?_⟩
      · omega
      · rw [if_pos (by omega), hxsdt]
        rfl
  · rintro ⟨l, rfl, hroot, hdecodes⟩
    have hstart : RootPointer.DecodesShort { r with xsdt := none } ⟨l.address, l.bytes.slice 0 20⟩ :=
      decodesShort_slice.mpr
        ⟨hdecodes.address, hdecodes.revision, hdecodes.oemId, hdecodes.rsdt⟩
    have hshort : parseShort m l.address = .ok { r with xsdt := none } := by
      refine parseShort_eq_ok.mpr ⟨rfl, l.bytes.slice 0 20, ?_, ?_, hroot.sum, hstart⟩
      · exact view_eq_ok.mp (hroot.lies.shorter hm (by decide) hroot.atLeast)
      · rw [Bytes.part_slice (by decide)]
        exact hroot.name
    rw [hshort, except_ok_bind]
    have hxsdt := hdecodes.xsdt
    by_cases hlate : 2 ≤ l.revision
    · rw [if_neg (by omega)] at hxsdt
      have hlong : parseLong m l.address = .ok r.xsdt :=
        (parseLong_eq_ok hm).mpr ⟨l.bytes, hroot.lies, hroot.long hlate, hxsdt⟩
      have huses : usesXsdt { r with xsdt := none } = true :=
        (usesXsdt_iff hdecodes.toDecodesShort).mpr hlate
      rw [if_pos huses, hlong]
      rfl
    · rw [if_pos (by omega), Option.map_eq_none_iff] at hxsdt
      have huses : ¬ usesXsdt { r with xsdt := none } = true := fun h =>
        hlate ((usesXsdt_iff hdecodes.toDecodesShort).mp h)
      rw [if_neg huses, ← hxsdt]
      rfl

end RootPointer

end BootLoader.Acpi
