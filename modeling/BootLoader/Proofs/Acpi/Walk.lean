import BootLoader.Proofs.Acpi.Links
import Mathlib.Data.List.Basic
import Mathlib.Data.List.TakeDrop
import Mathlib.Data.List.TakeWhile

/-! A walk ends well exactly where there is a chain to be found, and reports that chain. -/

namespace BootLoader.Acpi

variable {m : Memory} {a : Address} {l : Stretch}

/-! ## What the firmware publishes -/

namespace ConfigEntry

variable {kind : EntryKind} {entries : List ConfigEntry} {e : ConfigEntry}

theorem firstOf_eq_some : firstOf kind entries = some e ↔ IsFirst kind entries e := by
  unfold firstOf IsFirst
  simp [List.find?_eq_some_iff_append]

theorem firstOf_eq_none : firstOf kind entries = none ↔ ∀ e ∈ entries, e.kind ≠ kind := by
  simp [firstOf]

theorem root?_eq_some : root? entries = some e ↔ IsFirst .acpi2 entries e ∨
    (∀ e' ∈ entries, e'.kind ≠ .acpi2) ∧ IsFirst .acpi1 entries e := by
  rw [root?, Option.or_eq_some_iff, firstOf_eq_some, firstOf_eq_none, firstOf_eq_some]

theorem deviceTree?_eq_some :
    deviceTree? entries = some a ↔ ∃ e, IsFirst .deviceTree entries e ∧ e.address = a := by
  simp [deviceTree?, firstOf_eq_some]

end ConfigEntry

theorem publishes_iff {entries : List ConfigEntry} :
    Publishes entries a ↔ ∃ e, ConfigEntry.root? entries = some e ∧ e.address = a := by
  simp only [Publishes, ConfigEntry.root?_eq_some, and_comm]

theorem RootPointer.locate_eq_ok (hm : m.Apart) {entries : List ConfigEntry} {r : RootPointer} :
    (locate m entries).result = .ok r ↔
      ∃ l : Stretch, Publishes entries l.address ∧ IsRoot m l ∧ r.Decodes l := by
  have hresult : (locate m entries).result = match ConfigEntry.root? entries with
      | some e => parse m e.address
      | none => .error .noRootPointer := by
    unfold locate
    cases ConfigEntry.root? entries <;> rfl
  rw [hresult]
  simp only [publishes_iff]
  cases ConfigEntry.root? entries with
  | none => simp
  | some e =>
    simp only [parse_eq_ok hm, Option.some.injEq, exists_eq_left']
    constructor
    · rintro ⟨l, haddress, hroot⟩
      exact ⟨l, haddress.symm, hroot⟩
    · rintro ⟨l, haddress, hroot⟩
      exact ⟨l, haddress.symm, hroot⟩

/-! ## The table of tables -/

theorem Stretch.tablesPointer_lt (l : Stretch) : l.tablesPointer < Address.space := by
  unfold tablesPointer
  split
  · exact Nat.lt_of_lt_of_le (l.bytes.field_lt 16 4) (by decide)
  · exact l.bytes.field_lt 24 8

theorem EntryWidth.entry?_eq_some {bs : Bytes} {width : EntryWidth} {i : Nat}
    (h : i * width.bytes + width.bytes ≤ bs.size) :
    width.entry? bs i = some (.ofNat (bs.field (i * width.bytes) width.bytes)) := by
  cases width with
  | legacy =>
    have hlt : bs.field (i * legacy.bytes) 4 < Address.space :=
      Nat.lt_of_lt_of_le (bs.field_lt _ 4) (by decide)
    unfold entry?
    rw [Bytes.u32At?_of_le h, Option.map_some]
    refine congrArg some ((Address.eq_ofNat_iff hlt).mpr ?_)
    exact bs.toNat_field32 (i * legacy.bytes)
  | extended =>
    unfold entry?
    rw [Bytes.u64At?_of_le h]
    rfl

namespace RootTable

/-- The address and the width that a root pointer tells. -/
theorem told_of_decodes {r : RootPointer} (hr : r.Decodes l) :
    (if r.usesXsdt then (⟨r.xsdt.getD 0⟩, .extended) else (⟨r.rsdt.toUInt64⟩, .legacy)) =
      ((Address.ofNat l.tablesPointer, l.entryWidth) : Address × EntryWidth) := by
  have hxsdt := hr.xsdt
  have huses := RootPointer.usesXsdt_iff hr.toDecodesShort
  unfold Stretch.tablesPointer Stretch.entryWidth
  by_cases hlate : 2 ≤ l.revision
  · rw [if_neg (by omega)] at hxsdt
    obtain ⟨word, hword, hfield⟩ := Option.map_eq_some_iff.mp hxsdt
    rw [if_pos (huses.mpr hlate), if_neg (by omega), if_neg (by omega), hword, ← hfield]
    simp [Address.ofNat]
  · rw [if_neg (fun h => hlate (huses.mp h)), if_pos (by omega), if_pos (by omega), ← hr.rsdt]
    simp [Address.ofNat]

theorem resolve_eq_ok (hm : m.Apart) {r : RootPointer} (hr : r.Decodes l) {t : RootTable} :
    resolve m r = .ok t ↔ l.tablesPointer ≠ 0 ∧ t.width = l.entryWidth ∧
      ∃ s : Stretch, s.address.toNat = l.tablesPointer ∧ IsTable m l.entryWidth.signature s ∧
        t.table.Decodes s := by
  have hnull : (Address.ofNat l.tablesPointer).isNull = true ↔ l.tablesPointer = 0 := by
    rw [Address.isNull_iff, eq_comm, Address.eq_ofNat_iff l.tablesPointer_lt, eq_comm]
    rfl
  unfold resolve
  rw [told_of_decodes hr]
  dsimp only
  split
  · rename_i h
    simp [hnull.mp h, throw, throwThe, MonadExceptOf.throw]
  · rename_i h
    rw [hnull] at h
    obtain ⟨table, width⟩ := t
    simp only [except_bind_eq_ok, Table.load_eq_ok hm, Address.eq_ofNat_iff l.tablesPointer_lt]
    constructor
    · rintro ⟨found, hfound, ht⟩
      cases ht
      exact ⟨h, rfl, hfound⟩
    · rintro ⟨-, hwidth, hfound⟩
      exact ⟨table, hfound, hwidth ▸ rfl⟩

/-- What is at the entries' addresses is told by the first four bytes there. -/
theorem target_eq_table {wanted : TableSignature} : target m a = .table wanted ↔ Names m a wanted := by
  have hnull : a ≠ .zero ↔ ¬ a.isNull = true := not_congr Address.isNull_iff.symm
  unfold target Names
  rw [hnull]
  split
  · rename_i h
    simp [h]
  · rename_i h
    rcases view_cases m a 4 with ⟨head, hview, hread, hsize⟩ | ⟨e, hview, hnone⟩
    · rw [hview]
      obtain ⟨found, hfound⟩ : ∃ found : TableSignature, found.bytes = head.part 0 4 :=
        ⟨⟨head.part 0 4, Bytes.length_part (by omega)⟩, rfl⟩
      have hname : Signature.read? head 0 = some found :=
        Signature.read?_eq_some.mpr ⟨by omega, hfound⟩
      have hwhole : head.part 0 4 = head.toList := by
        rw [← hsize]
        exact congrArg Bytes.toList head.slice_size
      rw [hwhole] at hfound
      simp only [hname, Option.getD_some, Target.table.injEq, hread, Option.some.injEq,
        exists_eq_left', eq_false h, not_false_eq_true, true_and, ← hfound]
      constructor
      · rintro rfl
        rfl
      · exact Signature.ext_bytes
    · rw [hview]
      simp [hnone]

/-- Every whole entry is told by its bytes; what is left over behind the last one is not. -/
theorem entries_eq_map (t : RootTable) : t.entries = (List.range t.count).map fun i =>
    .ofNat (t.table.body.field (i * t.width.bytes) t.width.bytes) := by
  unfold entries
  rw [List.filterMap_eq_map_iff_forall_eq_some]
  intro i hi
  refine EntryWidth.entry?_eq_some ?_
  have hle : (i + 1) * t.width.bytes ≤ t.table.body.size :=
    Nat.le_trans (Nat.mul_le_mul_right _ (List.mem_range.mp hi)) (Nat.div_mul_le_self ..)
  rwa [Nat.succ_mul] at hle

/-- The entries are those that lie behind the header. -/
theorem entries_eq {t : RootTable} (htable : t.table.Decodes l) (hlow : 36 ≤ l.bytes.size) :
    t.entries = (List.range (l.count t.width)).map (l.entry t.width) := by
  have hbody : t.table.body = l.bytes.drop 36 := congrArg (Bytes.drop · 36) htable.bytes
  have hcount : t.count = l.count t.width := by
    unfold count Stretch.count
    rw [hbody, Bytes.size_drop]
  rw [entries_eq_map, hcount, hbody]
  refine List.map_congr_left fun i hi => ?_
  have hle : (i + 1) * t.width.bytes ≤ l.bytes.size - 36 :=
    Nat.le_trans (Nat.mul_le_mul_right _ (List.mem_range.mp hi)) (Nat.div_mul_le_self ..)
  rw [Nat.succ_mul] at hle
  exact congrArg Address.ofNat (Bytes.field_drop (by omega))

/-- A search loads what the first entry with the name leads to, whether that succeeds or not. -/
theorem find_result (m : Memory) (t : RootTable) (wanted : TableSignature) :
    (find m t wanted).result = match t.entries.find? (fun a => target m a = .table wanted) with
      | some a => Table.load m a (some wanted)
      | none => .error (.signatureNotFound wanted) := by
  unfold find
  rw [List.span_eq_takeWhile_dropWhile, List.find?_eq_head?_dropWhile_not]
  simp only [ne_eq, decide_not]
  cases t.entries.dropWhile fun a => !decide (target m a = .table wanted) <;> rfl

/-- A search finds the table that the first entry with its name leads to. -/
theorem find_eq_ok (hm : m.Apart) {t : RootTable} (htable : t.table.Decodes l)
    (hlow : 36 ≤ l.bytes.size) {wanted : TableSignature} {found : Table} :
    (find m t wanted).result = .ok found ↔
      ∃ s : Stretch, FirstNamed m l t.width wanted s.address ∧ IsTable m wanted s ∧
        found.Decodes s := by
  rw [find_result, entries_eq htable hlow, List.find?_map]
  constructor
  · intro h
    cases hfirst : (List.range (l.count t.width)).find?
        ((fun a => decide (target m a = .table wanted)) ∘ l.entry t.width) with
    | none =>
      rw [hfirst] at h
      cases h
    | some i =>
      rw [hfirst] at h
      obtain ⟨hi, hlt, hbefore⟩ := List.find?_range_eq_some.mp hfirst
      obtain ⟨s, haddress, hs, hfound⟩ := (Table.load_eq_ok hm).mp h
      refine ⟨s, ⟨i, List.mem_range.mp hlt, haddress.symm, ?_, fun j hj => ?_⟩, hs, hfound⟩
      · rw [Function.comp_apply, decide_eq_true_iff, target_eq_table] at hi
        rw [haddress]
        exact hi
      · have hnot := hbefore j hj
        rw [Function.comp_apply, Bool.not_eq_true', decide_eq_false_iff_not, target_eq_table] at hnot
        exact hnot
  · rintro ⟨s, ⟨i, hi, haddress, hname, hbefore⟩, hs, hfound⟩
    have hfirst : (List.range (l.count t.width)).find?
        ((fun a => decide (target m a = .table wanted)) ∘ l.entry t.width) = some i := by
      refine List.find?_range_eq_some.mpr ⟨?_, List.mem_range.mpr hi, fun j hj => ?_⟩
      · rw [Function.comp_apply, haddress]
        exact decide_eq_true (target_eq_table.mpr hname)
      · rw [Function.comp_apply, Bool.not_eq_true', decide_eq_false_iff_not, target_eq_table]
        exact hbefore j hj
    rw [hfirst, Option.map_some, haddress]
    exact (Table.load_eq_ok hm).mpr ⟨s, rfl, hs, hfound⟩

end RootTable

/-! ## The fixed table -/

namespace FixedTable

theorem ofTable_eq_ok {t : Table} (ht : t.Decodes l) (hl : IsTable m .facp l) {f : FixedTable} :
    ofTable t = .ok f ↔ 44 ≤ l.bytes.size ∧ f.table = t := by
  have hname : t.header.signature = .facp :=
    Signature.ext_bytes (ht.header.signature.trans hl.name)
  unfold ofTable
  rw [if_neg (Classical.not_not.mpr hname), ht.bytes]
  obtain ⟨table⟩ := f
  split
  · rename_i hshort
    change l.bytes.size < 44 at hshort
    constructor
    · nofun
    · rintro ⟨hroom, -⟩
      omega
  · rename_i hroom
    change ¬ l.bytes.size < 44 at hroom
    constructor
    · intro h
      cases h
      exact ⟨by omega, rfl⟩
    · rintro ⟨-, rfl⟩
      rfl

variable {f : FixedTable}

theorem toNat_legacy (hf : f.table.bytes = l.bytes) (hroom : 44 ≤ l.bytes.size) :
    f.legacy.toNat = l.bytes.field 40 4 := by
  unfold legacy legacyOffset
  rw [hf, Bytes.u32At?_of_le hroom]
  exact l.bytes.toNat_field32 40

/-- Where there is no room for the wide pointer, it is as good as null. -/
theorem toNat_extended (hf : f.table.bytes = l.bytes) :
    (f.extended?.getD 0).toNat = if 148 ≤ l.bytes.size then l.bytes.field 140 8 else 0 := by
  unfold extended? extendedOffset
  rw [hf]
  split
  · rename_i hroom
    rw [Bytes.u64At?_of_le hroom]
    exact l.bytes.toNat_field64 140
  · rename_i hroom
    cases hword : l.bytes.u64At? 140 with
    | some word => exact absurd (Bytes.u64At?_eq_some.mp hword).1 hroom
    | none => rfl

theorem pointer?_eq_some (hf : f.table.bytes = l.bytes) (hroom : 44 ≤ l.bytes.size) :
    f.pointer? = some a ↔ l.payloadPointer ≠ 0 ∧ a.toNat = l.payloadPointer := by
  have hzero : ∀ w : UInt64, w = 0 ↔ w.toNat = 0 := fun w => UInt64.toNat_inj.symm
  have hword : ∀ w : UInt64, Address.mk w = a ↔ a.toNat = w.toNat := fun w => by
    rw [eq_comm, ← Address.toNat_inj]
    rfl
  have hnarrow : f.legacy.toUInt64.toNat = l.bytes.field 40 4 := toNat_legacy hf hroom
  have hwide := toNat_extended hf
  unfold pointer? Stretch.payloadPointer
  simp only [ne_eq, hzero, hwide, hnarrow]
  by_cases hlong : 148 ≤ l.bytes.size ∧ l.bytes.field 140 8 ≠ 0
  · obtain ⟨hsize, hsome⟩ := hlong
    simp [hsize, hsome, hword, hwide]
  · have hnull : (if 148 ≤ l.bytes.size then l.bytes.field 140 8 else 0) = 0 := by
      split
      · rename_i hsize
        exact Classical.not_not.mp fun hsome => hlong ⟨hsize, hsome⟩
      · rfl
    rw [if_neg (Classical.not_not.mpr hnull), if_neg hlong]
    split
    · rename_i hsome
      simp [hword, hnarrow, hsome]
    · rename_i hsome
      simp [Classical.not_not.mp hsome]

theorem follow_eq_ok (hm : m.Apart) (hf : f.table.bytes = l.bytes) (hroom : 44 ≤ l.bytes.size)
    {p : AmlTable} : (follow m f).result = .ok p ↔
      l.payloadPointer ≠ 0 ∧ ∃ s : Stretch, s.address.toNat = l.payloadPointer ∧
        IsTable m .dsdt s ∧ p.table.Decodes s := by
  have hresult : (follow m f).result = match f.pointer? with
      | some a => Table.load m a (some .dsdt) >>= fun table => .ok ⟨table⟩
      | none => .error (.nullPointer .facp) := by
    unfold follow
    cases f.pointer? with
    | none => rfl
    | some a =>
      simp only [Logged.result_bind]
      rfl
  rw [hresult]
  obtain ⟨table⟩ := p
  cases hpointer : f.pointer? with
  | none =>
    constructor
    · nofun
    · rintro ⟨hsome, s, haddress, -⟩
      have := (pointer?_eq_some hf hroom).mpr ⟨hsome, haddress⟩
      rw [hpointer] at this
      cases this
  | some a =>
    obtain ⟨hsome, haddress⟩ := (pointer?_eq_some hf hroom).mp hpointer
    have heq : ∀ s : Stretch, s.address = a ↔ s.address.toNat = l.payloadPointer := fun s => by
      rw [← Address.toNat_inj, haddress]
    simp only [except_bind_eq_ok, Table.load_eq_ok hm, heq]
    constructor
    · rintro ⟨found, hfound, hp⟩
      cases hp
      exact ⟨hsome, hfound⟩
    · rintro ⟨-, hfound⟩
      exact ⟨table, hfound, rfl⟩

end FixedTable

/-! ## The walk -/

theorem walk_result (m : Memory) (entries : List ConfigEntry) : (walk m entries).result =
    (RootPointer.locate m entries).result >>= fun root =>
    RootTable.resolve m root >>= fun tables =>
    (RootTable.find m tables .facp).result >>= fun table =>
    FixedTable.ofTable table >>= fun fixed =>
    (FixedTable.follow m fixed).result >>= fun payload =>
    .ok ⟨root, tables, fixed, payload, ConfigEntry.deviceTree? entries⟩ := by
  unfold walk
  cases ConfigEntry.deviceTree? entries <;> simp only [Logged.result_bind] <;> rfl

/-- Bytes that make a table can be told as one. -/
theorem Table.exists_decodes {wanted : TableSignature} (h : IsTable m wanted l) :
    ∃ t : Table, t.Decodes l := by
  obtain ⟨header, hheader⟩ := Header.exists_decodes h.atLeast
  exact ⟨⟨l.address, header, l.bytes⟩, rfl, rfl, hheader⟩

/-- Bytes that make a root pointer can be told as one. -/
theorem RootPointer.exists_decodes (h : IsRoot m l) : ∃ r : RootPointer, r.Decodes l := by
  obtain ⟨r, hr, hxsdt⟩ := exists_decodesShort h.atLeast
    (if l.revision < 2 then none else some (UInt64.ofNat (l.bytes.field 24 8)))
  refine ⟨r, hr, ?_⟩
  rw [hxsdt]
  split
  · rfl
  · rw [Option.map_some, Bytes.toNat_field64]

/-- A walk succeeds where there is a chain of tables to be found, and its report tells of that
chain; where it succeeds, there is one. -/
theorem walk_finds_chain (hm : m.Apart) (entries : List ConfigEntry) :
    (∀ c : Chain, c.WellFormed m entries →
      ∃ r, (walk m entries).result = .ok r ∧ c.Reports entries r) ∧
    ∀ r, (walk m entries).result = .ok r →
      ∃ c : Chain, c.WellFormed m entries ∧ c.Reports entries r := by
  rw [walk_result]
  constructor
  · intro c hc
    obtain ⟨root, hroot⟩ := RootPointer.exists_decodes hc.root
    obtain ⟨tables, htables⟩ := Table.exists_decodes hc.tables
    obtain ⟨fixed, hfixed⟩ := Table.exists_decodes hc.fixed
    obtain ⟨payload, hpayload⟩ := Table.exists_decodes hc.payload
    obtain ⟨width, hwidth⟩ : ∃ width, width = c.root.entryWidth := ⟨_, rfl⟩
    have hresolve : RootTable.resolve m root = .ok ⟨tables, width⟩ :=
      (RootTable.resolve_eq_ok hm hroot).mpr
        ⟨hc.tablesNotNull, hwidth, c.tables, hc.tablesAt, hc.tables, htables⟩
    have hfixedAt : FirstNamed m c.tables width .facp c.fixed.address := by
      rw [hwidth]
      exact hc.fixedAt
    have hfind : (RootTable.find m ⟨tables, width⟩ .facp).result = .ok fixed :=
      (RootTable.find_eq_ok hm htables hc.tables.atLeast).mpr ⟨c.fixed, hfixedAt, hc.fixed, hfixed⟩
    have hfollow : (FixedTable.follow m ⟨fixed⟩).result = .ok ⟨payload⟩ :=
      (FixedTable.follow_eq_ok hm hfixed.bytes hc.room).mpr
        ⟨hc.payloadNotNull, c.payload, hc.payloadAt, hc.payload, hpayload⟩
    have hlocate : (RootPointer.locate m entries).result = .ok root :=
      (RootPointer.locate_eq_ok hm).mpr ⟨c.root, hc.published, hc.root, hroot⟩
    have hof : FixedTable.ofTable fixed = .ok ⟨fixed⟩ :=
      (FixedTable.ofTable_eq_ok hfixed hc.fixed).mpr ⟨hc.room, rfl⟩
    simp only [hlocate, hresolve, hfind, hof, hfollow, except_ok_bind]
    refine ⟨_, rfl, ?_⟩
    exact ⟨hroot, htables, hwidth, hfixed, hpayload, fun _ => ConfigEntry.deviceTree?_eq_some⟩
  · intro r h
    simp only [except_bind_eq_ok] at h
    obtain ⟨root, hlocate, tables, hresolve, table, hfind, fixed, hof, payload, hfollow, hr⟩ := h
    cases hr
    obtain ⟨p, hpublished, hp, hroot⟩ := (RootPointer.locate_eq_ok hm).mp hlocate
    obtain ⟨hnotNull, hwidth, t, hat, ht, htables⟩ :=
      (RootTable.resolve_eq_ok hm hroot).mp hresolve
    obtain ⟨f, hfixedAt, hf, hfixed⟩ := (RootTable.find_eq_ok hm htables ht.atLeast).mp hfind
    obtain ⟨hroom, rfl⟩ := (FixedTable.ofTable_eq_ok hfixed hf).mp hof
    obtain ⟨hsome, d, hpayloadAt, hd, hpayload⟩ :=
      (FixedTable.follow_eq_ok hm hfixed.bytes hroom).mp hfollow
    rw [hwidth] at hfixedAt
    exact ⟨⟨p, t, f, d⟩, ⟨hpublished, hp, hat, hnotNull, ht, hfixedAt, hf, hroom, hpayloadAt, hsome, hd⟩,
      hroot, htables, hwidth, hfixed, hpayload, fun _ => ConfigEntry.deviceTree?_eq_some⟩

namespace Sample

def padded (n : Nat) (front : List UInt8) : List UInt8 := front ++ .replicate (n - front.length) 0

/-- A root pointer of revision 2; a table of three addresses, of which the first is null and the
second leads nowhere; a fixed table; and two bytes of code. -/
def memory : Memory := ⟨[⟨.ofNat 0x1000, .ofList <|
  padded 0x30 ([0x52, 0x53, 0x44, 0x20, 0x50, 0x54, 0x52, 0x20, 0xDF] ++ .replicate 6 0 ++
    [2, 0, 0, 0, 0, 36, 0, 0, 0, 0x30, 0x10, 0, 0, 0, 0, 0, 0, 0x9C]) ++
  padded 0x40 (padded 36 [0x58, 0x53, 0x44, 0x54, 60] ++ .replicate 8 0 ++
    [0, 0x90, 0, 0, 0, 0, 0, 0] ++ [0x70, 0x10]) ++
  padded 0x30 (padded 40 [0x46, 0x41, 0x43, 0x50, 44] ++ [0xA0, 0x10]) ++
  padded 36 [0x44, 0x53, 0x44, 0x54, 38] ++ [0xA3, 0xA4]⟩]⟩

theorem apart_memory : memory.Apart := List.pairwise_singleton ..

/-- The older kind comes first, and the newer one counts. -/
def entries : List ConfigEntry :=
  [⟨.acpi1, .ofNat 0x1008⟩, ⟨.deviceTree, .ofNat 0x8000⟩, ⟨.acpi2, .ofNat 0x1000⟩]

end Sample

theorem walk_finds_chain_sample :
    ∃ (c : Chain) (r : Report), c.WellFormed Sample.memory Sample.entries ∧
      (walk Sample.memory Sample.entries).result = .ok r ∧ c.Reports Sample.entries r := by
  have hsome : (walk Sample.memory Sample.entries).result.toOption.isSome = true := by
    decide +kernel
  obtain ⟨hsound, hcomplete⟩ := walk_finds_chain Sample.apart_memory Sample.entries
  cases h : (walk Sample.memory Sample.entries).result with
  | error e =>
    rw [h] at hsome
    cases hsome
  | ok r =>
    obtain ⟨c, hc, -⟩ := hcomplete r h
    obtain ⟨r', hr', hreports⟩ := hsound c hc
    exact ⟨c, r', hc, h.symm.trans hr', hreports⟩

end BootLoader.Acpi
