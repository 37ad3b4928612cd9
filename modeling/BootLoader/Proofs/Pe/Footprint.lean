import BootLoader.Proofs.Pe.Load

/-! The footprint of an image bounds what a load of it writes, although the two go through the
section table each in its own way. Both stop at the same record, the first that does not lie within
the file. -/

namespace BootLoader.Pe

variable {bs : Bytes} {base : Address} {image : Image} {m : Memory} {k : Nat}

/-! ## The section table -/

namespace Image

def sections (i : Image) : List (Except PeError Section) := i.indices.map i.sectionAt

def recordAt (i : Image) (k : Nat) : Nat := i.sectionTable + 40 * k

def heldCount (i : Image) : Nat := min i.sectionCount ((i.bytes.size - i.sectionTable) / 40)

/-- The table gives a section for each record that lies within the file, the one that the record
spells, and then only errors. The readable sections are those before the first error. -/
structure ReadsTable (i : Image) : Prop where
  length : i.sections.length = i.sectionCount
  held : ∀ k < i.heldCount, ∃ header, i.sections[k]? = some (.ok ⟨k, header⟩) ∧
    header.Decodes i.bytes (i.recordAt k)
  beyond : ∀ k, i.heldCount ≤ k → k < i.sectionCount →
    i.sections[k]? = some (.error (.truncated "section header" (i.recordAt k)))
  readable : i.readable.map .ok = i.sections.takeWhile Except.isOk

end Image

theorem sections_getElem? (hk : k < image.sectionCount) :
    image.sections[k]? = some (image.sectionAt k) := by
  simp [Image.sections, Image.indices, hk]

theorem lt_heldCount :
    k < image.heldCount ↔ k < image.sectionCount ∧ image.recordAt k + 40 ≤ image.bytes.size := by
  unfold Image.heldCount Image.recordAt
  omega

theorem sectionAt_eq (image : Image) (k : Nat) : image.sectionAt k =
    match SectionHeader.read? image.bytes (image.recordAt k) with
    | some header => .ok ⟨k, header⟩
    | none => .error (.truncated "section header" (image.recordAt k)) := by
  unfold Image.recordAt
  rw [Nat.mul_comm]
  rfl

theorem sectionAt_of_le (h : image.recordAt k + 40 ≤ image.bytes.size) :
    ∃ header, image.sectionAt k = .ok ⟨k, header⟩ ∧ header.Decodes image.bytes (image.recordAt k) := by
  obtain ⟨header, hdecodes⟩ := SectionHeader.exists_decodes image.bytes (image.recordAt k)
  refine ⟨header, ?_, hdecodes⟩
  rw [sectionAt_eq, SectionHeader.read?_eq_some.mpr ⟨h, hdecodes⟩]

theorem sectionAt_of_not_le (h : ¬ image.recordAt k + 40 ≤ image.bytes.size) :
    image.sectionAt k = .error (.truncated "section header" (image.recordAt k)) := by
  have hnone := mt SectionHeader.read?_isSome.mp h
  rw [Option.not_isSome_iff_eq_none] at hnone
  rw [sectionAt_eq, hnone]

theorem isOk_sectionAt :
    (image.sectionAt k).isOk = true ↔ image.recordAt k + 40 ≤ image.bytes.size := by
  by_cases h : image.recordAt k + 40 ≤ image.bytes.size
  · obtain ⟨header, hok, -⟩ := sectionAt_of_le h
    simp [hok, h, Except.isOk, Except.toBool]
  · simp [sectionAt_of_not_le h, h, Except.isOk, Except.toBool]

/-- No record lies within the file after one that does not. -/
theorem pairwise_indices (image : Image) : image.indices.Pairwise fun i j =>
    (image.sectionAt j).isOk = true → (image.sectionAt i).isOk = true := by
  apply List.pairwise_lt_range.imp
  intro i j hlt
  rw [isOk_sectionAt, isOk_sectionAt]
  unfold Image.recordAt
  omega

/-- Dropping the errors and stopping at the first come to the same where nothing but errors follow
it. -/
theorem map_ok_filterMap {ε α β : Type} {f : α → Except ε β} {l : List α}
    (h : l.Pairwise fun a b => (f b).isOk = true → (f a).isOk = true) :
    (l.filterMap fun a => (f a).toOption).map .ok = (l.map f).takeWhile Except.isOk := by
  induction l with
  | nil => rfl
  | cons a l ih =>
    rw [List.pairwise_cons] at h
    rw [List.map_cons, List.filterMap_cons]
    cases ha : f a with
    | ok b =>
      rw [List.takeWhile_cons_of_pos rfl, ← ih h.2]
      rfl
    | error e =>
      have hnone : l.filterMap (fun a => (f a).toOption) = [] := by
        rw [List.filterMap_eq_nil_iff]
        intro b hb
        have hbad := h.1 b hb
        rw [ha] at hbad
        cases hfb : f b with
        | ok c =>
          rw [hfb] at hbad
          cases hbad rfl
        | error e' => rfl
      rw [List.takeWhile_cons_of_neg (by simp [Except.isOk, Except.toBool])]
      exact congrArg _ hnone

theorem Image.readsTable (image : Image) : image.ReadsTable where
  length := by simp [sections, indices]
  held := by
    intro k hk
    obtain ⟨hcount, hin⟩ := lt_heldCount.mp hk
    rw [sections_getElem? hcount]
    obtain ⟨header, hok, hdecodes⟩ := sectionAt_of_le hin
    exact ⟨header, congrArg some hok, hdecodes⟩
  beyond := by
    intro k hle hk
    have hout : ¬ image.recordAt k + 40 ≤ image.bytes.size := fun hin =>
      Nat.not_lt.mpr hle (lt_heldCount.mpr ⟨hk, hin⟩)
    rw [sections_getElem? hk, sectionAt_of_not_le hout]
  readable := map_ok_filterMap (pairwise_indices image)

/-! ## A load -/

/-- A file whose headers do not come to an image changes nothing. Any other changes nothing outside
its footprint, however the load ends; and the footprint is over the sections that the load can come
to. -/
theorem load_within_footprint (bs : Bytes) (base : Address) (hm : m.Orderly) :
    (∀ e, Image.parse bs = .error e → ((load bs base).run m).2 = m) ∧
      ∀ image, Image.parse bs = .ok image →
        m.AgreesOff (Region.Holds ⟨base, image.footprint⟩) ((load bs base).run m).2 ∧
          image.bytes = bs ∧ image.ReadsTable := by
  rw [Task.run_snd]
  constructor
  · intro e hparse
    rw [load_of_parse_error hparse]
    rfl
  · intro image hparse
    refine ⟨(load_agreesOff bs base ⟨[], m⟩ hm).mono ?_, parse_bytes hparse, image.readsTable⟩
    rintro x ⟨image', hparse', hx⟩
    rw [hparse] at hparse'
    cases hparse'
    exact hx

theorem load_within_footprint_sample :
    ∃ image, Image.parse (Sample.file 205) = .ok image ∧ image.footprint = 20 ∧
      Sample.memory.AgreesOff (Region.Holds ⟨.ofNat 0x1000, image.footprint⟩)
        ((load (Sample.file 205) (.ofNat 0x1000)).run Sample.memory).2 ∧ image.ReadsTable := by
  have hreach : (Image.parse (Sample.file 205)).toOption.map (·.footprint) = some 20 := by decide +kernel
  cases hparse : Image.parse (Sample.file 205) with
  | error e => simp [hparse, Except.toOption] at hreach
  | ok image =>
    have hfootprint : image.footprint = 20 := by simpa [hparse, Except.toOption] using hreach
    obtain ⟨hagrees, -, htable⟩ :=
      (load_within_footprint (Sample.file 205) (.ofNat 0x1000) Sample.orderly_memory).2 image hparse
    exact ⟨image, rfl, hfootprint, hagrees, htable⟩

end BootLoader.Pe
