import BootLoader.Proofs.Memory.Read

/-! Filling a range and reading it back. A fill reaches every byte of the range or none, and what it
has filled reads as it was filled: whichever window serves the read holds the bytes, and no other
does. -/

namespace BootLoader

namespace Bytes

variable {b : UInt8} {n i : Nat}

theorem get?_filled (h : i < n) : (filled n b).get? i = some b := by
  rw [get?_eq, toList_filled, List.getElem?_replicate, if_pos h]

theorem deviationFrom?_eq_none {bs : Bytes} (h : ∀ j, i ≤ j → j < i + n → bs.get? j = some b) :
    bs.deviationFrom? b n i = none := by
  induction n generalizing i with
  | zero => rfl
  | succ n ih =>
    have hhere : bs.get? i = some b := h i (by omega) (by omega)
    have hrest : bs.deviationFrom? b n (i + 1) = none := by
      apply ih
      intro j hij hj
      exact h j (by omega) (by omega)
    simp [deviationFrom?, hhere, hrest]

/-- Nothing deviates where every byte is as expected. -/
theorem deviation?_eq_none {bs : Bytes} (h : ∀ j < bs.size, bs.get? j = some b) :
    bs.deviation? b = none := by
  apply deviationFrom?_eq_none
  intro j _ hj
  exact h j (by omega)

end Bytes

namespace Memory

variable {m m' : Memory} {r : Region}

/-- One window holds the whole region, or there is nothing of it to hold. -/
def Backs (m : Memory) (r : Region) : Prop := r.len ≠ 0 → m.isMapped r.start r.len

instance (m : Memory) (r : Region) : Decidable (m.Backs r) :=
  inferInstanceAs (Decidable (_ → _))

theorem backs_of_extents (h : m'.extents = m.extents) (r : Region) : m'.Backs r ↔ m.Backs r := by
  unfold Backs
  rw [isMapped_of_extents h]

theorem read?_of_not_backs (h : ¬ m.Backs r) : r.len ≠ 0 ∧ m.read? r.start r.len = none := by
  obtain ⟨hlen, hunmapped⟩ : r.len ≠ 0 ∧ ¬ m.isMapped r.start r.len := by simpa [Backs] using h
  rw [isMapped_iff] at hunmapped
  exact ⟨hlen, Option.not_isSome_iff_eq_none.mp hunmapped⟩

end Memory

namespace Mapping

variable {m : Memory} {r : Region}

theorem fill_of_not_backs (h : ¬ m.Backs r) (value : UInt8) :
    fill m r value = (.error (.unmapped r.start r.len), m) := by
  obtain ⟨hlen, hread⟩ := Memory.read?_of_not_backs h
  change read? m r.start r.len = none at hread
  simp [fill, Region.isEmpty, hlen, hread]

/-- A region that has bytes and a window is filled by one write. -/
theorem fill_of_mapped (hlen : r.len ≠ 0) (h : m.isMapped r.start r.len) (value : UInt8) :
    fill m r value = (.ok (), (m.write r.start (.filled r.len value)).2) := by
  obtain ⟨bs, hread⟩ : ∃ bs, read? m r.start r.len = some bs := by
    rw [Memory.isMapped_iff, Option.isSome_iff_exists] at h
    exact h
  have hplace := place_eq m r.start (.filled r.len value)
  rw [Bytes.size_filled, if_pos h] at hplace
  simp [fill, Region.isEmpty, hlen, hread, hplace]

theorem fill_of_empty (hlen : r.len = 0) (m : Memory) (value : UInt8) :
    fill m r value = (.ok (), m) := by
  simp [fill, Region.isEmpty, hlen]

theorem fill_of_backs (h : m.Backs r) (value : UInt8) : (fill m r value).1 = .ok () := by
  by_cases hlen : r.len = 0
  · rw [fill_of_empty hlen]
  · rw [fill_of_mapped hlen (h hlen)]

theorem byte?_fill (hm : m.Apart) (h : m.Backs r) (value : UInt8) (x : Nat) :
    (fill m r value).2.byte? x = if r.Holds x then some value else m.byte? x := by
  by_cases hlen : r.len = 0
  · have hnot : ¬ r.Holds x := by
      unfold Region.Holds
      omega
    rw [fill_of_empty hlen, if_neg hnot]
  · have hfound : (m.write r.start (.filled r.len value)).1 = true := by
      rw [Memory.write_found, Bytes.size_filled]
      exact h hlen
    rw [fill_of_mapped hlen (h hlen), Memory.byte?_write hm hfound, Bytes.size_filled]
    by_cases hx : r.Holds x
    · have hin := hx
      unfold Region.Holds at hin
      rw [if_pos hx, if_pos hin, Bytes.get?_filled (by omega)]
    · rw [if_neg hx]
      exact if_neg hx

theorem verify_of_not_backs (h : ¬ m.Backs r) (value : UInt8) :
    verify m r value = .error (.unmapped r.start r.len) := by
  obtain ⟨hlen, hread⟩ := Memory.read?_of_not_backs h
  change read? m r.start r.len = none at hread
  simp [verify, Region.isEmpty, hlen, hread]

/-- What a check of a region sees, byte by byte. -/
theorem verify_of_mapped (hm : m.Apart) (hlen : r.len ≠ 0) (h : m.isMapped r.start r.len)
    (value : UInt8) : ∃ bs : Bytes, bs.size = r.len ∧
      (∀ i < r.len, bs.get? i = m.byte? (r.start.toNat + i)) ∧
      verify m r value = match bs.deviation? value with
        | none => .ok ()
        | some (found, i) => .error (.mismatch (r.start.plus i) value found) := by
  rw [Memory.isMapped_iff, Option.isSome_iff_exists] at h
  obtain ⟨bs, hread⟩ := h
  refine ⟨bs, Memory.size_read? hread, fun i hi => Memory.get?_of_read? hm hread hi, ?_⟩
  have hempty : r.isEmpty = false := by simpa [Region.isEmpty] using hlen
  change read? m r.start r.len = some bs at hread
  cases hdeviation : bs.deviation? value <;> simp [verify, hempty, hread, hdeviation]

theorem verify_of_uniform (hm : m.Apart) (h : m.Backs r) {value : UInt8}
    (hall : ∀ x, r.Holds x → m.byte? x = some value) : verify m r value = .ok () := by
  by_cases hlen : r.len = 0
  · simp [verify, Region.isEmpty, hlen]
  · obtain ⟨bs, hsize, hbytes, hverify⟩ := verify_of_mapped hm hlen (h hlen) value
    have hnone : bs.deviation? value = none := by
      apply Bytes.deviation?_eq_none
      intro i hi
      rw [hsize] at hi
      rw [hbytes i hi]
      exact hall _ ⟨by omega, by omega⟩
    rw [hverify, hnone]

/-- What was filled reads as it was filled. -/
theorem verify_fill (hm : m.Apart) (h : m.Backs r) (value : UInt8) :
    verify (fill m r value).2 r value = .ok () := by
  have hextents := (fill_agreesOff m r value).extents
  have hbacks : (fill m r value).2.Backs r := (Memory.backs_of_extents hextents r).mpr h
  apply verify_of_uniform (hm.of_extents hextents) hbacks
  intro x hx
  rw [byte?_fill hm h, if_pos hx]

end Mapping

end BootLoader
