import BootLoader.Proofs.Memory.View

/-! When two ranges meet, and when a range contains an address, in exact numbers. The end of a range
is an address itself, so it is cut off at the last one: that address is in no range, whatever the
range says. Of all others the answers are right. -/

namespace BootLoader.Region

variable {a b r : Region} {x : Nat}

/-- Up to the end of a range are its addresses, but for the last address of all. -/
theorem lt_limit_iff : x < r.limit ↔ x < r.start.toNat + r.len ∧ x + 1 < Address.space := by
  unfold limit
  omega

theorem contains_iff {x : Address} :
    r.contains x ↔ r.Holds x.toNat ∧ x.toNat + 1 < Address.space := by
  simp only [contains, Holds, Bool.and_eq_true, decide_eq_true_eq, lt_limit_iff, and_assoc]

/-- Two ranges meet in the greater of their starts, if they meet at all. -/
theorem overlaps_iff : a.overlaps b ↔ ∃ x, a.Holds x ∧ b.Holds x ∧ x + 1 < Address.space := by
  simp only [overlaps, isEmpty, Holds, Bool.and_eq_true, Bool.not_eq_true', beq_eq_false_iff_ne,
    decide_eq_true_eq, lt_limit_iff]
  constructor
  · rintro ⟨⟨⟨ha, hb⟩, hab, ha'⟩, hba, hb'⟩
    exact ⟨max a.start.toNat b.start.toNat, by omega, by omega, by omega⟩
  · rintro ⟨x, hax, hbx, hx⟩
    omega

theorem overlaps_comm (a b : Region) : a.overlaps b = b.overlaps a := by
  simp only [overlaps, Bool.and_comm, Bool.and_left_comm, Bool.and_assoc]

/-- Whichever is asked first, two ranges overlap exactly if they share an address that is not the
last one, and a range contains exactly the addresses in it that are not the last one. -/
theorem overlaps_iff_shared (a b : Region) :
    a.overlaps b = b.overlaps a ∧
      (a.overlaps b ↔ ∃ x, a.Holds x ∧ b.Holds x ∧ x + 1 < Address.space) ∧
      ∀ x : Address, a.contains x ↔ a.Holds x.toNat ∧ x.toNat + 1 < Address.space :=
  ⟨overlaps_comm a b, overlaps_iff, fun _ => contains_iff⟩

/-- The byte at the last address is in this range and can be filled. Yet the range neither contains
it nor overlaps itself. -/
theorem last_byte_missed :
    let r := Region.ofNat (Address.space - 1) 1
    let m : Memory := ⟨[⟨r.start, .filled 1 0⟩]⟩
    r.start.toNat + r.len = Address.space ∧ r.Holds (Address.space - 1) ∧
      r.contains r.start = false ∧ r.overlaps r = false ∧
      (Mapping.fill m r 7).2.byte? (Address.space - 1) = some 7 := by
  decide

end BootLoader.Region
