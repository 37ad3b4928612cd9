import BootLoader.Proofs.Bytes
import BootLoader.Proofs.Memory.View

/-! Reads of several lengths at one address, down to the single byte. They agree where no two
windows share an address; else a short one might be served by a window that a long one does not fit
into. -/

namespace BootLoader.Memory

variable {m : Memory}

/-- What is read has the length that was asked for. -/
theorem size_read? {a : Address} {n : Nat} {bs : Bytes} (h : m.read? a n = some bs) : bs.size = n := by
  obtain ⟨w, hw, hbs⟩ := List.exists_of_findSome?_eq_some h
  obtain ⟨off, hoff, rfl⟩ := Option.map_eq_some_iff.mp hbs
  obtain ⟨hbase, hlimit, rfl⟩ := Window.offset?_eq_some.mp hoff
  unfold Window.limit at hlimit
  exact Bytes.size_slice (by omega)

/-- A shorter read finds the beginning of what a longer one finds. -/
theorem read?_shorter {a : Address} {n k : Nat} {bs : Bytes} (hm : m.Apart)
    (h : m.read? a n = some bs) (hk : 0 < k) (hkn : k ≤ n) : m.read? a k = some (bs.slice 0 k) := by
  obtain ⟨ws⟩ := m
  unfold Apart at hm
  unfold read? at h ⊢
  dsimp only at hm h ⊢
  induction ws with
  | nil => cases h
  | cons w ws ih =>
    rw [List.pairwise_cons] at hm
    rw [List.findSome?_cons] at h ⊢
    cases hlong : w.offset? a n with
    | some off =>
      obtain ⟨hbase, hlimit, rfl⟩ := Window.offset?_eq_some.mp hlong
      have hshort : w.offset? a k = some (a.toNat - w.base.toNat) :=
        Window.offset?_eq_some.mpr ⟨hbase, by omega, rfl⟩
      rw [hlong] at h
      cases h
      rw [hshort, Bytes.slice_slice (by omega)]
      rfl
    | none =>
      rw [hlong] at h
      -- the window of the longer read comes later and holds `a` too, so this one does not
      have hshort : w.offset? a k = none := by
        rw [Option.eq_none_iff_forall_ne_some]
        intro off hoff
        obtain ⟨hbase, hlimit, -⟩ := Window.offset?_eq_some.mp hoff
        obtain ⟨v, hv, hbs⟩ := List.exists_of_findSome?_eq_some h
        obtain ⟨off', hoff', -⟩ := Option.map_eq_some_iff.mp hbs
        obtain ⟨hbase', hlimit', -⟩ := Window.offset?_eq_some.mp hoff'
        exact hm.1 v hv a.toNat ⟨hbase, by omega⟩ ⟨hbase', by omega⟩
      rw [hshort]
      exact ih hm.2 h

/-- What a read finds is, byte by byte, what is there. -/
theorem get?_of_read? {a : Address} {n i : Nat} {bs : Bytes} (hm : m.Apart)
    (h : m.read? a n = some bs) (hi : i < n) : bs.get? i = m.byte? (a.toNat + i) := by
  obtain ⟨ws⟩ := m
  unfold Apart at hm
  unfold read? at h
  unfold byte?
  dsimp only at hm h ⊢
  induction ws with
  | nil => simp at h
  | cons w ws ih =>
    rw [List.pairwise_cons] at hm
    rw [List.findSome?_cons] at h ⊢
    cases hserved : w.offset? a n with
    | some off =>
      obtain ⟨hbase, hlimit, rfl⟩ := Window.offset?_eq_some.mp hserved
      unfold Window.limit at hlimit
      rw [hserved] at h
      cases h
      have hbyte : w.byte? (a.toNat + i) = w.bytes.get? (a.toNat - w.base.toNat + i) := by
        rw [Window.byte?, if_pos (by omega)]
        congr 1
        omega
      obtain ⟨b, hb⟩ : ∃ b, w.bytes.get? (a.toNat - w.base.toNat + i) = some b := by
        rw [← Option.isSome_iff_exists, Bytes.get?_isSome]
        omega
      rw [Bytes.get?_slice hi, hbyte, hb]
    | none =>
      rw [hserved] at h
      -- a later window serves the read and holds the byte, so this one does not
      obtain ⟨v, hv, hbs⟩ := List.exists_of_findSome?_eq_some h
      obtain ⟨off, hoff, -⟩ := Option.map_eq_some_iff.mp hbs
      obtain ⟨hbase, hlimit, -⟩ := Window.offset?_eq_some.mp hoff
      have hnone : w.byte? (a.toNat + i) = none := by
        rw [← Option.not_isSome_iff_eq_none, Window.byte?_isSome]
        intro hw
        exact hm.1 v hv _ hw ⟨by omega, by omega⟩
      rw [hnone]
      exact ih hm.2 h

/-- A read that stays clear of what has changed finds what it found before. -/
theorem AgreesOff.read? {P : Nat → Prop} {m' : Memory} {a : Address} {n : Nat} (hm : m.Apart)
    (h : m.AgreesOff P m') (hclear : ∀ i < n, ¬ P (a.toNat + i)) : m'.read? a n = m.read? a n := by
  have hsome : (m'.read? a n).isSome = (m.read? a n).isSome := by
    rw [← isMapped_iff, isMapped_of_extents h.extents, isMapped_iff]
  cases hold : m.read? a n with
  | none =>
    rwa [hold, Option.isSome_none, Option.isSome_eq_false_iff, Option.isNone_iff_eq_none] at hsome
  | some old =>
    rw [hold, Option.isSome_some, Option.isSome_iff_exists] at hsome
    obtain ⟨new, hnew⟩ := hsome
    have hsize : new.size = old.size := (size_read? hnew).trans (size_read? hold).symm
    rw [hnew]
    refine congrArg some (Bytes.ext_get? hsize fun i hi => ?_)
    rw [size_read? hnew] at hi
    rw [get?_of_read? (hm.of_extents h.extents) hnew hi, get?_of_read? hm hold hi,
      h.byte? _ (hclear i hi)]

end BootLoader.Memory
