import BootLoader.Platform.Basic
import BootLoader.Proofs.Memory.Overlap

/-! Ranges seen through the windows of a platform. Where the window bits are the same all over a
range, clearing them at its start moves the range as a whole, so two such ranges that share a byte
are found to alias each other. -/

namespace BootLoader

/-- A word is the sum of its bits in `m` and its other bits. -/
theorem toNat_eq_add_of_mask (w m : UInt64) :
    w.toNat = (w &&& m).toNat + (w &&& ~~~m).toNat := by
  obtain ⟨w⟩ := w
  obtain ⟨m⟩ := m
  have happart : (w &&& m) &&& (w &&& ~~~m) = 0#64 := by
    rw [BitVec.and_comm w m, BitVec.and_assoc, ← BitVec.and_assoc w w, BitVec.and_self,
      BitVec.and_comm w, ← BitVec.and_assoc, BitVec.and_not_self]
    exact BitVec.zero_and
  have hwhole : (w &&& m) ||| (w &&& ~~~m) = w := by
    rw [← BitVec.and_or_distrib_left, BitVec.or_not_self, BitVec.and_allOnes]
  calc
    w.toNat = ((w &&& m) ||| (w &&& ~~~m)).toNat := by rw [hwhole]
    _ = ((w &&& m) + (w &&& ~~~m)).toNat := by rw [BitVec.add_eq_or_of_and_eq_zero _ _ happart]
    _ = (w &&& m).toNat + (w &&& ~~~m).toNat := BitVec.toNat_add_of_and_eq_zero happart

namespace Platform

/-- The physical address that an address stands for, in whichever window it is. -/
def physical (p : Platform) (a : Address) : Address := (p.toPhysical ⟨a, 0⟩).start

/-- All addresses of the range have the same window bits. -/
def Uniform (p : Platform) (r : Region) : Prop :=
  ∀ a : Address, r.Holds a.toNat → a.word &&& p.windowBits = r.start.word &&& p.windowBits

variable {p : Platform} {r q : Region} {x : Nat}

/-- Where there is a single window, every range is in it. -/
theorem uniform_of_windowBits (h : p.windowBits = 0) (r : Region) : p.Uniform r := by
  intro a _
  rw [h, UInt64.and_zero, UInt64.and_zero]

/-- Without its window bits, an address of the range is as far from the start as with them. -/
theorem Uniform.toNat_physical (h : p.Uniform r) {a : Address} (ha : r.Holds a.toNat) :
    (p.physical a).toNat = (p.toPhysical r).start.toNat + (a.toNat - r.start.toNat) := by
  have hbits := h a ha
  have hle := ha.1
  have hsplit := toNat_eq_add_of_mask a.word p.windowBits
  have hsplit' := toNat_eq_add_of_mask r.start.word p.windowBits
  rw [hbits] at hsplit
  change (a.word &&& ~~~p.windowBits).toNat = (r.start.word &&& ~~~p.windowBits).toNat + _
  change r.start.word.toNat ≤ a.word.toNat at hle
  change _ = _ + (a.word.toNat - r.start.word.toNat)
  omega

theorem toNat_physical_le (p : Platform) (a : Address) : (p.physical a).toNat ≤ a.toNat := by
  have hsplit := toNat_eq_add_of_mask a.word p.windowBits
  change (a.word &&& ~~~p.windowBits).toNat ≤ a.word.toNat
  omega

/-- The last address of all is in no range, so it must not be what the address stands for. -/
theorem Uniform.contains_physical (h : p.Uniform r) {a : Address} (ha : r.Holds a.toNat)
    (hlast : (p.physical a).toNat < Address.space - 1) :
    (p.toPhysical r).contains (p.physical a) := by
  have hstart := h.toNat_physical ha
  have hlen : (p.toPhysical r).len = r.len := rfl
  unfold Region.Holds at ha
  exact Region.contains_iff.mpr ⟨⟨by omega, by omega⟩, by omega⟩

theorem aliases_of_contains {a : Address} (hr : (p.toPhysical r).contains a)
    (hq : (p.toPhysical q).contains a) : p.aliases r q = true := by
  obtain ⟨hra, hlast⟩ := Region.contains_iff.mp hr
  exact Region.overlaps_iff.mpr ⟨a.toNat, hra, (Region.contains_iff.mp hq).1, hlast⟩

/-- Ranges that share an address alias each other. -/
theorem Uniform.aliases (hr : p.Uniform r) (hq : p.Uniform q) (hlast : x < Address.space - 1)
    (hrx : r.Holds x) (hqx : q.Holds x) : p.aliases r q = true := by
  have hx : (Address.ofNat x).toNat = x := Address.toNat_ofNat (by omega)
  have hphysical : (p.physical (.ofNat x)).toNat < Address.space - 1 :=
    Nat.lt_of_le_of_lt (p.toNat_physical_le _) (by rwa [hx])
  exact aliases_of_contains (hr.contains_physical (by rwa [hx]) hphysical)
    (hq.contains_physical (by rwa [hx]) hphysical)

theorem Uniform.not_holds (hr : p.Uniform r) (hq : p.Uniform q) (hapart : p.aliases r q = false)
    (hlast : x < Address.space - 1) (hrx : r.Holds x) : ¬ q.Holds x := by
  intro hqx
  rw [hr.aliases hq hlast hrx hqx] at hapart
  exact Bool.false_ne_true hapart.symm

end Platform

end BootLoader
